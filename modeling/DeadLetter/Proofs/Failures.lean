import DeadLetter.Admin.Router
import DeadLetter.Proofs.Routine.Journal
import DeadLetter.Proofs.Store.Batches
import DeadLetter.Proofs.World

/-!
# Failures leave everything as it was

`Routine.Harmless good r` : unless the result of `r` is good, its run leaves all queues and the telemetry record
untouched. Operations only look until nothing can fail any more, or until their last call; reading a dead letter queue
goes on after a change, but there a batch that was received tells that the next one will be (`collect_of_serves`).
`failures_harmless` : an operation that fails, and a request that is not answered with status 200, changed nothing.
-/

namespace DeadLetter

set_option autoImplicit false

namespace Routine
variable {α β : Type} {good : α → Prop} {good' : β → Prop} {r : Routine α}

/-- Unless the result is good, a run leaves all queues and the telemetry record untouched. -/
def Harmless (good : α → Prop) (r : Routine α) : Prop := ∀ w, good (r.run w).1 ∨ w.Untouched (r.run w).2

theorem Harmless.of_good (h : ∀ w, good (r.run w).1) : Harmless good r := fun w => Or.inl (h w)

theorem Looks.harmless (h : Looks r) : Harmless good r := fun w => Or.inr (h.untouched w)

theorem Looks.bind_harmless {f : α → Routine β} (h : Looks r) (hf : ∀ a, Harmless good' (f a)) :
    Harmless good' (r >>= f) := by
  intro w
  rw [run_bind]
  exact (hf _ _).imp_right (h.untouched w).trans

/-- A good result is turned into a good one, and after any other the routine only looks. -/
theorem Harmless.bind {f : α → Routine β} (h : Harmless good r) (hgood : ∀ a, good a → ∀ w, good' ((f a).run w).1)
    (hbad : ∀ a, ¬ good a → Looks (f a)) : Harmless good' (r >>= f) := by
  intro w
  rw [run_bind]
  by_cases hr : good (r.run w).1
  · exact Or.inl (hgood _ hr _)
  · exact Or.inr (((h w).resolve_left hr).trans ((hbad _ hr).untouched _))

end Routine

open Routine

namespace Attempt
variable {α β : Type} {x : Attempt α} {f : α → Attempt β}

/-- Whether an attempt had a value for its outcome. -/
def Succeeded (o : Except QueueError α) : Prop := ∃ a, o = .ok a

/-- Unless it succeeds, an attempt leaves all queues and the telemetry record untouched. -/
abbrev Harmless (x : Attempt α) : Prop := x.result.Harmless Succeeded

/-- After a look that failed nothing more is done. -/
theorem bind_harmless {good : Except QueueError β → Prop} (h : Looks x.result)
    (hf : ∀ a, (f a).result.Harmless good) : (x >>= f).result.Harmless good := by
  rw [result_bind]
  refine h.bind_harmless fun o => ?_
  cases o with
  | ok a => exact hf a
  | error e => exact Looks.harmless (.pure _)

theorem Harmless.bind_succeeds (h : x.Harmless) (hf : ∀ a w, Succeeded ((f a).result.run w).1) :
    (x >>= f).Harmless := by
  unfold Harmless
  rw [result_bind]
  refine Routine.Harmless.bind h ?_ ?_
  · rintro _ ⟨a, rfl⟩ w
    exact hf a w
  · intro o ho
    cases o with
    | ok a => exact absurd ⟨a, rfl⟩ ho
    | error e => exact .pure _

theorem lift_succeeds (r : Routine α) (w : World) : Succeeded ((Attempt.result (ExceptT.lift r)).run w).1 := by
  rw [result_lift, Routine.run_bind]
  exact ⟨_, rfl⟩

theorem bind_succeeds {w : World} (h : Succeeded (x.result.run w).1) (hf : ∀ a w, Succeeded ((f a).result.run w).1) :
    Succeeded ((x >>= f).result.run w).1 := by
  rw [run_bind]
  obtain ⟨a, ha⟩ := h
  rcases hr : x.result.run w with ⟨o, w'⟩
  rw [hr] at ha
  cases ha
  exact hf a w'

end Attempt

/-! ## Operations -/

open Attempt

namespace QueueHandle
variable (q : QueueHandle)

theorem retry_harmless (p : NumberPolicy) : (q.retry p).Harmless := by
  unfold retry
  cases hd : q.dlq with
  | none => exact Looks.harmless (.pure _)
  | some d =>
    refine bind_harmless (q.urlOfDlq_looks hd) fun dlqUrl => bind_harmless (.call rfl) fun attributes => ?_
    dsimp only
    split
    · exact Looks.harmless (.pure _)
    · refine bind_harmless q.url_looks fun url => Routine.Harmless.of_good fun w => ?_
      -- once both queues are known, nothing makes a retry fail
      refine bind_succeeds (lift_succeeds _ w) fun moved w' => ?_
      exact bind_succeeds (lift_succeeds _ w') fun _ _ => ⟨_, rfl⟩

/-- While messages can be received from a queue, reading them does not fail. -/
theorem collect_of_serves {dlqUrl : String} {w : World} (h : w.provider.queues.Serves (queueNameOfUrl dlqUrl))
    (wanted : Nat) : Succeeded ((collect dlqUrl wanted).result.run w).1 := by
  induction wanted using Nat.strongRecOn generalizing w with
  | _ wanted ih =>
    unfold collect
    split
    · exact ⟨_, rfl⟩
    · next hwanted =>
      obtain ⟨batch, t, hreceive, htakes⟩ := QueueStore.receive_of_serves h (min wanted Call.maxBatch)
      rw [Attempt.run_bind, Attempt.run_receive hreceive]
      cases batch with
      | nil => exact ⟨_, rfl⟩
      | cons e batch =>
        refine bind_succeeds (ih _ ?_ (htakes.serves h)) fun _ _ => ⟨_, rfl⟩
        rw [List.length_cons]
        omega

theorem collect_harmless (dlqUrl : String) (wanted : Nat) : (collect dlqUrl wanted).Harmless := by
  intro w
  by_cases hwanted : wanted = 0
  · unfold collect
    rw [if_pos hwanted]
    exact Or.inl ⟨_, rfl⟩
  have hlimit : 0 < min wanted Call.maxBatch := Nat.lt_min.mpr ⟨Nat.pos_of_ne_zero hwanted, by decide⟩
  rcases QueueStore.receive_cases w.provider.queues dlqUrl (min wanted Call.maxBatch) with
    ⟨e, t, hreceive, hquiet⟩ | ⟨hserves, _⟩
  · right
    unfold collect
    rw [if_neg hwanted, Attempt.run_bind, Attempt.run_receive hreceive]
    exact ⟨hquiet.queues, rfl⟩
  · exact Or.inl (collect_of_serves (hserves hlimit) wanted)

theorem inspect_harmless (p : NumberPolicy) (limit : Int) : (q.inspect p limit).Harmless := by
  unfold inspect
  cases hd : q.dlq with
  | none => exact Looks.harmless (.pure _)
  | some d =>
    refine bind_harmless (q.urlOfDlq_looks hd) fun dlqUrl => bind_harmless (.call rfl) fun attributes => ?_
    exact (collect_harmless dlqUrl _).bind_succeeds fun _ _ => ⟨_, rfl⟩

theorem dlqPurge_looks : Looks q.dlqPurge?.result := by
  unfold dlqPurge?
  cases hd : q.dlq with
  | none => exact .pure _
  | some d => exact .attempt (q.urlOfDlq_looks hd) fun _ => .pure _

end QueueHandle

namespace PurgeRequest

theorem call_purge_harmless (url : String) : (Attempt.call (.purge url)).Harmless := by
  intro w
  rcases QueueStore.purge_cases w.provider.queues url with ⟨e, t, hpurge, hquiet⟩ | ⟨q, t, _, hpurge, _⟩
  · right
    show w.Untouched (w.perform (.call (.purge url))).2
    refine ⟨?_, rfl⟩
    show (w.provider.queues.purge url).2.queues = _
    rw [hpurge]
    exact hquiet.queues
  · left
    refine ⟨(), ?_⟩
    show (w.provider.queues.purge url).1 = _
    rw [hpurge]

theorem purge_harmless (r : PurgeRequest) : r.purge.Harmless := by
  unfold purge
  refine bind_harmless (.call rfl) fun attributes => ?_
  dsimp only
  split
  · refine (call_purge_harmless r.url).bind_succeeds fun _ w => ?_
    exact bind_succeeds (lift_succeeds _ w) fun _ _ => ⟨_, rfl⟩
  · exact Looks.harmless (.pure _)

end PurgeRequest

theorem QueueHandle.purgeDlq_harmless (q : QueueHandle) : q.purgeDlq.Harmless := by
  refine bind_harmless q.dlqPurge_looks fun o => ?_
  cases o with
  | none => exact Looks.harmless (.pure _)
  | some request => exact request.purge_harmless

theorem Registry.purgeOf_looks (r : Registry) (name : String) : Looks (r.purgeOf? name).result := by
  unfold purgeOf?
  split
  · next q _ => exact .attempt q.url_looks fun _ => .pure _
  · split
    · next q _ => exact q.dlqPurge_looks
    · exact .pure _

/-! ## Requests -/

namespace Admin

/-- The outcome of an operation that is answered with status 200. -/
def Granted {α : Type} (o : Except QueueError (Except Failure α)) : Prop := ∃ v, o = .ok (.ok v)

theorem granted_harmless {α : Type} {x : Attempt α} (h : x.Harmless) :
    Routine.Harmless Granted (x >>= fun v => pure (.ok v) : Attempt (Except Failure α)).result := by
  rw [Attempt.result_bind]
  refine Routine.Harmless.bind h ?_ ?_
  · rintro _ ⟨v, rfl⟩ w
    exact ⟨v, rfl⟩
  · intro o ho
    cases o with
    | ok v => exact absurd ⟨v, rfl⟩ ho
    | error e => exact .pure _

theorem answer_harmless {α : Type} {a : Attempt (Except Failure α)} (toJson : α → Json)
    (h : Routine.Harmless Granted a.result) : Routine.Harmless (·.status = 200) (answer toJson a) := by
  refine Routine.Harmless.bind h ?_ ?_
  · rintro _ ⟨v, rfl⟩ w
    rfl
  · intro o ho
    match o with
    | .ok (.ok v) => exact absurd ⟨v, rfl⟩ ho
    | .ok (.error f) => exact .pure _
    | .error e => exact .pure _

namespace App
variable (app : App)

theorem retry_harmless (name : String) : Routine.Harmless Granted (app.retry name).result := by
  unfold retry
  cases app.registry.queueByDlqName? name with
  | none => exact Looks.harmless (.pure _)
  | some q => exact granted_harmless (q.retry_harmless app.numbers)

theorem purge_harmless (name : String) : Routine.Harmless Granted (app.purge name).result := by
  refine bind_harmless (app.registry.purgeOf_looks name) fun o => ?_
  cases o with
  | none => exact Looks.harmless (.pure _)
  | some request => exact granted_harmless request.purge_harmless

theorem inspect_harmless (name : String) (limit : Int) :
    Routine.Harmless Granted (app.inspect name limit).result := by
  unfold inspect
  cases app.registry.queueByDlqName? name with
  | none => exact Looks.harmless (.pure _)
  | some q => exact granted_harmless (q.inspect_harmless app.numbers limit)

theorem handle_harmless (query : String) (route : Route) :
    Routine.Harmless (·.status = 200) (app.handle query route) := by
  cases route with
  | docs => exact Looks.harmless (.pure _)
  | interface => exact Looks.harmless (.pure _)
  | health => exact Looks.harmless (.bind app.registry.health_looks fun _ => .pure _)
  | retryAll => exact .of_good fun w => by rw [handle, Routine.run_bind]; rfl
  | retry dlq =>
    rw [handle]
    split
    · exact Looks.harmless (.pure _)
    · exact answer_harmless _ (app.retry_harmless _)
  | purge queue =>
    rw [handle]
    split
    · exact Looks.harmless (.pure _)
    · exact answer_harmless _ (app.purge_harmless _)
  | inspect dlq =>
    rw [handle]
    split
    · exact Looks.harmless (.pure _)
    · split
      · exact Looks.harmless (.pure _)
      · exact answer_harmless _ (app.inspect_harmless _ _)

theorem dispatch_harmless (r : Request) (route : Route) :
    Routine.Harmless (·.status = 200) (app.dispatch r route) := by
  unfold dispatch
  split
  · exact app.handle_harmless r.query route
  · split
    · exact (app.handle_harmless r.query route).bind (fun _ h _ => h) fun _ _ => .pure _
    · exact Looks.harmless (.pure _)

theorem respond_harmless (r : Request) : Routine.Harmless (·.status = 200) (app.respond r) := by
  unfold respond
  split
  · exact Looks.harmless (.pure _)
  · split
    · exact Looks.harmless (.pure _)
    · exact app.dispatch_harmless r _

end App

end Admin

/-! ## What fails changes nothing -/

/-- Retrying queues in order: some of them, then one, then the others. -/
theorem retryEach_split (p : NumberPolicy) (before : List QueueHandle) (q : QueueHandle) (after : List QueueHandle)
    (w : World) :
    (retryEach p (before ++ q :: after)).run w =
      let first := (retryEach p before).run w
      let own := (q.retry p).result.run first.2
      let rest := (retryEach p after).run own.2
      (first.1 ++ own.1.toOption.getD .empty :: rest.1, rest.2) := by
  induction before generalizing w with
  | nil => exact retryEach_cons p q after w
  | cons q' before ih =>
    rw [List.cons_append, retryEach_cons, retryEach_cons]
    dsimp only
    rw [ih]
    rfl

open Admin in
/-- A request that is not answered with status 200, and an operation on queues that fails, leave every queue and the
telemetry record as they were; so does a retry that fails while all queues are retried, which is reported as empty. -/
theorem failures_harmless :
    (∀ (app : App) (r : Request) (w : World),
      ((app.respond r).run w).1.status ≠ 200 → w.Untouched ((app.respond r).run w).2) ∧
    (∀ (q : QueueHandle) (p : NumberPolicy), (q.retry p).Harmless) ∧
    (∀ request : PurgeRequest, request.purge.Harmless) ∧
    (∀ q : QueueHandle, q.purgeDlq.Harmless) ∧
    (∀ (r : Registry) (name : String), (r.purgeOf? name).Harmless) ∧
    (∀ (q : QueueHandle) (p : NumberPolicy) (limit : Int), (q.inspect p limit).Harmless) ∧
    ∀ (r : Registry) (p : NumberPolicy) (w : World) (before after : List QueueHandle) (q : QueueHandle),
      r.queues = before ++ q :: after →
        let first := (retryEach p before).run w
        let own := (q.retry p).result.run first.2
        let rest := (retryEach p after).run own.2
        (r.retryAll p).run w = (first.1 ++ own.1.toOption.getD .empty :: rest.1, rest.2) ∧
          (¬ Succeeded own.1 → first.2.Untouched own.2) := by
  refine ⟨fun app r w h => (app.respond_harmless r w).resolve_left h, fun q p => q.retry_harmless p,
    fun request => request.purge_harmless, fun q => q.purgeDlq_harmless,
    fun r name => Looks.harmless (r.purgeOf_looks name), fun q p limit => q.inspect_harmless p limit, ?_⟩
  intro r p w before after q hqueues
  refine ⟨?_, (q.retry_harmless p _).resolve_left⟩
  rw [Registry.retryAll, hqueues]
  exact retryEach_split p before q after w

/-- The attributes of queues cannot be read: the retry of a dead letter queue is answered with status 503, and retrying
all of them reports it as empty, with its message where it was. -/
theorem failures_harmless_unreadable :
    let q : QueueHandle := { id := "a", name := "a", client := 0, dlq := some ⟨"a-dlq", 0⟩ }
    let app : Admin.App := ⟨.development, ⟨none, true⟩, { queues := [q] }, .double⟩
    let request : Admin.Request := ⟨"PUT", "/queue-admin/retry-dlq/a-dlq", "", []⟩
    let queues : QueueStore := (QueueStore.seed (.create {} "a") "a-dlq" { body := "x" }).2
    let w : World := { provider := { queues := queues.failOperation .getQueueAttributes } }
    ((app.respond request).run w).1.status = 503 ∧ w.Untouched ((app.respond request).run w).2 ∧
      ((app.registry.retryAll .double).run w).1 = [.empty] ∧ w.Untouched ((q.retry .double).result.run w).2 := by
  intro q app request queues w
  have hstatus : ((app.respond request).run w).1.status = 503 := by decide +kernel
  have hnone : ((q.retry .double).result.run w).1.toOption = none :=
    Option.isNone_iff_eq_none.mp (by decide +kernel)
  have hfails : ¬ Succeeded ((q.retry .double).result.run w).1 := by
    rintro ⟨report, hreport⟩
    rw [hreport] at hnone
    cases hnone
  obtain ⟨hrespond, _, _, _, _, _, hall⟩ := failures_harmless
  obtain ⟨hrun, huntouched⟩ := hall app.registry .double w [] [] q rfl
  refine ⟨hstatus, hrespond app request w (by rw [hstatus]; decide), ?_, huntouched hfails⟩
  rw [hrun]
  show [((q.retry .double).result.run w).1.toOption.getD .empty] = [.empty]
  rw [hnone, Option.getD_none]

end DeadLetter

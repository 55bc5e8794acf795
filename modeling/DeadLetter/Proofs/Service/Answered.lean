import DeadLetter.Proofs.Service.Stages
import DeadLetter.Proofs.Store.Batches
import DeadLetter.Proofs.Store.Stamps
import DeadLetter.Service.Visibility

/-!
# What a queue does while nothing is made to fail

Where a handle finds its own URL and calls are answered, it reads the limit that it goes by
(`run_maxReceiveCount_of_run_url`), and hides a failed message that is in flight for the time that the policy picks under
that limit (`run_hideFailed_of_run_url`). `QueueHandle.Answered q w` : nothing is made to fail and what the handle looks
up is there, so that it does (`Answered.run_url`, `Answered.run_maxReceiveCount`, `Answered.run_hideFailed`). All of this
keeps the handle answered and its limit the same, and a limit that was read is known for good (`QueueHandle.Steady`).
-/

namespace DeadLetter

set_option autoImplicit false

open QueueStore

/-- The limit of deliveries that a queue goes by: none without a dead letter queue, else the one that it knows, else the
one of the redrive policy. -/
def QueueHandle.limitIn (q : QueueHandle) (w : World) : Option Nat :=
  if q.dlq.isNone then none
  else (w.known q.slot).maxReceiveCount.getD
    ((w.provider.queues.state (addressed q.name)).redrive.map (·.maxReceiveCount))

/-- Nothing is made to fail, and the queue that a handle looks up is there. The handle knows no URL but its own. -/
structure QueueHandle.Answered (q : QueueHandle) (w : World) : Prop where
  operations : w.provider.queues.failingOperations = []
  failing : w.provider.queues.failingQueues = []
  present : (w.provider.queues.queues.get? q.name).isSome
  url : ∀ u, (w.known q.slot).url = some u → u = urlOf q.name

/-- From `w` to `w'` a handle stays answered and goes by the same limit, and a limit that it knew stays known. -/
structure QueueHandle.Steady (q : QueueHandle) (w w' : World) : Prop where
  answered : q.Answered w → q.Answered w'
  limit : q.limitIn w' = q.limitIn w
  kept : ∀ count, (w.known q.slot).maxReceiveCount = some count → (w'.known q.slot).maxReceiveCount = some count

/-- From `w` to `w'` a handle only asked. -/
structure QueueHandle.Asks (q : QueueHandle) (w w' : World) : Prop extends q.Steady w w' where
  quiet : Quiet w.provider.queues w'.provider.queues
  changes : w'.provider.queues.visibilityChanges = w.provider.queues.visibilityChanges

namespace QueueHandle
variable {q : QueueHandle} {w w' w'' : World}

theorem Answered.fails (h : q.Answered w) (op : Operation) (queue : String) :
    w.provider.queues.fails op queue = false := not_fails h.operations h.failing op queue

theorem limitIn_of_known (hd : q.dlq.isNone = false) {count : Option Nat}
    (h : (w.known q.slot).maxReceiveCount = some count) : q.limitIn w = count := by
  rw [limitIn, hd, if_neg Bool.false_ne_true, h, Option.getD_some]

theorem limitIn_of_unknown (hd : q.dlq.isNone = false) (h : (w.known q.slot).maxReceiveCount = none) :
    q.limitIn w = (w.provider.queues.state (addressed q.name)).redrive.map (·.maxReceiveCount) := by
  rw [limitIn, hd, if_neg Bool.false_ne_true, h, Option.getD_none]

theorem Steady.refl (q : QueueHandle) (w : World) : q.Steady w w := ⟨fun h => h, rfl, fun _ h => h⟩

theorem Steady.trans (h : q.Steady w w') (h' : q.Steady w' w'') : q.Steady w w'' :=
  ⟨h'.answered ∘ h.answered, h'.limit.trans h.limit, fun count hc => h'.kept count (h.kept count hc)⟩

theorem Asks.refl (q : QueueHandle) (w : World) : q.Asks w w := ⟨.refl q w, Quiet.refl _, rfl⟩

theorem Asks.trans (h : q.Asks w w') (h' : q.Asks w' w'') : q.Asks w w'' :=
  ⟨h.toSteady.trans h'.toSteady, h.quiet.trans h'.quiet, h'.changes.trans h.changes⟩

/-- A change of queues that keeps what fails, which queues are there, and the redrive policy. -/
theorem steady_withQueues {t : QueueStore} (h : Kept w.provider.queues t)
    (hp : ∀ queue, (t.queues.get? queue).isSome = (w.provider.queues.queues.get? queue).isSome)
    (hr : (t.state (addressed q.name)).redrive = (w.provider.queues.state (addressed q.name)).redrive) :
    q.Steady w (w.withQueues t) where
  answered ha := ⟨h.operations.trans ha.operations, h.failing.trans ha.failing, (hp _).trans ha.present, ha.url⟩
  limit := by
    show (if q.dlq.isNone then none
      else (w.known q.slot).maxReceiveCount.getD ((t.state (addressed q.name)).redrive.map (·.maxReceiveCount))) = _
    rw [hr]
    rfl
  kept _ hc := hc

theorem steady_of_takes {t : QueueStore} {limit : Nat} {batch : List (String × Stored)}
    (h : Takes w.provider.queues t (addressed q.name) limit batch) : q.Steady w (w.withQueues t) := by
  refine steady_withQueues h.toKept (fun n => ?_) (by rw [h.self])
  by_cases hn : n = addressed q.name
  · rw [hn]
    exact h.present
  · rw [h.others n hn]

theorem asks_counted (q : QueueHandle) (w : World) (op : Operation) :
    q.Asks w (w.withQueues (w.provider.queues.counted op)) where
  toSteady := steady_withQueues (quiet_counted _ op).toKept (fun _ => rfl) rfl
  quiet := quiet_counted _ op
  changes := rfl

theorem known_learn (w : World) (slot : Nat) (f : Fact) :
    (w.perform (.learn slot f)).2.known slot = (w.known slot).learn f := if_pos rfl

theorem asks_learn_url (q : QueueHandle) (w : World) :
    q.Asks w (w.perform (.learn q.slot (.url (urlOf q.name)))).2 where
  answered ha := by
    refine ⟨ha.operations, ha.failing, ha.present, fun u hu => ?_⟩
    rw [known_learn, Known.learn] at hu
    cases hk : (w.known q.slot).url with
    | none =>
      rw [hk] at hu
      exact (Option.some.inj hu).symm
    | some u' =>
      rw [hk] at hu
      exact Option.some.inj hu ▸ ha.url u' hk
  limit := by
    rw [limitIn, known_learn]
    rfl
  kept count hc := by
    rw [known_learn]
    exact hc
  quiet := Quiet.refl _
  changes := rfl

/-- A handle that learns the limit that it goes by knows it then. -/
theorem known_learn_limit (hd : q.dlq.isNone = false) (w : World) :
    ((w.perform (.learn q.slot (.maxReceiveCount (q.limitIn w)))).2.known q.slot).maxReceiveCount =
      some (q.limitIn w) := by
  rw [known_learn, Known.learn]
  cases hc : (w.known q.slot).maxReceiveCount with
  | none => rfl
  | some count =>
    rw [limitIn_of_known hd hc]
    rfl

theorem asks_learn_limit (q : QueueHandle) (w : World) :
    q.Asks w (w.perform (.learn q.slot (.maxReceiveCount (q.limitIn w)))).2 where
  answered ha := by
    refine ⟨ha.operations, ha.failing, ha.present, fun u hu => ha.url u ?_⟩
    rw [known_learn] at hu
    exact hu
  limit := by
    cases hd : q.dlq.isNone with
    | true => rw [limitIn, limitIn, hd, if_pos rfl, if_pos rfl]
    | false => exact limitIn_of_known hd (known_learn_limit hd w)
  kept count hc := by
    rw [known_learn, Known.learn, hc]
    rfl
  quiet := Quiet.refl _
  changes := rfl

/-! ## Runs -/

/-- What a look-up of its URL finds, a handle knows from then on. -/
theorem run_url_of_urlFor (h : w.urlFor? (w.known q.slot).url q.name = some (urlOf q.name)) :
    ∃ w', q.url.result.run w = (.ok (urlOf q.name), w') ∧ q.Asks w w' ∧
      (w'.known q.slot).url = some (urlOf q.name) := by
  rw [url_eq]
  unfold World.urlFor? at h
  rcases lookUp_cases q.slot (·.url) .url q.name w with ⟨u, hu, hrun⟩ | ⟨hu, u, hreply, hrun⟩ | ⟨hu, e, hreply, _⟩
  · rw [hu] at h
    cases h
    exact ⟨w, hrun, .refl q w, hu⟩
  · rw [hu, hreply] at h
    cases h
    have hasked : (w.perform (.call (.queueUrl q.name))).2 = w.withQueues (w.provider.queues.counted .getQueueUrl) := by
      show w.withQueues (w.provider.queues.queueUrl q.name).2 = _
      rw [queueUrl_eq]
    rw [hasked] at hrun
    refine ⟨_, hrun, (asks_counted q w _).trans (asks_learn_url q _), ?_⟩
    rw [known_learn, Known.learn]
    dsimp only
    rw [show ((w.withQueues (w.provider.queues.counted .getQueueUrl)).known q.slot).url = none from hu]
    rfl
  · rw [hu, hreply] at h
    cases h

theorem Answered.run_url (h : q.Answered w) : ∃ w', q.url.result.run w = (.ok (urlOf q.name), w') ∧ q.Asks w w' := by
  have hurl : w.urlFor? (w.known q.slot).url q.name = some (urlOf q.name) := by
    unfold World.urlFor?
    cases hu : (w.known q.slot).url with
    | some u => exact congrArg some (h.url u hu)
    | none =>
      rw [queueUrl_eq, h.fails, if_neg Bool.false_ne_true, if_pos h.present]
      rfl
  obtain ⟨w', hrun, hasks, _⟩ := run_url_of_urlFor hurl
  exact ⟨w', hrun, hasks⟩

section Found
variable {v u : World} {state : QueueState}

/-- A handle that finds its URL reads the limit that it goes by, and knows it from then on. -/
theorem run_maxReceiveCount_of_run_url (hfails : ∀ op queue, v.provider.queues.fails op queue = false)
    (hurl : q.url.result.run w = (.ok (urlOf q.name), v)) (hasks : q.Asks w v)
    (hq : w.provider.queues.queues.get? (addressed q.name) = some state) :
    ∃ w', q.maxReceiveCount.result.run w = (.ok (q.limitIn w), w') ∧ q.Asks w w' ∧
      (q.dlq.isSome → (w'.known q.slot).maxReceiveCount = some (q.limitIn w)) := by
  unfold maxReceiveCount
  cases hd : q.dlq.isNone with
  | true =>
    refine ⟨w, ?_, .refl q w, fun hsome => ?_⟩
    · rw [limitIn, hd, if_pos rfl]
      rfl
    · rw [Option.isNone_iff_eq_none.mp hd] at hsome
      cases hsome
  | false =>
    rw [if_neg Bool.false_ne_true]
    dsimp only
    rw [Attempt.run_bind, Attempt.run_facts]
    dsimp only
    cases hc : (w.known q.slot).maxReceiveCount with
    | some count =>
      rw [limitIn_of_known hd hc]
      exact ⟨w, rfl, .refl q w, fun _ => hc⟩
    | none =>
      have hcall : (Attempt.call (.queueAttributes (urlOf q.name))).result.run v =
          (.ok (attributesOf (addressed q.name) state),
            v.withQueues (v.provider.queues.counted .getQueueAttributes)) := by
        rw [Attempt.run_queues (c := .queueAttributes (urlOf q.name)) (f := (·.queueAttributes (urlOf q.name))) v
          fun _ => rfl, queueAttributes_eq, hfails, if_neg Bool.false_ne_true, hasks.quiet.queues]
        rw [← addressed, hq]
      have hlimit : (attributesOf (addressed q.name) state).redrive.map (·.maxReceiveCount) = q.limitIn w := by
        rw [limitIn_of_unknown hd hc, state_of_get? hq]
        rfl
      have hasked := hasks.trans (asks_counted q v .getQueueAttributes)
      rw [Attempt.run_bind, hurl]
      dsimp only
      rw [Attempt.run_bind, hcall]
      dsimp only
      rw [hlimit, ← hasked.limit]
      exact ⟨_, rfl, hasked.trans (asks_learn_limit q _), fun _ => known_learn_limit hd _⟩

/-- A handle that reads its limit and then finds its URL hides a message in flight for the time that the policy picks,
and that is recorded. -/
theorem run_hideFailed_of_run_url (hread : q.maxReceiveCount.result.run w = (.ok (q.limitIn w), v)) (hasks : q.Asks w v)
    (hurl : q.url.result.run v = (.ok (urlOf q.name), u)) (hasks' : q.Asks v u)
    (hfails : ∀ op queue, u.provider.queues.fails op queue = false) (b : BackoffPolicy)
    (hq : w.provider.queues.queues.get? (addressed q.name) = some state) {m : Received} {x : Stored}
    (hx : state.inFlight.lookup m.handle = some x) :
    let time := b.timeoutOf q m (q.limitIn w)
    ∃ t, (Attempt.call (.changeVisibility (urlOf q.name) m.handle time)).result.run u = (.ok (), u.withQueues t) ∧
      (q.hideFailed b m).run w = (time, u.withQueues t) ∧ q.Steady w (u.withQueues t) ∧
      Puts w.provider.queues t (addressed q.name) (if time = 0 then released state m.handle x else state) ∧
      t.visibilityChanges = w.provider.queues.visibilityChanges ++ [⟨addressed q.name, m.handle, time⟩] := by
  intro time
  have hasked := hasks.trans hasks'
  obtain ⟨t, hchange, hput, hrecord⟩ := changeVisibility_of_lookup (hfails _ _) (hasked.quiet.queues ▸ hq) hx time
  have hcall : (Attempt.call (.changeVisibility (urlOf q.name) m.handle time)).result.run u =
      (.ok (), u.withQueues t) := by
    rw [Attempt.run_queues (c := .changeVisibility (urlOf q.name) m.handle time)
      (f := (·.changeVisibility (urlOf q.name) m.handle time)) u fun _ => rfl, hchange]
  have hrun : (q.hideFailed b m).run w = (time, u.withQueues t) := by
    rw [hideFailed, Routine.run_bind, hread]
    dsimp only
    rw [Routine.run_bind, hurl]
    dsimp only
    rw [Routine.run_bind]
    show (time, ((Attempt.call (.changeVisibility (urlOf q.name) m.handle time)).result.run u).2) = _
    rw [hcall]
  have hsteady : q.Steady u (u.withQueues t) := by
    refine steady_withQueues hput.toKept (fun n => hput.isSome_get? (hasked.quiet.queues ▸ hq) n) ?_
    have hself : t.state (addressed q.name) = _ := hput.state_self
    rw [hself, hasked.quiet.state, state_of_get? hq]
    split <;> rfl
  refine ⟨t, hcall, hrun, hasked.toSteady.trans hsteady, hasked.quiet.puts hput, ?_⟩
  rw [← hasked.changes]
  exact hrecord

end Found

theorem Answered.run_maxReceiveCount (h : q.Answered w) {state : QueueState}
    (hq : w.provider.queues.queues.get? (addressed q.name) = some state) :
    ∃ w', q.maxReceiveCount.result.run w = (.ok (q.limitIn w), w') ∧ q.Asks w w' ∧
      (q.dlq.isSome → (w'.known q.slot).maxReceiveCount = some (q.limitIn w)) := by
  obtain ⟨v, hurl, hasks⟩ := h.run_url
  exact run_maxReceiveCount_of_run_url (hasks.answered h).fails hurl hasks hq

theorem Answered.run_hideFailed (h : q.Answered w) (b : BackoffPolicy) {state : QueueState}
    (hq : w.provider.queues.queues.get? (addressed q.name) = some state) {m : Received} {x : Stored}
    (hx : state.inFlight.lookup m.handle = some x) :
    let time := b.timeoutOf q m (q.limitIn w)
    ∃ w', (q.hideFailed b m).run w = (time, w') ∧ q.Steady w w' ∧
      (q.dlq.isSome → (w'.known q.slot).maxReceiveCount = some (q.limitIn w)) ∧
      Puts w.provider.queues w'.provider.queues (addressed q.name)
        (if time = 0 then released state m.handle x else state) ∧
      w'.provider.queues.visibilityChanges =
        w.provider.queues.visibilityChanges ++ [⟨addressed q.name, m.handle, time⟩] := by
  obtain ⟨v, hread, hasks, hknown⟩ := h.run_maxReceiveCount hq
  obtain ⟨u, hurl, hasks'⟩ := (hasks.answered h).run_url
  have hfails := (hasks'.answered (hasks.answered h)).fails
  obtain ⟨t, _, hrun, hsteady, hput, hrecord⟩ := run_hideFailed_of_run_url hread hasks hurl hasks' hfails b hq hx
  exact ⟨_, hrun, hsteady, fun hd => hasks'.kept _ (hknown hd), hput, hrecord⟩

end QueueHandle

end DeadLetter

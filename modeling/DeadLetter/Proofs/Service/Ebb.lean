import DeadLetter.Proofs.Routine.Journal
import DeadLetter.Proofs.World

/-!
# Retries while nothing can be sent

While sends fail, a retry only takes visible messages away (`World.Ebb`, `QueueHandle.retry_ebb`, `retryEach_ebb`).
If nothing else fails and one message waits on its dead letter queue, it takes that one: `QueueHandle.retry_empties`.
-/

namespace DeadLetter

set_option autoImplicit false

open QueueStore

namespace World
variable {w w' w'' : World}

/-- From `w` to `w'` no queue gets a visible message, and calls fail as before. -/
structure Ebb (w w' : World) : Prop where
  kept : Kept w.provider.queues w'.provider.queues
  present : ∀ n, (w'.provider.queues.queues.get? n).isSome = (w.provider.queues.queues.get? n).isSome
  reportedCount : ∀ n, (w'.provider.queues.state n).reportedCount = (w.provider.queues.state n).reportedCount
  visible : ∀ n, (w'.provider.queues.state n).visible <:+ (w.provider.queues.state n).visible
  late : w'.late = w.late

theorem Ebb.trans (h : Ebb w w') (h' : Ebb w' w'') : Ebb w w'' where
  kept := h.kept.trans h'.kept
  present n := (h'.present n).trans (h.present n)
  reportedCount n := (h'.reportedCount n).trans (h.reportedCount n)
  visible n := (h'.visible n).trans (h.visible n)
  late := h'.late.trans h.late

theorem ebb_of_quiet (hq : Quiet w.provider.queues w'.provider.queues) (hlate : w'.late = w.late) : Ebb w w' where
  kept := hq.toKept
  present n := by rw [hq.queues]
  reportedCount n := by rw [hq.state]
  visible n := by simp only [hq.state, List.suffix_rfl]
  late := hlate

theorem Ebb.refl (w : World) : Ebb w w := ebb_of_quiet (Quiet.refl _) rfl

theorem ebb_of_puts {queue : String} {q q' : QueueState} (hq : w.provider.queues.queues.get? queue = some q)
    (hput : Puts w.provider.queues w'.provider.queues queue q') (hcount : q'.reportedCount = q.reportedCount)
    (hvisible : q'.visible <:+ q.visible) (hlate : w'.late = w.late) : Ebb w w' := by
  have hstate := state_of_get? hq
  refine ⟨hput.toKept, hput.isSome_get? hq, fun n => ?_, fun n => ?_, hlate⟩
  · rw [state_put hput.queues]
    split
    · next hn => rw [hn, hstate, hcount]
    · rfl
  · rw [state_put hput.queues]
    split
    · next hn =>
      rw [hn, hstate]
      exact hvisible
    · exact List.suffix_rfl

theorem late_perform (w : World) (a : Action) : (w.perform a).2.late = w.late := by
  cases a <;> rfl

end World

theorem Transfer.Step.ebb {L : Lore} {slot : Nat} {s st : Transfer} {a : Action} {r : a.Reply} {w w' : World}
    (hfails : .sendMessage ∈ w.provider.queues.failingOperations) (hw : w.perform a = (r, w'))
    (h : Step L slot s a r st) : World.Ebb w w' := by
  have hlate : w'.late = w.late := by
    have := w.late_perform a
    rwa [hw] at this
  cases h with
  | quiet ha => exact World.ebb_of_quiet (World.quiet_of_isQuiet ha hw) hlate
  | receiveNothing hurl hr => exact World.ebb_of_quiet (World.quiet_of_receive hr hw) hlate
  | receive hurl =>
    obtain ⟨q, x, rest, hq, hv, _, _, hput⟩ := puts_of_receive_cons (World.receive_of_perform hw)
    exact World.ebb_of_puts hq hput rfl (hv ▸ List.suffix_cons x rest) hlate
  | @send url dest i moved m copy hdest hm =>
    have hsend := World.send_of_perform hw
    rw [send_of_failing hfails] at hsend
    cases hsend
  | sendFails hdest hm => exact World.ebb_of_quiet (quiet_of_send_error (World.send_of_perform hw)) hlate
  | delete =>
    obtain ⟨q, m, hq, _, hput⟩ := puts_of_delete_ok (World.delete_of_perform hw)
    exact World.ebb_of_puts hq hput rfl List.suffix_rfl hlate
  | deleteFails => exact World.ebb_of_quiet (quiet_of_delete_error (World.delete_of_perform hw)) hlate

section Retry
variable {r : Registry} {q : QueueHandle} {w : World} {p : NumberPolicy}

theorem QueueHandle.retry_ebb (hr : r.Placed) (hq : q ∈ r.queues) (hw : w.Reachable r)
    (hfails : .sendMessage ∈ w.provider.queues.failingOperations) : World.Ebb w ((q.retry p).result.run w).2 := by
  have hstep (s : Transfer) (w' : World) (a : Action) (st : Transfer) (hebb : World.Ebb w w')
      (h : Transfer.Step (r.lore False) q.slot s a (w'.perform a).1 st) : World.Ebb w (w'.perform a).2 := by
    have hfails' : .sendMessage ∈ w'.provider.queues.failingOperations := hebb.kept.operations ▸ hfails
    exact hebb.trans (h.ebb hfails' rfl)
  obtain ⟨_, _, hebb⟩ := retry_keeps (p := p) (I := fun _ => World.Ebb w) hr hq hstep hw (.refl w)
  exact hebb

theorem retryEach_ebb (hr : r.Placed) {qs : List QueueHandle} (hqs : ∀ q ∈ qs, q ∈ r.queues) (hw : w.Reachable r)
    (hfails : .sendMessage ∈ w.provider.queues.failingOperations) : World.Ebb w ((retryEach p qs).run w).2 := by
  induction qs generalizing w with
  | nil => exact .refl w
  | cons q qs ih =>
    obtain ⟨hq, hqs⟩ := List.forall_mem_cons.mp hqs
    have hfirst := QueueHandle.retry_ebb (p := p) hr hq hw hfails
    rw [retryEach_cons]
    exact hfirst.trans (ih hqs (QueueHandle.retry_reachable hr hq hw) (hfirst.kept.operations ▸ hfails))

end Retry

/-! ## A message that is taken and not moved -/

/-- Only sends fail, the deadline never passes, a queue and its dead letter queue can be looked up, and nothing but `x`
is visible where the name of the dead letter queue leads. -/
structure World.Stalled (w : World) (q : QueueHandle) (d : DlqHandle) (x : Stored) : Prop where
  operations : w.provider.queues.failingOperations = [.sendMessage]
  failing : w.provider.queues.failingQueues = []
  main : (w.provider.queues.queues.get? q.name).isSome
  dlq : (w.provider.queues.queues.get? d.name).isSome
  present : (w.provider.queues.queues.get? (addressed d.name)).isSome
  reportedCount : (w.provider.queues.state (addressed d.name)).reportedCount = none
  visible : (w.provider.queues.state (addressed d.name)).visible <:+ [x]
  late : ∀ i, w.late i = false

section Stalled
variable {q : QueueHandle} {d : DlqHandle} {x : Stored} {w w' : World}

theorem World.Stalled.ebb (h : w.Stalled q d x) (hw : w.Ebb w') : w'.Stalled q d x where
  operations := hw.kept.operations.trans h.operations
  failing := hw.kept.failing.trans h.failing
  main := (hw.present _).trans h.main
  dlq := (hw.present _).trans h.dlq
  present := (hw.present _).trans h.present
  reportedCount := (hw.reportedCount _).trans h.reportedCount
  visible := (hw.visible _).trans h.visible
  late i := by rw [hw.late, h.late]

theorem World.Stalled.fails (h : w.Stalled q d x) {op : Operation} (hop : op ≠ .sendMessage) (queue : String) :
    w.provider.queues.fails op queue = false := by
  simp [QueueStore.fails, h.operations, h.failing, hop]

theorem queueUrl_run {name : String} (hf : w.provider.queues.fails .getQueueUrl name = false)
    (hp : (w.provider.queues.queues.get? name).isSome) :
    ∃ w', (Attempt.call (.queueUrl name)).result.run w = (.ok (urlOf name), w') ∧ w'.known = w.known ∧
      Quiet w.provider.queues w'.provider.queues ∧ w'.late = w.late := by
  refine ⟨(w.perform (.call (.queueUrl name))).2, ?_, rfl, ?_, rfl⟩
  · show ((w.provider.queues.queueUrl name).1, _) = _
    rw [queueUrl_eq, hf, hp]
    rfl
  · exact quiet_queueUrl w.provider.queues name

end Stalled

section Empties
variable {r : Registry} {q : QueueHandle} {d : DlqHandle} {x : Stored} {w : World}

theorem learn_run {L : Lore} (slot : Nat) (f : Fact) (hknown : L.Known w) (hf : L.fact slot f) :
    ∃ w', (Attempt.learn slot f).result.run w = (.ok (), w') ∧ L.Known w' ∧
      w'.provider = w.provider ∧ w'.late = w.late := by
  refine ⟨(w.perform (.learn slot f)).2, rfl, hknown.perform fun i g hi => ?_, rfl, rfl⟩
  cases hi
  exact hf

theorem QueueHandle.lookUp_run {L : Lore} {slot : Nat} (kept : Known → Option String) (fact : String → Fact)
    {name : String} (hknown : L.Known w) (hkept : ∀ k u, L.Agrees slot k → kept k = some u → L.fact slot (fact u))
    (hfound : L.fact slot (fact (urlOf name))) (hf : w.provider.queues.fails .getQueueUrl name = false)
    (hp : (w.provider.queues.queues.get? name).isSome) :
    ∃ u w', (lookUp slot kept fact name).result.run w = (.ok u, w') ∧ L.fact slot (fact u) ∧ L.Known w' ∧
      Quiet w.provider.queues w'.provider.queues ∧ w'.late = w.late := by
  unfold lookUp
  rw [Attempt.run_bind, show (Attempt.facts slot).result.run w = (.ok (w.known slot), w) from rfl]
  dsimp only
  cases hu : kept (w.known slot) with
  | some u => exact ⟨u, w, rfl, hkept _ u (hknown slot) hu, hknown, Quiet.refl _, rfl⟩
  | none =>
    obtain ⟨w₁, hrun, hsame, hquiet, hlate⟩ := queueUrl_run hf hp
    obtain ⟨w₂, hlearn, hknown₂, hprovider, hlate'⟩ := learn_run (w := w₁) slot (fact (urlOf name))
      (fun i => hsame ▸ hknown i) hfound
    refine ⟨urlOf name, w₂, ?_, hfound, hknown₂, hprovider ▸ hquiet, hlate'.trans hlate⟩
    dsimp only
    rw [Attempt.run_bind, hrun]
    dsimp only
    rw [Attempt.run_bind, hlearn]
    rfl

theorem QueueHandle.url_run (hr : r.Placed) (hq : q ∈ r.queues) (hknown : (r.lore False).Known w)
    (h : w.Stalled q d x) :
    ∃ u w', q.url.result.run w = (.ok u, w') ∧ Quiet w.provider.queues w'.provider.queues ∧ w'.late = w.late := by
  have hcovers := Registry.lore_covers hr hq False
  obtain ⟨u, w', hrun, _, _, hquiet, hlate⟩ := lookUp_run (·.url) .url hknown
    (fun _ u hk => hk.url u) (hcovers.url _ rfl) (h.fails (by decide) q.name) h.main
  exact ⟨u, w', q.url_eq ▸ hrun, hquiet, hlate⟩

theorem QueueHandle.urlOfDlq_run (hr : r.Placed) (hq : q ∈ r.queues) (hd : q.dlq = some d)
    (hknown : (r.lore False).Known w) (h : w.Stalled q d x) :
    ∃ u w', (q.urlOfDlq d.name).result.run w = (.ok u, w') ∧ queueNameOfUrl u = addressed d.name ∧
      (r.lore False).Known w' ∧ Quiet w.provider.queues w'.provider.queues ∧ w'.late = w.late := by
  have hcovers := Registry.lore_covers hr hq False
  obtain ⟨u, w', hrun, hfact, hknown', hquiet, hlate⟩ := lookUp_run (·.dlqUrl) .dlqUrl hknown
    (fun _ u hk => hk.dlqUrl u) (hcovers.dlqUrl d _ hd rfl) (h.fails (by decide) d.name) h.dlq
  exact ⟨u, w', q.urlOfDlq_eq d.name ▸ hrun, Registry.addressed_of_dlqUrl hq hd hfact, hknown', hquiet, hlate⟩

theorem QueueHandle.copyOf_run (q : QueueHandle) (m : Received) (w : World) :
    ∃ copy w', (q.copyOf m).result.run w = (.ok copy, w') ∧ w'.provider = w.provider := by
  unfold copyOf
  split
  · exact ⟨_, _, rfl, rfl⟩
  · exact ⟨_, _, rfl, rfl⟩

theorem receive_run {url D : String} (hD : queueNameOfUrl url = D)
    (hf : w.provider.queues.fails .receiveMessage D = false) (hpresent : (w.provider.queues.queues.get? D).isSome)
    (hvisible : (w.provider.queues.state D).visible = [x]) :
    ∃ m w', (Attempt.call (.receive url 1 0)).result.run w = (.ok [m], w') ∧
      Kept w.provider.queues w'.provider.queues ∧ (w'.provider.queues.state D).visible = [] := by
  have hcases := receiveOne_cases w.provider.queues url
  rw [hD] at hcases
  rcases hcases with ⟨hf', _⟩ | ⟨_, s, hs, hcases⟩
  · rw [hf, ← Option.not_isSome_iff_eq_none, hpresent] at hf'
    simp at hf'
  rw [state_of_get? hs] at hvisible
  rcases hcases with ⟨hnil, _⟩ | ⟨m, rest, t, hcons, heq, _, hput⟩
  · rw [hnil] at hvisible
    cases hvisible
  rw [hcons] at hvisible
  cases hvisible
  refine ⟨x.delivered.deliver (w.provider.queues.nextHandle D x),
    { w with provider := { w.provider with queues := t } }, ?_, hput.toKept, ?_⟩
  · show w.perform (.call (.receive url 1 0)) = _
    simp only [World.perform, Memory.perform, Memory.onQueues, heq]
  · show (t.state D).visible = []
    rw [hput.state_self]
    rfl

theorem QueueHandle.moveOne_run {dlqUrl D : String} (url : String) (hD : queueNameOfUrl dlqUrl = D)
    (hsend : .sendMessage ∈ w.provider.queues.failingOperations)
    (hreceive : w.provider.queues.fails .receiveMessage D = false)
    (hpresent : (w.provider.queues.queues.get? D).isSome) (hvisible : (w.provider.queues.state D).visible = [x]) :
    ∃ e w', (q.moveOne dlqUrl url).result.run w = (.error e, w') ∧ (w'.provider.queues.state D).visible = [] := by
  obtain ⟨m, w₁, htake, hkept, hnil⟩ := receive_run hD hreceive hpresent hvisible
  obtain ⟨copy, w₂, hcopy, hprovider⟩ := q.copyOf_run m w₁
  have hfails : .sendMessage ∈ w₂.provider.queues.failingOperations := by
    rw [hprovider]
    exact hkept.operations ▸ hsend
  refine ⟨injected .sendMessage, (w₂.perform (.call (.send url copy))).2, ?_, ?_⟩
  · have hsent : (Attempt.call (.send url copy)).result.run w₂ = w₂.perform (.call (.send url copy)) := rfl
    unfold moveOne
    rw [Attempt.run_bind, htake]
    dsimp only
    rw [Attempt.run_bind, hcopy]
    dsimp only
    rw [Attempt.run_bind, hsent]
    simp only [World.perform, Memory.perform, Memory.onQueues, send_of_failing hfails]
  · show ((w₂.provider.queues.send url copy).2.state D).visible = []
    rw [send_of_failing hfails, (quiet_counted _ _).state, hprovider, hnil]

theorem queueAttributes_run {url D : String} (hD : queueNameOfUrl url = D)
    (hf : w.provider.queues.fails .getQueueAttributes D = false)
    (hpresent : (w.provider.queues.queues.get? D).isSome) :
    ∃ w', (Attempt.call (.queueAttributes url)).result.run w =
        (.ok (attributesOf D (w.provider.queues.state D)), w') ∧ w'.known = w.known ∧
      Quiet w.provider.queues w'.provider.queues ∧ w'.late = w.late := by
  refine ⟨(w.perform (.call (.queueAttributes url))).2, ?_, rfl, ?_, rfl⟩
  · show ((w.provider.queues.queueAttributes url).1, _) = _
    obtain ⟨s, hs⟩ := Option.isSome_iff_exists.mp hpresent
    rw [queueAttributes_eq, hD, hf, hs, state_of_get? hs]
    rfl
  · exact quiet_queueAttributes w.provider.queues url

/-- A single attempt of a drain takes the only visible message, while sends fail. -/
theorem QueueHandle.drain_run {dlqUrl : String} (url : String) (hD : queueNameOfUrl dlqUrl = addressed d.name)
    (h : w.Stalled q d x) (hvisible : (w.provider.queues.state (addressed d.name)).visible = [x]) :
    ∃ w', (q.drain dlqUrl url 1).run w = ([], w') ∧
      (w'.provider.queues.state (addressed d.name)).visible = [] := by
  have hfails : .sendMessage ∈ w.provider.queues.failingOperations := by
    rw [h.operations]
    exact List.mem_singleton_self _
  obtain ⟨e, w', hrun, hnil⟩ := q.moveOne_run (w := { w with looks := w.looks + 1 }) url hD hfails
    (h.fails (by decide) _) h.present hvisible
  refine ⟨w', ?_, hnil⟩
  unfold drain
  have hlook : (Routine.perform .isLate).run w = (w.late w.looks, { w with looks := w.looks + 1 }) := rfl
  rw [Routine.run_bind, hlook, h.late]
  dsimp only
  rw [if_neg Bool.false_ne_true, Routine.run_bind, hrun]
  rfl

/-- A retry takes the only visible message of its dead letter queue, if there is one, while sends fail. -/
theorem QueueHandle.retry_empties (hr : r.Placed) (hq : q ∈ r.queues) (hd : q.dlq = some d)
    (hw : w.Reachable r) (h : w.Stalled q d x) (p : NumberPolicy) :
    (((q.retry p).result.run w).2.provider.queues.state (addressed d.name)).visible = [] := by
  rcases List.suffix_cons_iff.mp h.visible with hx | hnil
  · obtain ⟨dlqUrl, w₁, hrun₁, hD, hknown₁, hquiet₁, hlate₁⟩ := urlOfDlq_run hr hq hd (hw.known False) h
    have h₁ := h.ebb (World.ebb_of_quiet hquiet₁ hlate₁)
    obtain ⟨w₂, hrun₂, hsame, hquiet₂, hlate₂⟩ := queueAttributes_run hD (h₁.fails (by decide) _) h₁.present
    have h₂ := h₁.ebb (World.ebb_of_quiet hquiet₂ hlate₂)
    obtain ⟨url, w₃, hrun₃, hquiet₃, hlate₃⟩ := url_run hr hq (fun i => hsame ▸ hknown₁ i) h₂
    have h₃ := h₂.ebb (World.ebb_of_quiet hquiet₃ hlate₃)
    have hx₁ : (w₁.provider.queues.state (addressed d.name)).visible = [x] := by rw [hquiet₁.state, hx]
    have hx₃ : (w₃.provider.queues.state (addressed d.name)).visible = [x] := by rw [hquiet₃.state, hquiet₂.state, hx₁]
    obtain ⟨w₄, hrun₄, hnil⟩ := drain_run url hD h₃ hx₃
    -- the one message found allows one attempt
    have hfound : (attributesOf (addressed d.name) (w₁.provider.queues.state (addressed d.name))).messages = 1 := by
      rw [attributesOf, h₁.reportedCount, hx₁]
      rfl
    unfold retry
    rw [hd]
    dsimp only
    rw [Attempt.run_bind, hrun₁]
    dsimp only
    rw [Attempt.run_bind, hrun₂]
    dsimp only
    rw [hfound, if_neg (by decide), Attempt.run_bind, hrun₃]
    dsimp only
    rw [Attempt.run_bind, Attempt.result_lift, Routine.run_bind, show (1 : Int).toNat = 1 from rfl, hrun₄]
    exact hnil
  · have hfails : .sendMessage ∈ w.provider.queues.failingOperations := by
      rw [h.operations]
      exact List.mem_singleton_self _
    have hebb := (retry_ebb (p := p) hr hq hw hfails).visible (addressed d.name)
    exact List.suffix_nil.mp (hebb.trans hnil)

/-- While sends fail, a sweep takes the only message that is visible where a dead letter queue's name leads. -/
theorem retryEach_empties (hr : r.Placed) {qs : List QueueHandle} (hqs : ∀ q' ∈ qs, q' ∈ r.queues) (hq : q ∈ qs)
    (hd : q.dlq = some d) (hw : w.Reachable r) (h : w.Stalled q d x) (p : NumberPolicy) :
    (((retryEach p qs).run w).2.provider.queues.state (addressed d.name)).visible = [] := by
  induction qs generalizing w with
  | nil => cases hq
  | cons q' qs ih =>
    obtain ⟨hq', hrest⟩ := List.forall_mem_cons.mp hqs
    have hfails : .sendMessage ∈ w.provider.queues.failingOperations := by
      rw [h.operations]
      exact List.mem_singleton_self _
    have hebb := QueueHandle.retry_ebb (p := p) hr hq' hw hfails
    have hw' := QueueHandle.retry_reachable (p := p) hr hq' hw
    rw [retryEach_cons]
    rcases List.mem_cons.mp hq with rfl | hq
    · -- emptied by its own retry, and not filled by the others
      have hfails' := hebb.kept.operations ▸ hfails
      have hafter := (retryEach_ebb (p := p) hr hrest hw' hfails').visible (addressed d.name)
      rw [QueueHandle.retry_empties hr hq' hd hw h p] at hafter
      exact List.suffix_nil.mp hafter
    · exact ih hrest hq hw' (h.ebb hebb)

end Empties

end DeadLetter

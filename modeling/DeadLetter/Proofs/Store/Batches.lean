import DeadLetter.Proofs.Store.Calls
import DeadLetter.Provider.Routine

/-!
# Batches

A receive takes messages from the front of a queue, each under a handle of its own. `Takes s t queue limit batch` : from
`s` to `t` the first `limit` messages of the queue went in flight as `batch`, and nothing else changed. `receive_cases`
: a receive fails, or takes a batch; which of the two depends only on the failures and on whether the queue is there,
and taking a batch changes neither.
-/

namespace DeadLetter

set_option autoImplicit false

namespace QueueStore
variable {s t u : QueueStore} {queue : String} {limit : Nat} {batch : List (String × Stored)}

/-- The messages that a batch hands out. -/
def handedOut (batch : List (String × Stored)) : List Received := batch.map fun e => e.2.deliver e.1

theorem length_handedOut (batch : List (String × Stored)) : (handedOut batch).length = batch.length := List.length_map _

/-- From `s` to `t` the first messages of a queue went in flight. -/
structure Takes (s t : QueueStore) (queue : String) (limit : Nat) (batch : List (String × Stored)) : Prop
    extends Kept s t where
  changes : t.visibilityChanges = s.visibilityChanges
  others : ∀ n, n ≠ queue → t.queues.get? n = s.queues.get? n
  present : (t.queues.get? queue).isSome = (s.queues.get? queue).isSome
  self : t.state queue = { s.state queue with
    visible := (s.state queue).visible.drop limit
    inFlight := (s.state queue).inFlight ++ batch }
  front : batch.map (·.2) = ((s.state queue).visible.take limit).map Stored.delivered

theorem Quiet.takes (h : Quiet s t) (hc : t.visibilityChanges = s.visibilityChanges)
    (hv : (s.state queue).visible.take limit = []) : Takes s t queue limit [] where
  toKept := h.toKept
  changes := hc
  others n _ := by rw [h.queues]
  present := by rw [h.queues]
  self := by
    have hdrop : (s.state queue).visible.drop limit = (s.state queue).visible := by
      rcases List.take_eq_nil_iff.mp hv with hl | hn
      · rw [hl, List.drop_zero]
      · rw [hn, List.drop_nil]
    rw [h.state, hdrop, List.append_nil]
  front := by rw [hv]; rfl

theorem Quiet.takes_trans (h : Quiet s t) (hc : t.visibilityChanges = s.visibilityChanges)
    (h' : Takes t u queue limit batch) : Takes s u queue limit batch where
  toKept := h.toKept.trans h'.toKept
  changes := h'.changes.trans hc
  others n hn := by rw [h'.others n hn, h.queues]
  present := by rw [h'.present, h.queues]
  self := by rw [h'.self, h.state]
  front := by rw [h'.front, h.state]

/-- Taking one message and then a batch is taking a batch. -/
theorem Takes.cons {q : QueueState} {m : Stored} {rest : List Stored} {handle : String}
    (hq : s.queues.get? queue = some q) (hv : q.visible = m :: rest)
    (hp : Puts s t queue (taken q rest handle m)) (hc : t.visibilityChanges = s.visibilityChanges)
    (h : Takes t u queue limit batch) : Takes s u queue (limit + 1) ((handle, m.delivered) :: batch) where
  toKept := hp.toKept.trans h.toKept
  changes := h.changes.trans hc
  others n hn := (h.others n hn).trans (hp.get?_of_ne hn)
  present := by rw [h.present, hp.get?_self, hq, Option.isSome_some, Option.isSome_some]
  self := by
    rw [h.self, hp.state_self, state_of_get? hq, hv, List.drop_succ_cons, QueueStore.taken, List.append_assoc,
      List.singleton_append]
  front := by
    rw [List.map_cons, h.front, hp.state_self, state_of_get? hq, hv, List.take_succ_cons, List.map_cons]
    rfl

theorem takes_refl (s : QueueStore) (queue : String) : Takes s s queue 0 [] := (Quiet.refl s).takes rfl List.take_zero

theorem Takes.trans {limit' : Nat} {batch' : List (String × Stored)} (h : Takes s t queue limit batch)
    (h' : Takes t u queue limit' batch') : Takes s u queue (limit + limit') (batch ++ batch') where
  toKept := h.toKept.trans h'.toKept
  changes := h'.changes.trans h.changes
  others n hn := (h'.others n hn).trans (h.others n hn)
  present := h'.present.trans h.present
  self := by rw [h'.self, h.self, List.drop_drop, List.append_assoc]
  front := by rw [List.map_append, h.front, h'.front, h.self, List.take_add, List.map_append]

theorem Takes.length_batch (h : Takes s t queue limit batch) :
    batch.length = min limit (s.state queue).visible.length := by
  have hlength := congrArg List.length h.front
  rwa [List.length_map, List.length_map, List.length_take] at hlength

/-- A batch may have been asked for by its length. -/
theorem Takes.exact (h : Takes s t queue limit batch) : Takes s t queue batch.length batch where
  toKept := h.toKept
  changes := h.changes
  others := h.others
  present := h.present
  self := by rw [h.self, h.length_batch, ← List.drop_eq_drop_min]
  front := by rw [h.front, h.length_batch, ← List.take_eq_take_min]

theorem take_of_some (hq : (s.queues.get? queue).isSome) (limit : Nat) :
    ∃ batch t, s.take queue limit = (.ok (handedOut batch), t) ∧ Takes s t queue limit batch := by
  induction limit generalizing s with
  | zero => exact ⟨[], s, rfl, (Quiet.refl s).takes rfl (List.take_zero)⟩
  | succ limit ih =>
    obtain ⟨q, hq⟩ := Option.isSome_iff_exists.mp hq
    cases hv : q.visible with
    | nil =>
      refine ⟨[], s.drawn, take_of_nil hq hv limit, (quiet_drawn s).takes rfl ?_⟩
      rw [state_of_get? hq, hv, List.take_nil]
    | cons m rest =>
      have hput := (quiet_drawn s).puts (puts_withQueue s.drawn queue (taken q rest (s.nextHandle queue m) m))
      obtain ⟨batch, t, htake, h⟩ := ih (hput.get?_self ▸ Option.isSome_some)
      refine ⟨(s.nextHandle queue m, m.delivered) :: batch, t, ?_, h.cons hq hv hput rfl⟩
      rw [take_of_cons hq hv]
      dsimp only
      rw [htake]
      rfl

/-- Whether messages can be received from a queue. -/
def Serves (s : QueueStore) (queue : String) : Prop :=
  s.fails .receiveMessage queue = false ∧ (s.queues.get? queue).isSome

theorem Kept.fails (h : Kept s t) (op : Operation) (queue : String) : t.fails op queue = s.fails op queue := by
  rw [QueueStore.fails, QueueStore.fails, h.operations, h.failing]

theorem Takes.serves (h : Takes s t queue limit batch) (hs : s.Serves queue) : t.Serves queue :=
  ⟨(h.toKept.fails _ _).trans hs.1, h.present ▸ hs.2⟩

theorem receive_of_serves {url : String} (h : s.Serves (queueNameOfUrl url)) (limit : Nat) :
    ∃ batch t, s.receive url limit = (.ok (handedOut batch), t) ∧ Takes s t (queueNameOfUrl url) limit batch := by
  have hc := quiet_counted s .receiveMessage
  obtain ⟨batch, t, htake, h'⟩ := take_of_some (s := s.counted .receiveMessage) h.2 limit
  refine ⟨batch, t, ?_, hc.takes_trans rfl h'⟩
  rw [receive, attempt_of_not_fails h.1, htake]

/-- A receive fails, or takes a batch. Where it was of at least one message, the next receive takes a batch too. -/
theorem receive_cases (s : QueueStore) (url : String) (limit : Nat) :
    (∃ e t, s.receive url limit = (.error e, t) ∧ Quiet s t) ∨
    ((0 < limit → s.Serves (queueNameOfUrl url)) ∧ ∃ batch t, s.receive url limit = (.ok (handedOut batch), t) ∧
      Takes s t (queueNameOfUrl url) limit batch) := by
  have hc := quiet_counted s .receiveMessage
  cases hf : s.fails .receiveMessage (queueNameOfUrl url) with
  | true =>
    refine Or.inl ⟨injected .receiveMessage, _, ?_, hc⟩
    rw [receive, attempt_of_fails hf]
  | false =>
    cases hq : s.queues.get? (queueNameOfUrl url) with
    | none =>
      cases limit with
      | zero =>
        refine Or.inr ⟨fun h => absurd h (Nat.lt_irrefl 0), [], _, ?_, hc.takes rfl List.take_zero⟩
        rw [receive, attempt_of_not_fails hf]
        rfl
      | succ limit =>
        refine Or.inl ⟨missing .receiveMessage (queueNameOfUrl url), _, ?_, hc.trans (quiet_drawn _)⟩
        rw [receive, attempt_of_not_fails hf, take_of_none (hc.queues ▸ hq)]
    | some q =>
      have hs : s.Serves (queueNameOfUrl url) := ⟨hf, hq ▸ Option.isSome_some⟩
      exact Or.inr ⟨fun _ => hs, receive_of_serves hs limit⟩

end QueueStore

def World.withQueues (w : World) (s : QueueStore) : World := { w with provider := { w.provider with queues := s } }

/-- A call on queues runs on the queues alone. -/
theorem Attempt.run_queues (w : World) {c : Call} {f : QueueStore → Except QueueError c.Reply × QueueStore}
    (h : ∀ p : Memory, p.perform c = p.onQueues f) :
    (Attempt.call c).result.run w = ((f w.provider.queues).1, w.withQueues (f w.provider.queues).2) := by
  show w.perform (.call c) = _
  simp only [World.perform, h]
  rfl

theorem Attempt.run_receive {w : World} {url : String} {limit : Nat} {wait : Int} {t : QueueStore}
    {o : Except QueueError (List Received)} (h : w.provider.queues.receive url limit = (o, t)) :
    (Attempt.call (.receive url limit wait)).result.run w = (o, w.withQueues t) := by
  rw [Attempt.run_queues (c := .receive url limit wait) (f := (·.receive url limit)) w fun _ => rfl, h]

end DeadLetter

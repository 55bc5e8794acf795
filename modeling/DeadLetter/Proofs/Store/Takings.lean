import DeadLetter.Proofs.Store.Likeness
import DeadLetter.Service.Retry

/-!
# Messages taken off a dead letter queue

A `Taking` is a message that a retry took off a dead letter queue, with what became of it. `Carries s t D M takings` :
from `s` to `t` the first messages of `D` were taken in order, those that were not moved are in flight there, the copies
are on `M` behind all others, and nothing else changed; one after the other such changes add up (`Carries.trans`).
`Taking.Fits` says what becomes of a message: which of the three it is the failures decide, and what its copy is like.
-/

namespace DeadLetter

set_option autoImplicit false

/-- What became of a message that was taken. -/
inductive Fate where
  /-- A copy was sent, and the message was deleted. -/
  | moved (copy : Stored)
  /-- No copy could be sent. -/
  | unsent
  /-- A copy was sent, but the message could not be deleted. -/
  | undeleted (copy : Stored)

/-- A message that was taken off a queue, as it was there, under a receipt handle. -/
structure Taking where
  message : Stored
  handle : String
  fate : Fate

namespace Taking

/-- The copies of the message that were sent. -/
def copies (x : Taking) : List Stored :=
  match x.fate with
  | .moved copy | .undeleted copy => [copy]
  | .unsent => []

def pending (x : Taking) : List (String × Stored) :=
  match x.fate with
  | .moved _ => []
  | .unsent | .undeleted _ => [(x.handle, x.message.delivered)]

/-- What is listed as moved. -/
def listed (x : Taking) : List Received :=
  match x.fate with
  | .moved _ => [x.message.delivered.deliver x.handle]
  | .unsent | .undeleted _ => []

/-- A message that was taken is either left in flight or listed. -/
theorem length_pending_add_listed (x : Taking) : x.pending.length + x.listed.length = 1 := by
  unfold pending listed
  cases x.fate <;> rfl

end Taking

/-- What is sent for a message, if it is the `n`-th that is given a deduplication id. -/
def QueueHandle.resent (q : QueueHandle) (n : Nat) (m : Stored) : Outbound where
  body := m.body
  attributes := m.attributes
  group := if q.isFifo then m.group else none
  deduplication := if q.isFifo then some (.generated n) else none

namespace QueueStore
variable {s t u v : QueueStore} {D M : String} {q : QueueState} {m copy : Stored} {rest : List Stored} {handle : String}
  {takings takings' : List Taking}

/-! ## Changes of two queues -/

/-- From `s` to `t` no queue but `D` and `M` changes, none appears or disappears, and calls fail as before. -/
structure Beside (s t : QueueStore) (D M : String) : Prop extends Kept s t where
  present : ∀ n, (t.queues.get? n).isSome = (s.queues.get? n).isSome
  others : ∀ n, n ≠ D → n ≠ M → t.queues.get? n = s.queues.get? n

theorem Beside.trans (h : Beside s t D M) (h' : Beside t u D M) : Beside s u D M where
  toKept := h.toKept.trans h'.toKept
  present n := (h'.present n).trans (h.present n)
  others n hD hM := (h'.others n hD hM).trans (h.others n hD hM)

theorem Quiet.beside (h : Quiet s t) : Beside s t D M :=
  ⟨h.toKept, fun _ => by rw [h.queues], fun _ _ _ => by rw [h.queues]⟩

theorem Puts.beside {queue : String} {q' : QueueState} (h : Puts s t queue q') (hq : s.queues.get? queue = some q)
    (hqueue : queue = D ∨ queue = M) : Beside s t D M where
  toKept := h.toKept
  present := h.isSome_get? hq
  others _ hD hM := h.get?_of_ne fun hn => hqueue.elim (fun heq => hD (hn.trans heq)) fun heq => hM (hn.trans heq)

theorem Beside.fails (h : Beside s t D M) (op : Operation) (queue : String) : t.fails op queue = s.fails op queue := by
  rw [QueueStore.fails, QueueStore.fails, h.operations, h.failing]

/-- A queue refuses the messages that it refused before. -/
theorem Beside.refuses_iff (h : Beside s t D M) (queue : String) (group : Option String) :
    t.Refuses queue group ↔ s.Refuses queue group := by
  have hnone : t.queues.get? queue = none ↔ s.queues.get? queue = none := by
    rw [← Option.isNone_iff_eq_none, ← Option.isNone_iff_eq_none, ← Option.not_isSome, ← Option.not_isSome, h.present]
  rw [Refuses, Refuses, h.fails, hnone]

/-! ## What was taken -/

/-- From `s` to `t` messages were taken off `D`, and copies put on `M`. -/
structure Carries (s t : QueueStore) (D M : String) (takings : List Taking) : Prop extends Beside s t D M where
  front : takings.map (·.message) = (s.state D).visible.take takings.length
  dlq : t.state D = { s.state D with
    visible := (s.state D).visible.drop takings.length
    inFlight := (s.state D).inFlight ++ takings.flatMap (·.pending) }
  main : t.state M = { s.state M with visible := (s.state M).visible ++ takings.flatMap (·.copies) }

theorem Quiet.carries (h : Quiet s t) : Carries s t D M [] where
  toBeside := h.beside
  front := rfl
  dlq := by
    rw [h.state, List.length_nil, List.drop_zero, List.flatMap_nil, List.append_nil]
  main := by
    rw [h.state, List.flatMap_nil, List.append_nil]

theorem Carries.trans (h : Carries s t D M takings) (h' : Carries t u D M takings') :
    Carries s u D M (takings ++ takings') where
  toBeside := h.toBeside.trans h'.toBeside
  front := by
    rw [List.map_append, List.length_append, List.take_add, h.front, h'.front, h.dlq]
  dlq := by
    rw [h'.dlq, h.dlq, List.length_append, List.drop_drop, List.flatMap_append, List.append_assoc]
  main := by
    rw [h'.main, h.main, List.flatMap_append, List.append_assoc]

/-- Where nothing was taken, nothing changed. -/
theorem Carries.get?_eq (h : Carries s t D M []) (n : String) : t.queues.get? n = s.queues.get? n := by
  have hD : t.state D = s.state D := by
    rw [h.dlq, List.length_nil, List.drop_zero, List.flatMap_nil, List.append_nil]
  have hM : t.state M = s.state M := by
    rw [h.main, List.flatMap_nil, List.append_nil]
  have hsame (queue : String) (hstate : t.state queue = s.state queue) : t.queues.get? queue = s.queues.get? queue := by
    have hpresent := h.present queue
    cases hs : s.queues.get? queue with
    | none =>
      rw [hs, Option.isSome_none] at hpresent
      exact Option.not_isSome_iff_eq_none.mp (Bool.eq_false_iff.mp hpresent)
    | some q =>
      rw [hs, Option.isSome_some] at hpresent
      obtain ⟨q', ht⟩ := Option.isSome_iff_exists.mp hpresent
      rw [state_of_get? hs, state_of_get? ht] at hstate
      rw [ht, hstate]
  by_cases hnD : n = D
  · exact hnD ▸ hsame D hD
  · by_cases hnM : n = M
    · exact hnM ▸ hsame M hM
    · exact h.others n hnD hnM

/-- What was taken off `D` and not listed is still there. -/
theorem Carries.length_messages (h : Carries s t D M takings) :
    (takings.flatMap (·.listed)).length + (t.state D).messages.length = (s.state D).messages.length := by
  have hsplit : (takings.flatMap (·.pending)).length + (takings.flatMap (·.listed)).length = takings.length := by
    clear h
    induction takings with
    | nil => rfl
    | cons x takings ih =>
      have hx := x.length_pending_add_listed
      rw [List.flatMap_cons, List.flatMap_cons, List.length_append, List.length_append, List.length_cons]
      omega
  have hlength : takings.length ≤ (s.state D).visible.length := by
    have := congrArg List.length h.front
    rw [List.length_map, List.length_take] at this
    omega
  rw [h.dlq]
  simp only [QueueState.messages, List.length_append, List.length_map, List.length_drop]
  omega

theorem carries_single {x : Taking} (h : Beside s t D M) (hv : (s.state D).visible = x.message :: rest)
    (hD : t.state D = { s.state D with visible := rest, inFlight := (s.state D).inFlight ++ x.pending })
    (hM : t.state M = { s.state M with visible := (s.state M).visible ++ x.copies }) : Carries s t D M [x] where
  toBeside := h
  front := by rw [hv]; rfl
  dlq := by rw [hD, hv, List.flatMap_singleton]; rfl
  main := by rw [hM, List.flatMap_singleton]

section Single
variable (hne : D ≠ M) (hq : s.queues.get? D = some q) (hv : q.visible = m :: rest)
  (htake : Puts s t D (taken q rest handle m))
include hne hq hv htake

theorem carries_unsent (hsend : Quiet t u) : Carries s u D M [⟨m, handle, .unsent⟩] := by
  have hstate := state_of_get? hq
  refine carries_single ((htake.beside hq (Or.inl rfl)).trans hsend.beside) (hstate ▸ hv) ?_ ?_
  · rw [hsend.state, htake.state_self, hstate]
    rfl
  · rw [hsend.state, htake.state_of_ne hne.symm]
    exact congrArg (fun l => { s.state M with visible := l }) (List.append_nil _).symm

theorem carries_undeleted (hsend : Puts t u M (appended (t.state M) copy)) (hM : (t.queues.get? M).isSome)
    (hdelete : Quiet u v) : Carries s v D M [⟨m, handle, .undeleted copy⟩] := by
  have hstate := state_of_get? hq
  obtain ⟨q', hq'⟩ := Option.isSome_iff_exists.mp hM
  refine carries_single (((htake.beside hq (Or.inl rfl)).trans (hsend.beside hq' (Or.inr rfl))).trans hdelete.beside)
    (hstate ▸ hv) ?_ ?_
  · rw [hdelete.state, hsend.state_of_ne hne, htake.state_self, hstate]
    rfl
  · rw [hdelete.state, hsend.state_self, htake.state_of_ne hne.symm]
    rfl

theorem carries_moved (hsend : Puts t u M (appended (t.state M) copy)) (hM : (t.queues.get? M).isSome)
    (hdelete : Puts u v D (removed (u.state D) handle)) (hnodup : (u.state D).handles.Nodup) :
    Carries s v D M [⟨m, handle, .moved copy⟩] := by
  have hstate := state_of_get? hq
  obtain ⟨q', hq'⟩ := Option.isSome_iff_exists.mp hM
  have hfirst := (htake.beside hq (Or.inl rfl)).trans (hsend.beside hq' (Or.inr rfl))
  have hstateD : u.state D = taken q rest handle m := by rw [hsend.state_of_ne hne, htake.state_self]
  have hpresent : (u.queues.get? D).isSome := by rw [hfirst.present, hq]; rfl
  obtain ⟨q'', hq''⟩ := Option.isSome_iff_exists.mp hpresent
  refine carries_single (hfirst.trans (hdelete.beside hq'' (Or.inl rfl))) (hstate ▸ hv) ?_ ?_
  · have hflight : (removed (u.state D) handle).inFlight = q.inFlight :=
      inFlight_removed (by rw [hstateD]; rfl) hnodup
    have hrest : removed (u.state D) handle = { u.state D with inFlight := (removed (u.state D) handle).inFlight } := rfl
    rw [hdelete.state_self, hrest, hflight, hstateD, hstate]
    exact congrArg (fun l => { q with visible := rest, inFlight := l }) (List.append_nil _).symm
  · rw [hdelete.state_of_ne hne.symm, hsend.state_self, htake.state_of_ne hne.symm]
    rfl

end Single

end QueueStore

/-- What becomes of a message that is taken from `D` for `M` in `s`: only what is made to fail and the group decide it. -/
inductive Taking.Fits (s : QueueStore) (D M : String) (q : QueueHandle) (n : Nat) : Taking → Prop
  | moved {m : Stored} {handle : String} {k : Nat} (hsend : ¬ s.Refuses M (q.resent n m).group)
    (hdelete : s.fails .deleteMessage D = false) (hk : s.lastId < k) :
    Fits s D M q n ⟨m, handle, .moved ((q.resent n m).store (QueueStore.messageId k))⟩
  | unsent {m : Stored} {handle : String} (hsend : s.Refuses M (q.resent n m).group) :
    Fits s D M q n ⟨m, handle, .unsent⟩
  | undeleted {m : Stored} {handle : String} {k : Nat} (hsend : ¬ s.Refuses M (q.resent n m).group)
    (hdelete : s.fails .deleteMessage D = true) (hk : s.lastId < k) :
    Fits s D M q n ⟨m, handle, .undeleted ((q.resent n m).store (QueueStore.messageId k))⟩

section Fits
variable {s t : QueueStore} {D M : String} {q : QueueHandle} {n n' : Nat} {x : Taking}

/-- What becomes of a message later does not depend on what was taken before it. -/
theorem Taking.Fits.of_beside (hst : s.Beside t D M) (h : x.Fits t D M q n) : x.Fits s D M q n := by
  cases h with
  | moved hsend hdelete hk =>
    exact .moved (mt (hst.refuses_iff M _).mpr hsend) (hst.fails _ _ ▸ hdelete) (Nat.lt_of_le_of_lt hst.lastId hk)
  | unsent hsend => exact .unsent ((hst.refuses_iff M _).mp hsend)
  | undeleted hsend hdelete hk =>
    exact .undeleted (mt (hst.refuses_iff M _).mpr hsend) (hst.fails _ _ ▸ hdelete) (Nat.lt_of_le_of_lt hst.lastId hk)

/-- Which deduplication id would be next matters on ordered queues only. -/
theorem Taking.Fits.of_eq (hn : q.isFifo = true → n = n') (h : x.Fits s D M q n) : x.Fits s D M q n' := by
  have hresent (m : Stored) : q.resent n m = q.resent n' m := by
    unfold QueueHandle.resent
    cases hq : q.isFifo with
    | true => rw [hn hq]
    | false => rfl
  cases h with
  | moved hsend hdelete hk =>
    rw [hresent] at hsend ⊢
    exact .moved hsend hdelete hk
  | unsent hsend =>
    rw [hresent] at hsend
    exact .unsent hsend
  | undeleted hsend hdelete hk =>
    rw [hresent] at hsend ⊢
    exact .undeleted hsend hdelete hk

end Fits

end DeadLetter

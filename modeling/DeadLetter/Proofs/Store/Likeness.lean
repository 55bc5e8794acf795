import DeadLetter.Proofs.Store.Turns
import Mathlib.Data.List.Forall2

/-!
# Queues that are alike

Two queues are alike when they hold the same messages in the same order, up to ids, receipt handles and deduplication
ids that were made past given numbers (`QueueState.Like`). `QueueStore.Alike D M` : two stores in which `D` and `M` are
alike, and in which calls fail alike. The calls of a retry keep stores alike and succeed in both or in neither:
`Alike.receive`, `Alike.send`, `Alike.delete`; what they tell is the same: `Alike.queueUrl`, `Alike.queueAttributes`.
-/

namespace DeadLetter

set_option autoImplicit false

open QueueStore

/-- Two values are equal, or both are new. -/
def Renewed {α : Type} (new : α → Prop) (a b : α) : Prop := b = a ∨ new a ∧ new b

theorem Renewed.refl {α : Type} {new : α → Prop} (a : α) : Renewed new a a := Or.inl rfl

theorem Renewed.of_new {α : Type} {new : α → Prop} {a b : α} (ha : new a) (hb : new b) : Renewed new a b :=
  Or.inr ⟨ha, hb⟩

/-- A message id made with a number past `n`. -/
def NewId (n : Nat) (id : String) : Prop := ∃ j, n < j ∧ IdStamp id j

/-- A receipt handle made with a number past `n`. -/
def NewHandle (n : Nat) (handle : String) : Prop := ∃ j, n < j ∧ HandleStamp handle j

/-- A deduplication id made here, after `k` others. -/
def NewDeduplication (k : Nat) (id : Option DeduplicationId) : Prop := ∃ j, k ≤ j ∧ id = some (.generated j)

/-- Two messages are the same up to new ids. -/
structure Stored.Like (n k : Nat) (m m' : Stored) : Prop where
  id : Renewed (NewId n) m.id m'.id
  body : m'.body = m.body
  attributes : m'.attributes = m.attributes
  group : m'.group = m.group
  deduplication : Renewed (NewDeduplication k) m.deduplication m'.deduplication
  deliveries : m'.deliveries = m.deliveries

/-- Two queues hold the same messages up to new ids and handles. -/
structure QueueState.Like (n k : Nat) (q q' : QueueState) : Prop where
  attributes : q'.attributes = q.attributes
  redrive : q'.redrive = q.redrive
  reportedCount : q'.reportedCount = q.reportedCount
  visible : List.Forall₂ (Stored.Like n k) q.visible q'.visible
  inFlight : List.Forall₂ (fun e e' => Renewed (NewHandle n) e.1 e'.1 ∧ Stored.Like n k e.2 e'.2) q.inFlight q'.inFlight

/-- Two messages to send are the same up to new deduplication ids. -/
structure Outbound.Like (k : Nat) (m m' : Outbound) : Prop where
  body : m'.body = m.body
  attributes : m'.attributes = m.attributes
  group : m'.group = m.group
  deduplication : Renewed (NewDeduplication k) m.deduplication m'.deduplication

section Like
variable {n k : Nat} {q q' : QueueState}

theorem Outbound.Like.refl (m : Outbound) : m.Like k m := ⟨rfl, rfl, rfl, .refl _⟩

theorem Outbound.Like.store {m m' : Outbound} (h : m.Like k m') {i i' : String} (hi : NewId n i) (hi' : NewId n i') :
    (m.store i).Like n k (m'.store i') := ⟨.of_new hi hi', h.body, h.attributes, h.group, h.deduplication, rfl⟩

theorem Stored.Like.refl (m : Stored) : m.Like n k m := ⟨.refl _, rfl, rfl, rfl, .refl _, rfl⟩

theorem QueueState.Like.refl (q : QueueState) : q.Like n k q where
  attributes := rfl
  redrive := rfl
  reportedCount := rfl
  visible := List.forall₂_same.mpr fun m _ => .refl m
  inFlight := List.forall₂_same.mpr fun e _ => ⟨.refl _, .refl e.2⟩

theorem QueueState.Like.appended (h : q.Like n k q') {m m' : Stored} (hm : m.Like n k m') :
    (QueueStore.appended q m).Like n k (QueueStore.appended q' m') where
  attributes := h.attributes
  redrive := h.redrive
  reportedCount := h.reportedCount
  visible := List.rel_append h.visible (.cons hm .nil)
  inFlight := h.inFlight

theorem QueueState.Like.taken (h : q.Like n k q') {rest : List Stored} {m : Stored} {handle handle' : String}
    (hh : NewHandle n handle) (hh' : NewHandle n handle') :
    (QueueStore.taken q rest handle m).Like n k (QueueStore.taken q' rest handle' m) where
  attributes := h.attributes
  redrive := h.redrive
  reportedCount := h.reportedCount
  visible := List.forall₂_same.mpr fun m _ => .refl m
  inFlight := List.rel_append h.inFlight (.cons ⟨.of_new hh hh', .refl _⟩ .nil)

end Like

/-- The message that a queue delivered last. -/
def QueueState.Delivered (q : QueueState) (handle : String) (m : Stored) : Prop :=
  ∃ before, q.inFlight = before ++ [(handle, m)]

section Delivered
variable {n k : Nat} {q q' : QueueState} {handle handle' : String} {m m' : Stored}

theorem notMem_of_last {before : List (String × Stored)} (hq : q.inFlight = before ++ [(handle, m)])
    (hnodup : q.handles.Nodup) : ∀ e ∈ before, e.1 ≠ handle := by
  intro e he heq
  rw [QueueState.handles, hq, List.map_append] at hnodup
  have hdisjoint := (List.nodup_append.mp hnodup).2.2
  exact hdisjoint e.1 (List.mem_map.mpr ⟨e, he, rfl⟩) handle (List.mem_singleton_self _) heq

theorem QueueState.Delivered.lookup (h : q.Delivered handle m) (hnodup : q.handles.Nodup) :
    q.inFlight.lookup handle = some m := by
  obtain ⟨before, hq⟩ := h
  have hbefore : before.lookup handle = none := by
    refine List.lookup_eq_none_iff.mpr fun e he => ?_
    exact bne_iff_ne.mpr (notMem_of_last hq hnodup e he).symm
  rw [hq, List.lookup_append, hbefore, Option.none_or, List.lookup_cons_self]

theorem inFlight_removed {before : List (String × Stored)} (hq : q.inFlight = before ++ [(handle, m)])
    (hnodup : q.handles.Nodup) : (QueueStore.removed q handle).inFlight = before := by
  rw [QueueStore.removed, hq, List.eraseP_append_right]
  · rw [List.eraseP_cons_of_pos (by exact beq_self_eq_true handle), List.append_nil]
  · intro e he heq
    exact notMem_of_last hq hnodup e he (beq_iff_eq.mp heq)

theorem QueueState.Like.removed (h : q.Like n k q') (hq : q.Delivered handle m) (hq' : q'.Delivered handle' m')
    (hnodup : q.handles.Nodup) (hnodup' : q'.handles.Nodup) :
    (QueueStore.removed q handle).Like n k (QueueStore.removed q' handle') where
  attributes := h.attributes
  redrive := h.redrive
  reportedCount := h.reportedCount
  visible := h.visible
  inFlight := by
    obtain ⟨before, hq⟩ := hq
    obtain ⟨before', hq'⟩ := hq'
    rw [inFlight_removed hq hnodup, inFlight_removed hq' hnodup']
    have hboth := h.inFlight
    rw [hq, hq'] at hboth
    have hlength : before.length = before'.length := by
      have := hboth.length_eq
      rw [List.length_append, List.length_append, List.length_singleton, List.length_singleton] at this
      omega
    have := List.forall₂_take before.length hboth
    rwa [List.take_left, hlength, List.take_left] at this

end Delivered

namespace QueueStore
variable {D M : String} {n k : Nat} {s s' t t' : QueueStore}

/-- Two stores in which calls fail alike, the same queues are there, and `D` and `M` are alike; what is visible on `D`
is the same. -/
structure Alike (D M : String) (n k : Nat) (s s' : QueueStore) : Prop where
  operations : s'.failingOperations = s.failingOperations
  failing : s'.failingQueues = s.failingQueues
  present : ∀ queue, (s'.queues.get? queue).isSome = (s.queues.get? queue).isSome
  drawn : n ≤ s.lastId ∧ n ≤ s'.lastId
  waiting : (s'.state D).visible = (s.state D).visible
  dlq : (s.state D).Like n k (s'.state D)
  main : (s.state M).Like n k (s'.state M)

theorem Alike.fails (h : Alike D M n k s s') (op : Operation) (queue : String) :
    s'.fails op queue = s.fails op queue := by
  rw [QueueStore.fails, QueueStore.fails, h.operations, h.failing]

theorem Alike.get?_eq_none (h : Alike D M n k s s') (queue : String) :
    s'.queues.get? queue = none ↔ s.queues.get? queue = none := by
  rw [← Option.not_isSome_iff_eq_none, ← Option.not_isSome_iff_eq_none, h.present]

theorem Alike.refuses (h : Alike D M n k s s') (queue : String) (group : Option String) :
    s'.Refuses queue group ↔ s.Refuses queue group := by
  rw [Refuses, Refuses, h.fails, h.get?_eq_none]

theorem Alike.quiet (h : Alike D M n k s s') (ht : Quiet s t) (ht' : Quiet s' t') : Alike D M n k t t' where
  operations := by rw [ht.operations, ht'.operations, h.operations]
  failing := by rw [ht.failing, ht'.failing, h.failing]
  present queue := by rw [ht.queues, ht'.queues, h.present]
  drawn := ⟨Nat.le_trans h.drawn.1 ht.lastId, Nat.le_trans h.drawn.2 ht'.lastId⟩
  waiting := by rw [ht.state, ht'.state, h.waiting]
  dlq := by
    rw [ht.state, ht'.state]
    exact h.dlq
  main := by
    rw [ht.state, ht'.state]
    exact h.main

theorem Alike.puts (h : Alike D M n k s s') {queue : String} {q q' : QueueState} (ht : Puts s t queue q)
    (ht' : Puts s' t' queue q') (hq : q.Like n k q') (hwaiting : queue = D → q'.visible = q.visible) :
    Alike D M n k t t' where
  operations := by rw [ht.operations, ht'.operations, h.operations]
  failing := by rw [ht.failing, ht'.failing, h.failing]
  present i := by
    rw [ht.get?, ht'.get?]
    split
    · rfl
    · exact h.present i
  drawn := ⟨Nat.le_trans h.drawn.1 ht.lastId, Nat.le_trans h.drawn.2 ht'.lastId⟩
  waiting := by
    rw [state_put ht.queues, state_put ht'.queues]
    split
    · next hD => exact hwaiting hD.symm
    · exact h.waiting
  dlq := by
    rw [state_put ht.queues, state_put ht'.queues]
    split
    · exact hq
    · exact h.dlq
  main := by
    rw [state_put ht.queues, state_put ht'.queues]
    split
    · exact hq
    · exact h.main

/-! ## Calls on both stores -/

section Calls
variable {url : String}

theorem Alike.queueUrl (h : Alike D M n k s s') (queue : String) :
    (s'.queueUrl queue).1 = (s.queueUrl queue).1 ∧ Alike D M n k (s.queueUrl queue).2 (s'.queueUrl queue).2 := by
  rw [queueUrl_eq, queueUrl_eq]
  refine ⟨?_, h.quiet (quiet_counted s _) (quiet_counted s' _)⟩
  rw [h.fails, h.present]

theorem attributesOf_like {q q' : QueueState} (h : q.Like n k q') (queue : String) :
    attributesOf queue q' = attributesOf queue q := by
  rw [attributesOf, attributesOf, h.redrive, h.reportedCount, h.visible.length_eq, h.inFlight.length_eq]

theorem Alike.queueAttributes (h : Alike D M n k s s') (hurl : queueNameOfUrl url = D) :
    (s'.queueAttributes url).1 = (s.queueAttributes url).1 ∧
      Alike D M n k (s.queueAttributes url).2 (s'.queueAttributes url).2 := by
  rw [queueAttributes_eq, queueAttributes_eq, hurl]
  refine ⟨?_, h.quiet (quiet_counted s _) (quiet_counted s' _)⟩
  rw [h.fails]
  cases hq : s.queues.get? D with
  | none => rw [(h.get?_eq_none D).mpr hq]
  | some q =>
    cases hq' : s'.queues.get? D with
    | none =>
      rw [(h.get?_eq_none D).mp hq'] at hq
      cases hq
    | some q' =>
      have hlike := h.dlq
      rw [state_of_get? hq, state_of_get? hq'] at hlike
      dsimp only
      rw [attributesOf_like hlike]

/-- Both stores fail to deliver, have nothing to deliver, or deliver the same message under handles of their own. -/
theorem Alike.receive (h : Alike D M n k s s') (hurl : queueNameOfUrl url = D) :
    ((∃ e e', (s.receive url 1).1 = .error e ∧ (s'.receive url 1).1 = .error e') ∨
      ((s.receive url 1).1 = .ok [] ∧ (s'.receive url 1).1 = .ok []) ∨
      ∃ x handle handle', (s.receive url 1).1 = .ok [x.deliver handle] ∧
        (s'.receive url 1).1 = .ok [x.deliver handle'] ∧
        ((s.receive url 1).2.state D).Delivered handle x ∧ ((s'.receive url 1).2.state D).Delivered handle' x) ∧
      Alike D M n k (s.receive url 1).2 (s'.receive url 1).2 := by
  have hcases := receiveOne_cases s url
  have hcases' := receiveOne_cases s' url
  rw [hurl] at hcases hcases'
  rcases hcases with ⟨hf, e, t, heq, hquiet⟩ | ⟨hf, q, hq, hcases⟩
  · rcases hcases' with ⟨_, e', t', heq', hquiet'⟩ | ⟨hf', q', hq', _⟩
    · rw [heq, heq']
      exact ⟨Or.inl ⟨e, e', rfl, rfl⟩, h.quiet hquiet hquiet'⟩
    · -- the reasons to fail are the same in both stores
      rw [← h.fails, ← h.get?_eq_none, hf', hq'] at hf
      rcases hf with hf | hf <;> cases hf
  · rcases hcases' with ⟨hf', _⟩ | ⟨_, q', hq', hcases'⟩
    · rw [h.fails, h.get?_eq_none, hf, hq] at hf'
      rcases hf' with hf' | hf' <;> cases hf'
    · have hwaiting := h.waiting
      have hlike := h.dlq
      rw [state_of_get? hq, state_of_get? hq'] at hwaiting hlike
      rcases hcases with ⟨hv, t, heq, hquiet⟩ | ⟨m, rest, t, hv, heq, hid, hput⟩
      · rcases hcases' with ⟨_, t', heq', hquiet'⟩ | ⟨m', rest', t', hv', _⟩
        · rw [heq, heq']
          exact ⟨Or.inr (Or.inl ⟨rfl, rfl⟩), h.quiet hquiet hquiet'⟩
        · rw [hv, hv'] at hwaiting
          cases hwaiting
      · rcases hcases' with ⟨hv', _⟩ | ⟨m', rest', t', hv', heq', hid', hput'⟩
        · rw [hv, hv'] at hwaiting
          cases hwaiting
        · rw [hv, hv'] at hwaiting
          cases hwaiting
          rw [heq, heq']
          refine ⟨Or.inr (Or.inr ⟨m.delivered, _, _, rfl, rfl, ?_, ?_⟩), h.puts hput hput' (hlike.taken ?_ ?_) ?_⟩
          · rw [hput.state_self]
            exact ⟨_, rfl⟩
          · rw [hput'.state_self]
            exact ⟨_, rfl⟩
          · exact ⟨s.lastId + 1, Nat.lt_succ_of_le h.drawn.1, _, _, rfl⟩
          · exact ⟨s'.lastId + 1, Nat.lt_succ_of_le h.drawn.2, _, _, rfl⟩
          · exact fun _ => rfl

/-- Both stores take a message, or neither does. -/
theorem Alike.send (h : Alike D M n k s s') (hne : D ≠ M) (hurl : queueNameOfUrl url = M) {m m' : Outbound}
    (hm : m.Like k m') :
    ((∃ e e', (s.send url m).1 = .error e ∧ (s'.send url m').1 = .error e') ∨
      ∃ i i', (s.send url m).1 = .ok i ∧ (s'.send url m').1 = .ok i') ∧
      (s.send url m).2.state D = s.state D ∧ (s'.send url m').2.state D = s'.state D ∧
      Alike D M n k (s.send url m).2 (s'.send url m').2 := by
  have hcases := send_cases s url m
  have hcases' := send_cases s' url m'
  rw [hurl] at hcases hcases'
  rw [hm.group, h.refuses] at hcases'
  rcases hcases with ⟨hr, e, t, heq, hquiet⟩ | ⟨hr, q, t, hq, heq, hid, hput⟩
  · rcases hcases' with ⟨_, e', t', heq', hquiet'⟩ | ⟨hr', _⟩
    · rw [heq, heq']
      exact ⟨Or.inl ⟨e, e', rfl, rfl⟩, hquiet.state D, hquiet'.state D, h.quiet hquiet hquiet'⟩
    · exact absurd hr hr'
  · rcases hcases' with ⟨hr', _⟩ | ⟨_, q', t', hq', heq', hid', hput'⟩
    · exact absurd hr' hr
    · have hlike := h.main
      rw [state_of_get? hq, state_of_get? hq'] at hlike
      rw [heq, heq']
      refine ⟨Or.inr ⟨_, _, rfl, rfl⟩, hput.state_of_ne hne, hput'.state_of_ne hne,
        h.puts hput hput' (hlike.appended ?_) fun heq => absurd heq.symm hne⟩
      exact hm.store ⟨s.lastId + 1, Nat.lt_succ_of_le h.drawn.1, rfl⟩ ⟨s'.lastId + 1, Nat.lt_succ_of_le h.drawn.2, rfl⟩

/-- What was delivered last can be deleted, unless deleting is made to fail. -/
theorem delete_delivered (hs : Sound s) (hurl : queueNameOfUrl url = D) {handle : String} {x : Stored}
    (hx : (s.state D).Delivered handle x) :
    (s.fails .deleteMessage D = true ∧ ∃ e t, s.delete url handle = (.error e, t) ∧ Quiet s t) ∨
      (s.fails .deleteMessage D = false ∧ ∃ t, s.delete url handle = (.ok (), t) ∧
        Puts s t D (removed (s.state D) handle)) := by
  have hcases := delete_cases s url handle
  rw [hurl] at hcases
  rcases hcases with ⟨hf | hnone, e, t, heq, hquiet⟩ | ⟨hf, q, m, t, hq, _, heq, hput⟩
  · exact Or.inl ⟨hf, e, t, heq, hquiet⟩
  · have hlookup := hx.lookup (hs.handles_nodup D)
    cases hq : s.queues.get? D with
    | none =>
      rw [state_of_none hq] at hlookup
      cases hlookup
    | some q =>
      rw [state_of_get? hq, hnone q hq] at hlookup
      cases hlookup
  · rw [← state_of_get? hq] at hput
    exact Or.inr ⟨hf, t, heq, hput⟩

/-- Both stores delete what they delivered last, or neither does. -/
theorem Alike.delete (h : Alike D M n k s s') (hs : Sound s) (hs' : Sound s') (hurl : queueNameOfUrl url = D)
    {handle handle' : String} {x x' : Stored} (hx : (s.state D).Delivered handle x)
    (hx' : (s'.state D).Delivered handle' x') :
    ((∃ e e', (s.delete url handle).1 = .error e ∧ (s'.delete url handle').1 = .error e') ∨
      ((s.delete url handle).1 = .ok () ∧ (s'.delete url handle').1 = .ok ())) ∧
      Alike D M n k (s.delete url handle).2 (s'.delete url handle').2 := by
  have hcases' := delete_delivered hs' hurl hx'
  rw [h.fails] at hcases'
  rcases delete_delivered hs hurl hx with ⟨hf, e, t, heq, hquiet⟩ | ⟨hf, t, heq, hput⟩
  · rcases hcases' with ⟨_, e', t', heq', hquiet'⟩ | ⟨hf', _⟩
    · rw [heq, heq']
      exact ⟨Or.inl ⟨e, e', rfl, rfl⟩, h.quiet hquiet hquiet'⟩
    · rw [hf] at hf'
      cases hf'
  · rcases hcases' with ⟨hf', _⟩ | ⟨_, t', heq', hput'⟩
    · rw [hf] at hf'
      cases hf'
    · rw [heq, heq']
      have hlike := h.dlq.removed hx hx' (hs.handles_nodup D) (hs'.handles_nodup D)
      exact ⟨Or.inr ⟨rfl, rfl⟩, h.puts hput hput' hlike fun _ => h.waiting⟩

end Calls

end QueueStore

end DeadLetter

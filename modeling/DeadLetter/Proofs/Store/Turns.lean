import DeadLetter.Proofs.Dict
import DeadLetter.Proofs.Store.Calls
import DeadLetter.Proofs.Store.Stamps
import Mathlib.Data.List.Nodup
import Mathlib.Logic.Relation

/-!
# The changes of a store

`QueueState.Shift` lists the changes of a queue that remove no message, `QueueState.Turn` all changes; from one store to
another they are made one after the other (`Shifts`, `Turns`). `Sound` is what all of them keep: queues in order, ids
and receipt handles pairwise different and made with numbers drawn so far (`Turns.sound`). `Bound` says which payload a
message in flight under a handle has; once it holds it holds for good (`Turns.bound`).
-/

namespace DeadLetter

set_option autoImplicit false

/-- What a message says. -/
structure Payload where
  body : String
  attributes : Attributes
deriving DecidableEq, Repr

/-- What a stored message says. -/
def Stored.payload (m : Stored) : Payload := ⟨m.body, m.attributes⟩

/-- What a received message says. -/
def Received.payload (m : Received) : Payload := ⟨m.body, m.attributes⟩

/-- What a message to send says. -/
def Outbound.payload (m : Outbound) : Payload := ⟨m.body, m.attributes⟩

@[simp] theorem Stored.payload_delivered (m : Stored) : m.delivered.payload = m.payload := rfl

@[simp] theorem Outbound.payload_store (m : Outbound) (id : String) : (m.store id).payload = m.payload := rfl

/-- The entry that a look-up finds stands first in some order of the list. -/
theorem perm_of_lookup {α : Type} {l : List (String × α)} {k : String} {a : α} (h : l.lookup k = some a) :
    l.Perm ((k, a) :: l.eraseP (·.1 == k)) := by
  induction l with
  | nil => cases h
  | cons e l ih =>
    obtain ⟨k', b⟩ := e
    rw [List.lookup_cons] at h
    cases hk : k == k' with
    | true =>
      rw [hk] at h
      cases h
      have hkk : k' = k := (beq_iff_eq.mp hk).symm
      rw [List.eraseP_cons_of_pos (by simp [hkk]), hkk]
    | false =>
      rw [hk] at h
      have hne : ¬ k' = k := fun heq => by simp [heq] at hk
      rw [List.eraseP_cons_of_neg (by simpa using hne)]
      exact ((ih h).cons _).trans (List.Perm.swap _ _ _)

/-- Among entries with different keys each is the one that is found under its key. -/
theorem lookup_of_mem {α : Type} {l : List (String × α)} (hl : (l.map (·.1)).Nodup) {k : String} {a : α}
    (h : (k, a) ∈ l) : l.lookup k = some a := by
  cases hb : l.lookup k with
  | none =>
    have := List.lookup_eq_none_iff.mp hb _ h
    simp at this
  | some b =>
    have hmem : (k, b) ∈ l := (perm_of_lookup hb).symm.subset List.mem_cons_self
    cases List.inj_on_of_nodup_map hl h hmem rfl
    rfl

namespace QueueState

def messages (q : QueueState) : List Stored := q.visible ++ q.inFlight.map (·.2)

def handles (q : QueueState) : List String := q.inFlight.map (·.1)

open QueueStore in
/-- A change of a queue that removes no message. It may use the numbers past `n` and up to `n'`. -/
inductive Shift (queue : String) (n n' : Nat) : QueueState → QueueState → Prop
  | keep {q q' : QueueState} (hv : q'.visible = q.visible) (hf : q'.inFlight = q.inFlight) : Shift queue n n' q q'
  | take {q : QueueState} {m : Stored} {rest : List Stored} (hv : q.visible = m :: rest) (k : Nat) (hk : n < k)
      (hk' : k ≤ n') : Shift queue n n' q (taken q rest (handleOf queue m.id k) m)
  | append {q : QueueState} {m : Stored} (k : Nat) (hm : m.id = messageId k) (hk : n < k) (hk' : k ≤ n') :
      Shift queue n n' q (appended q m)
  | release {q : QueueState} {handle : String} {m : Stored} (hm : q.inFlight.lookup handle = some m) :
      Shift queue n n' q (released q handle m)
  | expire {q : QueueState} :
      Shift queue n n' q { q with visible := q.visible ++ q.inFlight.map (·.2), inFlight := [] }

open QueueStore in
/-- A change of a queue. -/
inductive Turn (queue : String) (n n' : Nat) : QueueState → QueueState → Prop
  | shift {q q' : QueueState} (h : Shift queue n n' q q') : Turn queue n n' q q'
  | remove {q : QueueState} {handle : String} {m : Stored} (hm : q.inFlight.lookup handle = some m) :
      Turn queue n n' q (removed q handle)
  | empty {q : QueueState} : Turn queue n n' q (emptied q)

section Turn
variable {queue : String} {n n' : Nat} {q q' : QueueState}

/-- A change that removes no message keeps all of them, apart from their deliveries, and may add one. -/
theorem Shift.letters {β : Type} {f : Stored → β} (hf : ∀ m, f m.delivered = f m) (h : Shift queue n n' q q') :
    (q'.messages.map f).Perm (q.messages.map f) ∨
      ∃ m k, m.id = QueueStore.messageId k ∧ n < k ∧ k ≤ n' ∧
        (q'.messages.map f).Perm (f m :: q.messages.map f) := by
  unfold messages
  cases h with
  | keep hv hi => exact Or.inl (by rw [hv, hi])
  | @take m rest hv k _ _ =>
    refine Or.inl ?_
    rw [hv, QueueStore.taken]
    simp only [List.map_append, List.map_cons, List.map_nil, List.cons_append, hf, ← List.append_assoc]
    exact List.perm_append_singleton _ _
  | @append m k hm hk hk' =>
    refine Or.inr ⟨m, k, hm, hk, hk', ?_⟩
    rw [QueueStore.appended, List.append_assoc, List.singleton_append, List.map_append, List.map_append, List.map_cons]
    exact List.perm_middle
  | @release handle m hm =>
    refine Or.inl ?_
    rw [QueueStore.released, List.append_assoc, List.singleton_append]
    exact (((perm_of_lookup hm).map (·.2)).symm.append_left _).map f
  | expire => exact Or.inl (by simp)

theorem Turn.handles (h : Turn queue n n' q q') :
    QueueStore.Grown QueueStore.HandleStamp n n' q.handles q'.handles := by
  unfold QueueState.handles
  cases h with
  | shift h =>
    cases h with
    | keep hv hf => exact Or.inl (by rw [hf])
    | @take m rest hv k hk hk' =>
      refine Or.inr ⟨QueueStore.handleOf queue m.id k, k, ⟨_, _, rfl⟩, hk, hk', ?_⟩
      rw [QueueStore.taken, List.map_append]
      exact (List.perm_append_singleton _ _).subperm
    | append k hm hk hk' => exact Or.inl (List.Subperm.refl _)
    | release hm => exact Or.inl (List.eraseP_sublist.map _).subperm
    | expire => exact Or.inl (List.nil_subperm)
  | remove hm => exact Or.inl (List.eraseP_sublist.map _).subperm
  | empty => exact Or.inl List.nil_subperm

theorem Turn.mem_inFlight (h : Turn queue n n' q q') {handle : String} {m : Stored}
    (hm : (handle, m) ∈ q'.inFlight) :
    (handle, m) ∈ q.inFlight ∨ ∃ k, QueueStore.HandleStamp handle k ∧ n < k := by
  cases h with
  | shift h =>
    cases h with
    | keep hv hf => exact Or.inl (hf ▸ hm)
    | take hv k hk hk' =>
      rcases List.mem_append.mp hm with hm | hm
      · exact Or.inl hm
      · cases List.mem_singleton.mp hm
        exact Or.inr ⟨k, ⟨_, _, rfl⟩, hk⟩
    | append k hm' hk hk' => exact Or.inl hm
    | release hm' => exact Or.inl (List.mem_of_mem_eraseP hm)
    | expire => cases hm
  | remove hm' => exact Or.inl (List.mem_of_mem_eraseP hm)
  | empty => cases hm

theorem Turn.ids (h : Turn queue n n' q q') :
    QueueStore.Grown QueueStore.IdStamp n n' (q.messages.map (·.id)) (q'.messages.map (·.id)) := by
  cases h with
  | shift h =>
    rcases h.letters (f := (·.id)) (fun _ => rfl) with hp | ⟨m, k, hm, hk, hk', hp⟩
    · exact Or.inl hp.subperm
    · exact Or.inr ⟨m.id, k, hm, hk, hk', hp.subperm⟩
  | remove hm => exact Or.inl (((List.eraseP_sublist.map _).append_left _).map _).subperm
  | empty => exact Or.inl List.nil_subperm

end Turn

end QueueState

namespace QueueStore
variable {s t u : QueueStore}

/-- From `s` to `t` at most one queue changes, in a way that `R` describes. -/
def Moves (R : String → Nat → Nat → QueueState → QueueState → Prop) (s t : QueueStore) : Prop :=
  s.lastId ≤ t.lastId ∧ (t.queues = s.queues ∨
    ∃ queue q, t.queues = s.queues.put queue q ∧ R queue s.lastId t.lastId (s.state queue) q)

/-- From `s` to `t` queues change, one after the other, and no message is removed. -/
abbrev Shifts : QueueStore → QueueStore → Prop := Relation.ReflTransGen (Moves QueueState.Shift)

/-- From `s` to `t` queues change, one after the other. -/
abbrev Turns : QueueStore → QueueStore → Prop := Relation.ReflTransGen (Moves QueueState.Turn)

theorem Shifts.turns (h : Shifts s t) : Turns s t := by
  refine Relation.ReflTransGen.mono (fun a b hab => ?_) s t h
  obtain ⟨hn, heq | ⟨queue, q, heq, hq⟩⟩ := hab
  · exact ⟨hn, Or.inl heq⟩
  · exact ⟨hn, Or.inr ⟨queue, q, heq, .shift hq⟩⟩

theorem Quiet.moves {R : String → Nat → Nat → QueueState → QueueState → Prop} (h : Quiet s t) : Moves R s t :=
  ⟨h.lastId, Or.inl h.queues⟩

theorem Puts.moves {R : String → Nat → Nat → QueueState → QueueState → Prop} {queue : String} {q : QueueState}
    (h : Puts s t queue q) (hR : R queue s.lastId t.lastId (s.state queue) q) : Moves R s t :=
  ⟨h.lastId, Or.inr ⟨queue, q, h.queues, hR⟩⟩

/-! ## What every change keeps -/

def messages (s : QueueStore) : List Stored := s.queues.flatMap fun e => e.2.messages

def handles (s : QueueStore) : List String := s.queues.flatMap fun e => e.2.handles

/-- The queues are in order, and ids and handles are pairwise different and made with numbers drawn so far. -/
structure Sound (s : QueueStore) : Prop where
  ordered : s.queues.Ordered
  ids : Stamped IdStamp s.lastId (s.messages.map (·.id))
  handles : Stamped HandleStamp s.lastId s.handles

theorem sound_empty : Sound {} := by
  refine ⟨Dict.ordered_nil, ⟨List.nodup_nil, ?_⟩, ⟨List.nodup_nil, ?_⟩⟩ <;> intro x hx <;> cases hx

/-- Texts collected from all queues change as those of the queue that changes. -/
theorem Moves.grown {R : String → Nat → Nat → QueueState → QueueState → Prop} {stamp : String → Nat → Prop}
    (hs : s.queues.Ordered) (h : Moves R s t) (f : QueueState → List String) (h₀ : f {} = [])
    (hf : ∀ queue q q', R queue s.lastId t.lastId q q' → Grown stamp s.lastId t.lastId (f q) (f q')) :
    Grown stamp s.lastId t.lastId (s.queues.flatMap fun e => f e.2) (t.queues.flatMap fun e => f e.2) := by
  obtain ⟨hn, heq | ⟨queue, q, heq, hR⟩⟩ := h
  · rw [heq]
    exact Or.inl (List.Subperm.refl _)
  · obtain ⟨before, after, hold, hnew⟩ := Dict.flatMap_put hs (fun e => f e.2) queue {} h₀
    rw [heq, hold, hnew]
    exact (hf queue _ _ hR).inside before after

theorem messages_map_id (s : QueueStore) :
    s.messages.map (·.id) = s.queues.flatMap fun e => e.2.messages.map (·.id) := List.map_flatMap

theorem Sound.turn (hs : Sound s) (h : Moves QueueState.Turn s t) : Sound t := by
  refine ⟨?_, ?_, ?_⟩
  · obtain ⟨_, heq | ⟨queue, q, heq, _⟩⟩ := h
    · exact heq ▸ hs.ordered
    · exact heq ▸ Dict.ordered_put hs.ordered queue q
  · have hg := h.grown hs.ordered (fun q => q.messages.map (·.id)) rfl (fun _ _ _ hR => hR.ids)
    rw [messages_map_id]
    exact (messages_map_id s ▸ hs.ids).grown idStamp_unique h.1 hg
  · exact hs.handles.grown handleStamp_unique h.1 (h.grown hs.ordered _ rfl (fun _ _ _ hR => hR.handles))

theorem Turns.sound (hs : Sound s) (h : Turns s t) : Sound t := by
  induction h with
  | refl => exact hs
  | tail _ h ih => exact ih.turn h

theorem get?_of_mem_messages {queue : String} {m : Stored} (h : m ∈ (s.state queue).messages) :
    s.queues.get? queue = some (s.state queue) := by
  cases hq : s.queues.get? queue with
  | some q => rw [state_of_get? hq]
  | none =>
    rw [state_of_none hq] at h
    cases h

theorem Sound.ids_nodup (hs : Sound s) (queue : String) : ((s.state queue).messages.map (·.id)).Nodup := by
  have hids := messages_map_id s ▸ hs.ids.distinct
  cases hq : s.queues.get? queue with
  | none =>
    rw [state_of_none hq]
    exact List.nodup_nil
  | some q =>
    rw [state_of_get? hq]
    exact (List.nodup_flatMap.mp hids).1 (queue, q) (Dict.mem_of_get? hq)

theorem Sound.handles_nodup (hs : Sound s) (queue : String) : (s.state queue).handles.Nodup := by
  cases hq : s.queues.get? queue with
  | none =>
    rw [state_of_none hq]
    exact List.nodup_nil
  | some q =>
    rw [state_of_get? hq]
    exact (List.nodup_flatMap.mp hs.handles.distinct).1 (queue, q) (Dict.mem_of_get? hq)

/-- A receipt handle was issued, and what is in flight under it on a queue has a payload. -/
structure Bound (s : QueueStore) (queue handle : String) (x : Payload) : Prop where
  issued : ∃ k ≤ s.lastId, HandleStamp handle k
  held : ∀ m, (handle, m) ∈ (s.state queue).inFlight → m.payload = x

theorem Bound.turn {queue handle : String} {x : Payload} (hb : Bound s queue handle x)
    (h : Moves QueueState.Turn s t) : Bound t queue handle x := by
  obtain ⟨k, hk, hh⟩ := hb.issued
  refine ⟨⟨k, Nat.le_trans hk h.1, hh⟩, fun m hm => ?_⟩
  obtain ⟨_, heq | ⟨queue', q, heq, hR⟩⟩ := h
  · rw [state_congr heq] at hm
    exact hb.held m hm
  · rw [state_put heq] at hm
    split at hm
    · next hqueue =>
      rw [← hqueue] at hR
      rcases hR.mem_inFlight hm with hm | ⟨j, hj, hlt⟩
      · exact hb.held m hm
      · -- a handle issued before is none of those made now
        have := handleStamp_unique handle k j hh hj
        omega
    · exact hb.held m hm

theorem Turns.bound {queue handle : String} {x : Payload} (h : Turns s t) (hb : Bound s queue handle x) :
    Bound t queue handle x := by
  induction h with
  | refl => exact hb
  | tail _ h ih => exact ih.turn h

end QueueStore

end DeadLetter

import DeadLetter.Proofs.Routine.Interleaving
import DeadLetter.Proofs.Service.Transfer
import Mathlib.Algebra.BigOperators.Fin
import Mathlib.Algebra.Order.Group.Multiset

/-!
# What retries that run at once have done so far

While no call fails, several retries take messages from the front of one dead letter queue, each puts a copy on the main
queue and removes what it took. `Ledger` accounts for every message taken: it is at some retry's hand or among those it
has moved, it is in flight as long as it is at hand, and it has its copy once that was sent. Receiving, sending and
deleting keep the accounts (`Ledger.receive`, `Ledger.send`, `Ledger.delete`).
-/

namespace DeadLetter

set_option autoImplicit false

open QueueStore

/-- What tells messages apart and what they say. -/
def Stored.key (m : Stored) : String × Payload := (m.id, m.payload)

def Received.key (m : Received) : String × Payload := (m.id, m.payload)

namespace Transfer

/-- The message at hand, if there is one. -/
def hands (s : Transfer) : Multiset Received :=
  match s.hand with
  | .free => 0
  | .holding _ m | .sent _ m => {m}

/-- The messages that a retry took: those moved and the one at hand. -/
def taken (s : Transfer) : Multiset (String × Payload) := (↑s.moved + s.hands).map Received.key

/-- What a retry sent: copies of those moved and, after its send, of the one at hand. -/
def copied (s : Transfer) : Multiset Payload :=
  match s.hand with
  | .sent _ m => (↑s.moved : Multiset Received).map Received.payload + {m.payload}
  | _ => (↑s.moved : Multiset Received).map Received.payload

end Transfer

/-- The accounts of retries: what they took, what is in flight because of them, and what they put on the main queue. -/
structure Ledger (d₀ m₀ : QueueState) {n : Nat} (ss : Fin n → Transfer) (d m : QueueState) (taken : List Stored)
    (pending : List (String × Stored)) (copies : List Stored) : Prop where
  visible : d₀.visible = taken ++ d.visible
  inFlight : d.inFlight = d₀.inFlight ++ pending
  main : m.visible = m₀.visible ++ copies
  hands : (↑(pending.map fun e => e.2.deliver e.1) : Multiset Received) = ∑ i, (ss i).hands
  taken : (↑(taken.map Stored.key) : Multiset (String × Payload)) = ∑ i, (ss i).taken
  copied : (↑(copies.map Stored.payload) : Multiset Payload) = ∑ i, (ss i).copied

section Ledger
variable {d₀ m₀ d m : QueueState} {n : Nat} {ss : Fin n → Transfer} {taken : List Stored}
  {pending : List (String × Stored)} {copies : List Stored} {i : Fin n} {st : Transfer}

/-- A total changes as what one state contributes to it. -/
theorem eq_sum_update {β : Type} (g : Transfer → Multiset β) {l l' : Multiset β} (h : l = ∑ j, g (ss j))
    (hl : l' + g (ss i) = l + g st) : l' = ∑ j, g (Function.update ss i st j) := by
  have hsum := sum_update g ss i st
  rw [← h, ← hl] at hsum
  exact (add_right_cancel hsum).symm

theorem Ledger.receive (h : Ledger d₀ m₀ ss d m taken pending copies) {url handle : String} {moved : List Received}
    {x : Stored} {rest : List Stored} (hi : ss i = ⟨.free, moved⟩) (hv : d.visible = x :: rest) :
    Ledger d₀ m₀ (Function.update ss i ⟨.holding url (x.delivered.deliver handle), moved⟩)
      (QueueStore.taken d rest handle x) m (taken ++ [x]) (pending ++ [(handle, x.delivered)]) copies where
  visible := by
    rw [h.visible, hv, QueueStore.taken, List.append_assoc, List.singleton_append]
  inFlight := by
    rw [QueueStore.taken, h.inFlight, List.append_assoc]
  main := h.main
  hands := by
    refine eq_sum_update Transfer.hands h.hands ?_
    rw [hi, List.map_append, ← Multiset.coe_add]
    exact add_zero _
  taken := by
    refine eq_sum_update Transfer.taken h.taken ?_
    rw [hi]
    have hkey : (x.delivered.deliver handle).key = x.key := rfl
    simp only [Transfer.taken, Transfer.hands, Multiset.map_add, Multiset.map_singleton, hkey, List.map_append,
      List.map_cons, List.map_nil, ← Multiset.coe_add, Multiset.coe_singleton, add_zero]
    ac_rfl
  copied := by
    refine eq_sum_update Transfer.copied h.copied ?_
    rw [hi]
    rfl

theorem Ledger.send (h : Ledger d₀ m₀ ss d m taken pending copies) {url : String} {moved : List Received}
    {r : Received} {x : Stored} (hi : ss i = ⟨.holding url r, moved⟩) (hx : x.payload = r.payload) :
    Ledger d₀ m₀ (Function.update ss i ⟨.sent url r, moved⟩) d (appended m x) taken pending (copies ++ [x]) where
  visible := h.visible
  inFlight := h.inFlight
  main := by
    rw [appended, h.main, List.append_assoc]
  hands := by
    refine eq_sum_update Transfer.hands h.hands ?_
    rw [hi]
    rfl
  taken := by
    refine eq_sum_update Transfer.taken h.taken ?_
    rw [hi]
    rfl
  copied := by
    refine eq_sum_update Transfer.copied h.copied ?_
    rw [hi]
    simp only [Transfer.copied, List.map_append, List.map_cons, List.map_nil, ← Multiset.coe_add,
      Multiset.coe_singleton, hx]
    ac_rfl

/-- What a retry has at hand is in flight under its handle, because of that retry. -/
theorem Ledger.mem_pending (h : Ledger d₀ m₀ ss d m taken pending copies) {r : Received}
    (hr : r ∈ (ss i).hands) : ∃ x, (r.handle, x) ∈ pending ∧ x.deliver r.handle = r := by
  have hmem : r ∈ ∑ j, (ss j).hands := Multiset.mem_sum.mpr ⟨i, Finset.mem_univ i, hr⟩
  rw [← h.hands, Multiset.mem_coe] at hmem
  obtain ⟨⟨handle, x⟩, hx, rfl⟩ := List.mem_map.mp hmem
  exact ⟨x, hx, rfl⟩

/-- Deleting under the handle of a message that is in flight because of a retry removes that message. -/
theorem Ledger.eraseP_eq (h : Ledger d₀ m₀ ss d m taken pending copies) (hd : d.handles.Nodup) {handle : String}
    {x : Stored} (hx : (handle, x) ∈ pending) :
    d.inFlight.eraseP (·.1 == handle) = d₀.inFlight ++ pending.eraseP (·.1 == handle) ∧
      pending.Perm ((handle, x) :: pending.eraseP (·.1 == handle)) := by
  rw [QueueState.handles, h.inFlight, List.map_append] at hd
  obtain ⟨_, hpending, hdisjoint⟩ := List.nodup_append.mp hd
  have hmem : handle ∈ pending.map (·.1) := List.mem_map.mpr ⟨_, hx, rfl⟩
  refine ⟨?_, ?_⟩
  · -- what was in flight before has other handles
    rw [h.inFlight, List.eraseP_append_right]
    intro e he heq
    exact hdisjoint e.1 (List.mem_map.mpr ⟨e, he, rfl⟩) handle hmem (beq_iff_eq.mp heq)
  · exact perm_of_lookup (lookup_of_mem hpending hx)

theorem Ledger.delete (h : Ledger d₀ m₀ ss d m taken pending copies) (hd : d.handles.Nodup) {url : String}
    {moved : List Received} {r : Received} (hi : ss i = ⟨.sent url r, moved⟩) :
    Ledger d₀ m₀ (Function.update ss i ⟨.free, moved ++ [r]⟩) (removed d r.handle) m taken
      (pending.eraseP (·.1 == r.handle)) copies := by
  obtain ⟨x, hx, hr⟩ := h.mem_pending (i := i) (r := r) (by rw [hi]; exact Multiset.mem_singleton_self r)
  obtain ⟨herase, hperm⟩ := h.eraseP_eq hd hx
  refine ⟨h.visible, herase, h.main, ?_, ?_, ?_⟩
  · refine eq_sum_update Transfer.hands h.hands ?_
    rw [hi, Multiset.coe_eq_coe.mpr (hperm.map fun e => e.2.deliver e.1), List.map_cons, hr, ← Multiset.cons_coe,
      ← Multiset.singleton_add, add_comm]
    exact (add_zero _).symm
  · refine eq_sum_update Transfer.taken h.taken ?_
    rw [hi]
    simp only [Transfer.taken, Transfer.hands, ← Multiset.coe_add, Multiset.coe_singleton, add_zero]
  · refine eq_sum_update Transfer.copied h.copied ?_
    rw [hi]
    simp only [Transfer.copied, ← Multiset.coe_add, Multiset.coe_singleton, Multiset.map_add, Multiset.map_singleton]

/-- When no retry has a message at hand, nothing is in flight because of them, and what they took is what they moved and
what they copied. -/
theorem Ledger.settled (h : Ledger d₀ m₀ ss d m taken pending copies) (hfree : ∀ i, (ss i).hand = .free) :
    pending = [] ∧ (copies.map Stored.payload).Perm (taken.map Stored.payload) ∧
      (↑(taken.map Stored.key) : Multiset (String × Payload)) =
        ∑ i, (↑(ss i).moved : Multiset Received).map Received.key := by
  have hhands (i : Fin n) : (ss i).hands = 0 := by
    unfold Transfer.hands
    rw [hfree i]
  have htaken (i : Fin n) : (ss i).taken = (↑(ss i).moved : Multiset Received).map Received.key := by
    rw [Transfer.taken, hhands i, add_zero]
  have hcopied (i : Fin n) : (ss i).copied = (ss i).taken.map Prod.snd := by
    rw [htaken i, Multiset.map_map]
    unfold Transfer.copied
    rw [hfree i]
    rfl
  refine ⟨?_, ?_, ?_⟩
  · have hpending := h.hands
    rw [Finset.sum_congr rfl fun i _ => hhands i, Finset.sum_const_zero] at hpending
    exact List.map_eq_nil_iff.mp (Multiset.coe_eq_zero _ |>.mp hpending)
  · rw [← Multiset.coe_eq_coe, h.copied, Finset.sum_congr rfl fun i _ => hcopied i,
      ← Multiset.coe_mapAddMonoidHom, ← map_sum, ← h.taken, Multiset.coe_mapAddMonoidHom, Multiset.map_coe,
      List.map_map]
    rfl
  · rw [h.taken]
    exact Finset.sum_congr rfl fun i _ => htaken i

end Ledger

end DeadLetter

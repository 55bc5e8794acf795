import DeadLetter.Proofs.Text.Digits
import DeadLetter.Provider.QueueStore
import Mathlib.Data.List.Perm.Subperm

/-!
# Numbers in message ids and receipt handles

Every id and every handle ends in the number it was made with, so two that were made with different numbers differ:
`messageId_inj`, `number_of_handleOf`. `Stamped stamp n l` : the texts of `l` are pairwise different and each was made
with a number up to `n`. Taking texts away and adding one with a number past `n` keeps it (`Stamped.grown`).
-/

namespace DeadLetter

set_option autoImplicit false

namespace QueueStore

theorem messageId_inj {n k : Nat} (h : messageId n = messageId k) : n = k := by
  apply Text.natText_inj
  rw [messageId, messageId] at h
  have := congrArg String.toList h
  rw [String.toList_append, String.toList_append] at this
  exact String.toList_inj.mp (List.append_cancel_left this)

theorem afterLast_handleOf (queue id : String) (n : Nat) :
    Text.afterLast '-' (handleOf queue id n) = Text.natText n := by
  rw [handleOf, show ("-" : String) = String.singleton '-' from rfl, Text.afterLast_append,
    Text.afterLast_eq_self _ _ (Text.dash_notMem_natText n)]

theorem number_of_handleOf {queue id queue' id' : String} {n k : Nat}
    (h : handleOf queue id n = handleOf queue' id' k) : n = k := by
  have := congrArg (Text.afterLast '-') h
  rw [afterLast_handleOf, afterLast_handleOf] at this
  exact Text.natText_inj this

/-- Whether a message id was made with a number. -/
def IdStamp (id : String) (n : Nat) : Prop := id = messageId n

/-- Whether a receipt handle was made with a number. -/
def HandleStamp (handle : String) (n : Nat) : Prop := ∃ queue id, handle = handleOf queue id n

theorem idStamp_unique (id : String) (n k : Nat) (h : IdStamp id n) (h' : IdStamp id k) : n = k :=
  messageId_inj (h.symm.trans h')

theorem handleStamp_unique (handle : String) (n k : Nat) (h : HandleStamp handle n) (h' : HandleStamp handle k) :
    n = k := by
  obtain ⟨_, _, h⟩ := h
  obtain ⟨_, _, h'⟩ := h'
  exact number_of_handleOf (h.symm.trans h')

/-- The texts of a list are pairwise different, and each was made with a number up to `n`. -/
structure Stamped (stamp : String → Nat → Prop) (n : Nat) (l : List String) : Prop where
  distinct : l.Nodup
  made : ∀ x ∈ l, ∃ k ≤ n, stamp x k

section Stamped
variable {stamp : String → Nat → Prop} {n n' : Nat} {l l' : List String}

theorem Stamped.subperm (h : Stamped stamp n l) (hs : l'.Subperm l) (hn : n ≤ n') : Stamped stamp n' l' := by
  refine ⟨?_, fun x hx => ?_⟩
  · obtain ⟨l₁, hp, hs⟩ := hs
    exact hp.nodup (h.distinct.sublist hs)
  · obtain ⟨k, hk, hx⟩ := h.made x (hs.subset hx)
    exact ⟨k, Nat.le_trans hk hn, hx⟩

theorem Stamped.notMem (hu : ∀ x n k, stamp x n → stamp x k → n = k) (h : Stamped stamp n l) {x : String} {k : Nat}
    (hx : stamp x k) (hk : n < k) : x ∉ l := by
  intro hmem
  obtain ⟨j, hj, hxj⟩ := h.made x hmem
  have := hu x k j hx hxj
  omega

/-- From `l` to `l'` texts are taken away, and one made with a number past `n` and up to `n'` may be added. -/
def Grown (stamp : String → Nat → Prop) (n n' : Nat) (l l' : List String) : Prop :=
  l'.Subperm l ∨ ∃ x k, stamp x k ∧ n < k ∧ k ≤ n' ∧ l'.Subperm (x :: l)

theorem Grown.inside (h : Grown stamp n n' l l') (before after : List String) :
    Grown stamp n n' (before ++ (l ++ after)) (before ++ (l' ++ after)) := by
  rcases h with h | ⟨x, k, hx, hk, hk', h⟩
  · exact Or.inl ((List.subperm_append_left before).mpr ((List.subperm_append_right after).mpr h))
  · refine Or.inr ⟨x, k, hx, hk, hk', ?_⟩
    have h' : (before ++ (l' ++ after)).Subperm (before ++ (x :: (l ++ after))) :=
      (List.subperm_append_left before).mpr ((List.subperm_append_right after).mpr h)
    exact h'.trans List.perm_middle.subperm

theorem Stamped.grown (hu : ∀ x n k, stamp x n → stamp x k → n = k) (h : Stamped stamp n l) (hn : n ≤ n')
    (hg : Grown stamp n n' l l') : Stamped stamp n' l' := by
  rcases hg with hs | ⟨x, k, hx, hk, hk', hs⟩
  · exact h.subperm hs hn
  · have hcons : Stamped stamp n' (x :: l) := by
      refine ⟨List.nodup_cons.mpr ⟨h.notMem hu hx hk, h.distinct⟩, fun y hy => ?_⟩
      rcases List.mem_cons.mp hy with rfl | hy
      · exact ⟨k, hk', hx⟩
      · obtain ⟨j, hj, hy⟩ := h.made y hy
        exact ⟨j, by omega, hy⟩
    exact hcons.subperm hs (Nat.le_refl _)

end Stamped

/-! ## Addresses -/

/-- The queue that the URL of a name addresses. -/
def addressed (name : String) : String := queueNameOfUrl (urlOf name)

/-- A name without a slash is the name of the queue it addresses. -/
theorem addressed_of_notMem {name : String} (h : '/' ∉ name.toList) : addressed name = name := by
  have hurl : urlOf name = "http://localhost:4566/" ++ account ++ .singleton '/' ++ name := rfl
  rw [addressed, queueNameOfUrl, hurl, Text.afterLast_append, Text.afterLast_eq_self _ _ h]

end QueueStore

end DeadLetter

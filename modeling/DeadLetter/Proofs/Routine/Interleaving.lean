import DeadLetter.Proofs.Provider.Reachable
import DeadLetter.Proofs.Service.Lookup
import Mathlib.Algebra.BigOperators.Group.Finset.Piecewise

/-!
# Routines that run at once

`Pool.Interleaving` : several routines share a world and take turns, one action at a time, in any order; between actions
the messages in flight on a queue may become visible. In a smooth interleaving that does not happen, and all calls are
answered; routines that take turns in a given order make one (`Pool.Interleaving.of_turns`).
`Pool.Interleaving.keeps` : what each step keeps of the routines' protocols holds after any interleaving.
-/

namespace DeadLetter

set_option autoImplicit false

/-- Several routines and the world they share. -/
structure Pool (n : Nat) (α : Type) where
  routines : Fin n → Routine α
  world : World

namespace Pool
variable {n : Nat} {α σ : Type}

/-- One routine performs its next action, or the messages in flight on a queue become visible. -/
inductive Step (queue : String) (smooth : Prop) : Pool n α → Pool n α → Prop
  | advance {rs : Fin n → Routine α} {w : World} {i : Fin n} {a : Action} {next : a.Reply → Routine α}
      (hi : rs i = .act a next) (ha : smooth → a.Answered (w.perform a).1) :
      Step queue smooth ⟨rs, w⟩ ⟨Function.update rs i (next (w.perform a).1), (w.perform a).2⟩
  | expire {rs : Fin n → Routine α} {w : World} (hs : ¬ smooth) :
      Step queue smooth ⟨rs, w⟩ ⟨rs, { w with provider := (Memory.Control.expire queue).apply w.provider }⟩

abbrev Interleaving (queue : String) (smooth : Prop) : Pool n α → Pool n α → Prop :=
  Relation.ReflTransGen (Step queue smooth)

/-- The next action of one routine, if it has one and a call is answered. -/
def advance? (x : Pool n α) (i : Fin n) : Option (Pool n α) :=
  match x.routines i with
  | .done _ => none
  | .act a next =>
    if a.Answered (x.world.perform a).1 then
      some ⟨Function.update x.routines i (next (x.world.perform a).1), (x.world.perform a).2⟩
    else none

theorem Step.of_advance? {queue : String} {smooth : Prop} {x y : Pool n α} {i : Fin n} (h : x.advance? i = some y) :
    Step queue smooth x y := by
  unfold advance? at h
  split at h
  · cases h
  · next a next hi =>
    split at h
    · next ha =>
      cases h
      exact .advance hi fun _ => ha
    · cases h

theorem exists_done_of_step? {r : Routine α} {w : World} (h : (r.step? w).isNone) : ∃ o, r = .done o := by
  cases r with
  | done o => exact ⟨o, rfl⟩
  | act a next => cases h

/-- Routines that take turns in a given order are interleaved. -/
theorem Interleaving.of_turns {queue : String} {smooth : Prop} {x y : Pool n α} {turns : List (Fin n)}
    (h : turns.foldlM advance? x = some y) : Interleaving queue smooth x y := by
  induction turns generalizing x with
  | nil =>
    cases h
    exact .refl
  | cons i turns ih =>
    obtain ⟨x', hx', h⟩ := Option.bind_eq_some_iff.mp h
    exact .head (.of_advance? hx') (ih h)

/-- An invariant of protocols and world that single steps keep holds after any interleaving. -/
theorem Interleaving.keeps {queue : String} {smooth : Prop} {x y : Pool n α} {P : Fin n → Protocol σ}
    {I : (Fin n → σ) → World → Prop} {Q : Fin n → α → σ → Prop}
    (hadmits : ∀ ss w i a, I ss w → (smooth → a.Answered (w.perform a).1) → (P i).admits a (w.perform a).1)
    (hstep : ∀ ss w i a s', I ss w → (smooth → a.Answered (w.perform a).1) →
      (P i).step (ss i) a (w.perform a).1 s' → I (Function.update ss i s') (w.perform a).2)
    (hexpire : ∀ ss w, ¬ smooth → I ss w →
      I ss { w with provider := (Memory.Control.expire queue).apply w.provider })
    (h : Interleaving queue smooth x y) {ss : Fin n → σ}
    (hf : ∀ i, (P i).Follows (x.routines i) (ss i) (Q i)) (hi : I ss x.world) :
    ∃ ss', (∀ i, (P i).Follows (y.routines i) (ss' i) (Q i)) ∧ I ss' y.world := by
  induction h with
  | refl => exact ⟨ss, hf, hi⟩
  | tail _ hs ih =>
    obtain ⟨ss', hf', hi'⟩ := ih
    cases hs with
    | @advance rs w i a next hnext ha =>
      obtain ⟨s', hs', hf''⟩ := Protocol.Follows.advance hf' hnext (hadmits ss' w i a hi' ha)
      exact ⟨_, hf'', hstep ss' w i a s' hi' ha hs'⟩
    | expire hsmooth => exact ⟨ss', hf', hexpire ss' _ hsmooth hi'⟩

end Pool

/-- When one state of many changes, a sum over all changes by what that state contributes. -/
theorem sum_update {ι σ M : Type} [Fintype ι] [DecidableEq ι] [AddCommMonoid M] (g : σ → M) (ss : ι → σ) (i : ι)
    (s : σ) : (∑ j, g (Function.update ss i s j)) + g (ss i) = (∑ j, g (ss j)) + g s := by
  have hupdate : (fun j => g (Function.update ss i s j)) = Function.update (fun j => g (ss j)) i (g s) := by
    funext j
    by_cases hj : j = i
    · rw [hj, Function.update_self, Function.update_self]
    · rw [Function.update_of_ne hj, Function.update_of_ne hj]
  rw [hupdate, Finset.sum_update_of_mem (Finset.mem_univ i),
    Finset.sum_eq_add_sum_sdiff_singleton_of_mem (Finset.mem_univ i) (fun j => g (ss j))]
  ac_rfl

end DeadLetter

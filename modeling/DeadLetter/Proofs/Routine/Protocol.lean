import DeadLetter.Provider.Routine
import Mathlib.Logic.Function.Basic

/-!
# Protocols

A `Protocol` has a state for each routine that runs under it: `admits` is what the routine may rely on in a reply,
`step` what it may do next and what that makes of the state. `Follows r s P` : under admitted replies `r` only takes
steps of the protocol, from state `s`, and ends with `P`. `Follows.bind` composes; `Follows.run` : an invariant that
single steps keep holds after a whole run; `Follows.advance` : the same for one step of one routine among many.
-/

namespace DeadLetter

set_option autoImplicit false

/-- What routines may rely on and what they may do, with a state that their steps change. -/
structure Protocol (σ : Type) where
  admits : (a : Action) → a.Reply → Prop
  step : σ → (a : Action) → a.Reply → σ → Prop

namespace Protocol
variable {σ α β : Type} {P : Protocol σ}

/-- The routine keeps to the protocol from a state on, and a condition holds when it is done. -/
def Follows (P : Protocol σ) : Routine α → σ → (α → σ → Prop) → Prop
  | .done a, s, Q => Q a s
  | .act a next, s, Q => ∀ r, P.admits a r → ∃ s', P.step s a r s' ∧ P.Follows (next r) s' Q

theorem Follows.pure {a : α} {s : σ} {Q : α → σ → Prop} (h : Q a s) : P.Follows (Pure.pure a : Routine α) s Q := h

theorem Follows.perform {a : Action} {s : σ} {Q : a.Reply → σ → Prop}
    (h : ∀ r, P.admits a r → ∃ s', P.step s a r s' ∧ Q r s') : P.Follows (Routine.perform a) s Q := h

theorem Follows.mono {r : Routine α} {s : σ} {Q Q' : α → σ → Prop} (h : P.Follows r s Q)
    (hQ : ∀ a s', Q a s' → Q' a s') : P.Follows r s Q' := by
  induction r generalizing s with
  | done a => exact hQ a s h
  | act a next ih =>
    intro r hr
    obtain ⟨s', hs, h⟩ := h r hr
    exact ⟨s', hs, ih r h⟩

theorem Follows.bind {r : Routine α} {f : α → Routine β} {s : σ} {Q : α → σ → Prop} {Q' : β → σ → Prop}
    (h : P.Follows r s Q) (hf : ∀ a s', Q a s' → P.Follows (f a) s' Q') : P.Follows (r >>= f) s Q' := by
  show P.Follows (r.bind f) s Q'
  induction r generalizing s with
  | done a => exact hf a s h
  | act a next ih =>
    intro r hr
    obtain ⟨s', hs, h⟩ := h r hr
    exact ⟨s', hs, ih r h⟩

/-- A condition on the outcome of an attempt: one for a value, one for a failure. -/
def outcome (Q : α → σ → Prop) (E : QueueError → σ → Prop) : Except QueueError α → σ → Prop
  | .ok a, s => Q a s
  | .error e, s => E e s

theorem Follows.attempt {x : Attempt α} {f : α → Attempt β} {s : σ} {Q : α → σ → Prop} {E : QueueError → σ → Prop}
    {Q' : Except QueueError β → σ → Prop} (h : P.Follows x.result s (outcome Q E))
    (hf : ∀ a s', Q a s' → P.Follows (f a).result s' Q') (he : ∀ e s', E e s' → Q' (.error e) s') :
    P.Follows (x >>= f).result s Q' := by
  refine Follows.bind (r := x.result) (f := ExceptT.bindCont f) h ?_
  intro o s' ho
  cases o with
  | ok a => exact hf a s' ho
  | error e => exact he e s' ho

theorem Follows.lift {r : Routine α} {s : σ} {Q : α → σ → Prop} {E : QueueError → σ → Prop}
    (h : P.Follows r s Q) : P.Follows (Attempt.result (ExceptT.lift r)) s (outcome Q E) := by
  refine Follows.bind (r := r) (f := fun a => Routine.done (Except.ok a)) h ?_
  intro a s' ha
  exact Follows.pure ha

/-- An invariant that single steps keep holds after a run. -/
theorem Follows.run {I : σ → World → Prop}
    (hadmits : ∀ s w a, I s w → P.admits a (w.perform a).1)
    (hstep : ∀ s w a s', I s w → P.step s a (w.perform a).1 s' → I s' (w.perform a).2)
    {r : Routine α} {s : σ} {w : World} {Q : α → σ → Prop} (h : P.Follows r s Q) (hi : I s w) :
    ∃ s', Q (r.run w).1 s' ∧ I s' (r.run w).2 := by
  induction r generalizing s w with
  | done a => exact ⟨s, h, hi⟩
  | act a next ih =>
    obtain ⟨s', hs, h⟩ := h _ (hadmits s w a hi)
    exact ih _ h (hstep s w a s' hi hs)

/-- One of several routines takes a step: it does so by its protocol, and each still keeps to its own. -/
theorem Follows.advance {ι : Type} [DecidableEq ι] {P : ι → Protocol σ} {rs : ι → Routine α} {ss : ι → σ}
    {Q : ι → α → σ → Prop} (h : ∀ i, (P i).Follows (rs i) (ss i) (Q i)) {i : ι} {a : Action}
    {next : a.Reply → Routine α} {r : a.Reply} (hi : rs i = .act a next) (hr : (P i).admits a r) :
    ∃ s', (P i).step (ss i) a r s' ∧
      ∀ j, (P j).Follows (Function.update rs i (next r) j) (Function.update ss i s' j) (Q j) := by
  have hfollows := h i
  rw [hi] at hfollows
  obtain ⟨s', hs, hnext⟩ := hfollows r hr
  refine ⟨s', hs, fun j => ?_⟩
  by_cases hj : j = i
  · subst hj
    rw [Function.update_self, Function.update_self]
    exact hnext
  · rw [Function.update_of_ne hj, Function.update_of_ne hj]
    exact h j

end Protocol

end DeadLetter

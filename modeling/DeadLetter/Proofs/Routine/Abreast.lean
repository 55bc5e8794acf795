import DeadLetter.Proofs.Routine.Journal

/-!
# Two runs side by side

`Abreast I x x' Q` : run in two worlds that `I` relates, `x` and `x'` end with results and worlds that `Q` relates.
`Abreast.bind` and `Abreast.attempt` compose; `alike` relates the outcomes of two attempts that either both succeed or
both fail.
-/

namespace DeadLetter

set_option autoImplicit false

/-- Run in related worlds, two routines end with related results in related worlds. -/
def Abreast {α β : Type} (I : World → World → Prop) (x : Routine α) (x' : Routine β)
    (Q : α → β → World → World → Prop) : Prop :=
  ∀ w w', I w w' → Q (x.run w).1 (x'.run w').1 (x.run w).2 (x'.run w').2

/-- Two attempts both succeed, with related values, or both fail. -/
def alike {α β : Type} (Q : α → β → World → World → Prop) (E : World → World → Prop) :
    Except QueueError α → Except QueueError β → World → World → Prop
  | .ok a, .ok b, w, w' => Q a b w w'
  | .error _, .error _, w, w' => E w w'
  | _, _, _, _ => False

namespace Abreast
variable {α β γ δ : Type} {I : World → World → Prop} {Q : α → β → World → World → Prop}
  {Q' : γ → δ → World → World → Prop}

theorem pure {a : α} {b : β} (h : ∀ w w', I w w' → Q a b w w') : Abreast I (Pure.pure a) (Pure.pure b) Q := h

theorem bind {x : Routine α} {x' : Routine β} {f : α → Routine γ} {f' : β → Routine δ} (h : Abreast I x x' Q)
    (hf : ∀ a b, Abreast (Q a b) (f a) (f' b) Q') : Abreast I (x >>= f) (x' >>= f') Q' := by
  intro w w' hi
  rw [Routine.run_bind, Routine.run_bind]
  exact hf _ _ _ _ (h w w' hi)

/-- A relation between the results that does not look at the worlds. -/
theorem bind_of {x : Routine α} {x' : Routine β} {f : α → Routine γ} {f' : β → Routine δ} {R : α → β → Prop}
    {J : World → World → Prop} (h : Abreast I x x' fun a b w w' => R a b ∧ J w w')
    (hf : ∀ a b, R a b → Abreast J (f a) (f' b) Q') : Abreast I (x >>= f) (x' >>= f') Q' :=
  bind h fun a b w w' hab => hf a b hab.1 w w' hab.2

theorem attempt {x : Attempt α} {x' : Attempt β} {f : α → Attempt γ} {f' : β → Attempt δ} {E : World → World → Prop}
    {Q' : Except QueueError γ → Except QueueError δ → World → World → Prop}
    (h : Abreast I x.result x'.result (alike Q E))
    (hf : ∀ a b, Abreast (Q a b) (f a).result (f' b).result Q')
    (he : ∀ e e' w w', E w w' → Q' (.error e) (.error e') w w') :
    Abreast I (x >>= f).result (x' >>= f').result Q' := by
  rw [Attempt.result_bind, Attempt.result_bind]
  refine Abreast.bind h ?_
  intro o o' w w' ho
  match o, o', ho with
  | .ok a, .ok b, ho => exact hf a b w w' ho
  | .error e, .error e', ho => exact he e e' w w' ho

theorem lift {x : Routine α} {x' : Routine β} {E : World → World → Prop} (h : Abreast I x x' Q) :
    Abreast I (Attempt.result (ExceptT.lift x)) (Attempt.result (ExceptT.lift x')) (alike Q E) := by
  rw [Attempt.result_lift, Attempt.result_lift]
  refine Abreast.bind h ?_
  intro a b w w' hab
  exact hab

end Abreast

end DeadLetter

import DeadLetter.Proofs.Provider.Reachable
import DeadLetter.Proofs.Routine.Protocol

/-!
# Runs and their journals

Routines are a lawful monad. The journal of a run lists its actions with the replies they got; routines in sequence have
theirs in sequence (`journal_bind`). Whatever a routine does, a run changes the queues by turns (`run_turns`) and keeps
the provider within the reachable states (`run_reachable`). `Follows.journal` : what single steps of a protocol show in
their entries, under an invariant that they keep, a whole run shows.
-/

namespace DeadLetter

set_option autoImplicit false

/-- An action with its reply. -/
structure Entry where
  action : Action
  reply : action.Reply

/-- Whether an entry is the confirmed deletion of what is in flight under a handle. -/
def Entry.confirms (handle : String) : Entry → Bool
  | ⟨.call (.delete _ deleted), .ok _⟩ => deleted = handle
  | _ => false

namespace Routine
variable {α β γ : Type}

theorem bind_done (r : Routine α) : r >>= .done = r := by
  show r.bind .done = r
  induction r with
  | done a => rfl
  | act a next ih => exact congrArg _ (funext ih)

theorem bind_assoc (r : Routine α) (f : α → Routine β) (g : β → Routine γ) :
    r >>= f >>= g = r >>= fun a => f a >>= g := by
  show (r.bind f).bind g = r.bind fun a => (f a).bind g
  induction r with
  | done a => rfl
  | act a next ih => exact congrArg _ (funext ih)

instance : LawfulMonad Routine := .mk' _ bind_done (fun _ _ => rfl) bind_assoc

/-- What a run does, with the replies. -/
def journal : Routine α → World → List Entry
  | .done _, _ => []
  | .act a next, w => ⟨a, (w.perform a).1⟩ :: (next (w.perform a).1).journal (w.perform a).2

theorem journal_bind (r : Routine α) (f : α → Routine β) (w : World) :
    (r >>= f).journal w = r.journal w ++ (f (r.run w).1).journal (r.run w).2 := by
  show (r.bind f).journal w = _
  induction r generalizing w with
  | done a => rfl
  | act a next ih => exact congrArg _ (ih _ _)

theorem run_turns (r : Routine α) (w : World) :
    QueueStore.Turns w.provider.queues (r.run w).2.provider.queues := by
  induction r generalizing w with
  | done a => exact .refl
  | act a next ih =>
    refine Relation.ReflTransGen.trans ?_ (ih _ _)
    cases a with
    | call c => exact Memory.perform_turns w.provider c
    | _ => exact .refl

theorem run_reachable (r : Routine α) {w : World} (h : w.provider.Reachable) :
    (r.run w).2.provider.Reachable := by
  induction r generalizing w with
  | done a => exact h
  | act a next ih =>
    refine ih _ ?_
    cases a with
    | call c => exact .call c h
    | _ => exact h

end Routine

theorem Protocol.Follows.journal {σ α : Type} {P : Protocol σ} {I : σ → World → Prop} {E : Entry → Prop}
    (hadmits : ∀ s w a, I s w → P.admits a (w.perform a).1)
    (hstep : ∀ s w a s', I s w → P.step s a (w.perform a).1 s' → I s' (w.perform a).2)
    (hentry : ∀ s w a s', I s w → P.step s a (w.perform a).1 s' → E ⟨a, (w.perform a).1⟩)
    {r : Routine α} {s : σ} {w : World} {Q : α → σ → Prop} (h : P.Follows r s Q) (hi : I s w) :
    ∀ e ∈ r.journal w, E e := by
  induction r generalizing s w with
  | done a =>
    intro e he
    cases he
  | act a next ih =>
    obtain ⟨s', hs, h⟩ := h _ (hadmits s w a hi)
    rw [Routine.journal]
    refine List.forall_mem_cons.mpr ⟨hentry s w a s' hi hs, ?_⟩
    exact ih _ h (hstep s w a s' hi hs)

namespace Attempt
variable {α β : Type}

theorem result_bind (x : Attempt α) (f : α → Attempt β) :
    (x >>= f).result = x.result >>= fun o : Except QueueError α => (ExceptT.bindCont f o : Routine _) := rfl

theorem result_lift (r : Routine α) :
    Attempt.result (ExceptT.lift r) = r >>= fun a => Routine.done (Except.ok a) := rfl

theorem run_facts (slot : Nat) (w : World) : (Attempt.facts slot).result.run w = (.ok (w.known slot), w) := rfl

/-- An attempt after another: it runs if the first succeeds. -/
theorem run_bind (x : Attempt α) (f : α → Attempt β) (w : World) :
    (x >>= f).result.run w =
      match x.result.run w with
      | (.ok a, w') => (f a).result.run w'
      | (.error e, w') => (.error e, w') := by
  refine (Routine.run_bind x.result (ExceptT.bindCont f) w).trans ?_
  rcases x.result.run w with ⟨o, w'⟩
  cases o <;> rfl

theorem run_bind_eq_ok {x : Attempt α} {f : α → Attempt β} {w w' : World} {b : β} :
    (x >>= f).result.run w = (.ok b, w') ↔
      ∃ a w₁, x.result.run w = (.ok a, w₁) ∧ (f a).result.run w₁ = (.ok b, w') := by
  rw [Attempt.run_bind]
  rcases x.result.run w with ⟨o, w₁⟩
  cases o with
  | ok a =>
    refine ⟨fun h => ⟨a, w₁, rfl, h⟩, ?_⟩
    rintro ⟨_, _, ⟨⟩, h⟩
    exact h
  | error e =>
    refine ⟨nofun, ?_⟩
    rintro ⟨_, _, ⟨⟩, _⟩

theorem run_bind_eq_error {x : Attempt α} {f : α → Attempt β} {w w' : World} {e : QueueError} :
    (x >>= f).result.run w = (.error e, w') ↔
      x.result.run w = (.error e, w') ∨
        ∃ a w₁, x.result.run w = (.ok a, w₁) ∧ (f a).result.run w₁ = (.error e, w') := by
  rw [Attempt.run_bind]
  rcases x.result.run w with ⟨o, w₁⟩
  cases o with
  | ok a =>
    refine ⟨fun h => Or.inr ⟨a, w₁, rfl, h⟩, ?_⟩
    rintro (⟨⟨⟩⟩ | ⟨_, _, ⟨⟩, h⟩)
    exact h
  | error e' =>
    constructor
    · rintro ⟨⟩
      exact Or.inl rfl
    · rintro (⟨⟨⟩⟩ | ⟨_, _, ⟨⟩, _⟩)
      rfl

theorem journal_bind (x : Attempt α) (f : α → Attempt β) (w : World) :
    (x >>= f).result.journal w = x.result.journal w ++
      match x.result.run w with
      | (.ok a, w') => (f a).result.journal w'
      | (.error _, _) => [] := by
  refine (Routine.journal_bind x.result (ExceptT.bindCont f) w).trans ?_
  rcases x.result.run w with ⟨o, w'⟩
  cases o <;> rfl

/-- An attempt whose value is only changed does nothing else. -/
theorem journal_map (x : Attempt α) (f : α → β) (w : World) :
    (x >>= fun a => pure (f a)).result.journal w = x.result.journal w := by
  rw [journal_bind]
  rcases x.result.run w with ⟨o, w'⟩
  cases o <;> exact List.append_nil _

theorem journal_call {c : Call} {w w' : World} {o : Except QueueError c.Reply}
    (h : (Attempt.call c).result.run w = (o, w')) : (Attempt.call c).result.journal w = [⟨.call c, o⟩] :=
  congrArg (fun o => [(⟨.call c, o⟩ : Entry)]) (congrArg Prod.fst h)

end Attempt

end DeadLetter

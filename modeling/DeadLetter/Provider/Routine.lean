import DeadLetter.Provider.World

/-!
# Routines

A routine is a tree of actions, each followed by what to do with its reply, so that one description can be run alone or
step by step next to others. `run_bind`: running one routine after another is running them in sequence.
-/

namespace DeadLetter

set_option autoImplicit false

/-- A sequence of actions, each of which may depend on the replies before it. -/
inductive Routine (α : Type) : Type where
  | done (value : α)
  | act (a : Action) (next : a.Reply → Routine α)

namespace Routine
variable {α β : Type}

def bind : Routine α → (α → Routine β) → Routine β
  | .done a, f => f a
  | .act a next, f => .act a fun r => (next r).bind f

instance : Monad Routine where
  pure := .done
  bind := bind

/-- The result of a routine that runs alone, and the world it leaves. -/
def run : Routine α → World → α × World
  | .done a, w => (a, w)
  | .act a next, w => (next (w.perform a).1).run (w.perform a).2

/-- One step of a routine, unless it is done. -/
def step? : Routine α → World → Option (Routine α × World)
  | .done _, _ => none
  | .act a next, w => some (next (w.perform a).1, (w.perform a).2)

def perform (a : Action) : Routine a.Reply := .act a .done

theorem run_perform (a : Action) (w : World) : (perform a).run w = w.perform a := rfl

theorem run_bind (r : Routine α) (f : α → Routine β) (w : World) :
    (r >>= f).run w = (f (r.run w).1).run (r.run w).2 := by
  show (r.bind f).run w = _
  induction r generalizing w with
  | done a => rfl
  | act a next ih => exact ih _ _

end Routine

abbrev Attempt (α : Type) : Type := ExceptT QueueError Routine α

namespace Attempt
variable {α : Type}

def call (c : Call) : Attempt c.Reply := ExceptT.mk (Routine.perform (.call c))

def facts (slot : Nat) : Attempt Known := ExceptT.lift (Routine.perform (.facts slot))

def learn (slot : Nat) (fact : Fact) : Attempt Unit := ExceptT.lift (Routine.perform (.learn slot fact))

def track (event : Event) : Attempt Unit := ExceptT.lift (Routine.perform (.track event))

def generateId : Attempt DeduplicationId := ExceptT.lift (Routine.perform .generateId)

/-- The result of an attempt as a value, failure included. -/
def result (a : Attempt α) : Routine (Except QueueError α) := a.run

end Attempt

end DeadLetter

import DeadLetter.Provider.Call

/-!
# Answers of AWS

A call fails if nobody answers, if the status is not one of success, or if the body cannot be read. The service itself
is at fault from status 500 on.
-/

namespace DeadLetter.Aws

set_option autoImplicit false

/-- What came back for a request. -/
inductive Answer where
  | noConnection
  | response (status : Nat) (body : String)
deriving DecidableEq, Repr

def isSuccess (status : Nat) : Bool := 200 ≤ status && status < 300

def statusFailure (op : Operation) (status : Nat) : QueueError :=
  .provider op.name ("status " ++ Text.natText status) (500 ≤ status)

/-- The failure of an operation that nobody answers. -/
def unanswered (op : Operation) : QueueError := .provider op.name "no connection" false

/-- What a successful answer says, if it can be read. -/
def Answer.read {α : Type} (op : Operation) (body? : String → Option α) : Answer → Except QueueError α
  | .noConnection => .error (unanswered op)
  | .response status body =>
    if isSuccess status then
      match body? body with
      | some a => .ok a
      | none => .error (.provider op.name "unreadable answer" false)
    else .error (statusFailure op status)

def required (op : Operation) (field : String) : Option String → Except QueueError String
  | some s => .ok s
  | none => .error (.missingField op.name field)

end DeadLetter.Aws

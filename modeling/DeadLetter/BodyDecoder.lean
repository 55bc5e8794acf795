import DeadLetter.Json.Draft

/-!
# Message bodies for reports

`decode` turns a body into the members of a JSON object. A body that is none is kept whole under one key. The policy
decides what becomes of numbers, at every depth; nothing else is changed.
-/

namespace DeadLetter

set_option autoImplicit false

/-- How the numbers of a body are reported. -/
inductive NumberPolicy where
  | longOrDouble
  | double
deriving DecidableEq, Repr, Inhabited

namespace NumberPolicy

def name : NumberPolicy → String
  | longOrDouble => "long_or_double"
  | double => "double"

def convert : NumberPolicy → Int → Json
  | longOrDouble, n => if -0x8000000000000000 ≤ n ∧ n ≤ 0x7FFFFFFFFFFFFFFF then .int n else .float (.ofInt n)
  | double, n => .float (.ofInt n)

mutual

def apply (p : NumberPolicy) : Json → Json
  | .int n => p.convert n
  | .array items => .array (applyItems p items)
  | .object members => .object (applyMembers p members)
  | v => v
termination_by structural v => v

def applyItems (p : NumberPolicy) : List Json → List Json
  | [] => []
  | v :: vs => apply p v :: applyItems p vs
termination_by structural vs => vs

def applyMembers (p : NumberPolicy) : List (String × Json) → List (String × Json)
  | [] => []
  | (k, v) :: ms => (k, apply p v) :: applyMembers p ms
termination_by structural ms => ms

end

end NumberPolicy

/-- The key under which a body is kept that is no JSON object. -/
def rawBodyKey : String := "rawBody"

/-- The body of a message as an object. -/
def decodeBody (p : NumberPolicy) (body : String) : Dict Json :=
  match Json.read? body with
  | some (.object members) => p.applyMembers members
  | _ => [(rawBodyKey, .string body)]

end DeadLetter

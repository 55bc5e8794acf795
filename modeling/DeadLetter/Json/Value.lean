import DeadLetter.Dict
import DeadLetter.Binary64

/-!
# JSON values

A number is an integer or a floating point number, and the two differ even where they are equal in size. The members of
an object are a `Dict`: their order is that of the keys, and each key occurs once.
-/

namespace DeadLetter

set_option autoImplicit false

/-- A JSON value. -/
inductive Json where
  | null
  | bool (b : Bool)
  | int (n : Int)
  | float (x : Binary64)
  | string (s : String)
  | array (items : List Json)
  | object (members : List (String × Json))
deriving Repr, BEq, Inhabited

namespace Json

def get? : Json → String → Option Json
  | .object members, k => Dict.get? members k
  | _, _ => none

def string? : Json → Option String
  | .string s => some s
  | _ => none

def array? : Json → Option (List Json)
  | .array items => some items
  | _ => none

def object? : Json → Option (Dict Json)
  | .object members => some members
  | _ => none

/-- An object of the members given, in any order. -/
def ofMembers (members : List (String × Json)) : Json := .object (Dict.ofList members)

/-- A text, or null. -/
def ofText? : Option String → Json
  | some s => .string s
  | none => .null

end Json

end DeadLetter

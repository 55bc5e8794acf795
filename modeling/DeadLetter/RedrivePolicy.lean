import DeadLetter.Json.Draft
import DeadLetter.Json.Printer

/-!
# Redrive policies

A redrive policy names the dead letter queue of a queue and how many deliveries a message has before it goes there.
`read?` takes the JSON text of a queue attribute, an object or the list of the two fields; the number may be written as
a number or as a string. Fields of other names may hold anything. `text` is the form in which a policy is written.
-/

namespace DeadLetter

set_option autoImplicit false

/-- Where messages go after their last delivery. -/
structure RedrivePolicy where
  target : String
  maxReceiveCount : Nat
deriving DecidableEq, Repr

namespace RedrivePolicy

open Json (Draft)

/-- The text that a field holds. -/
def textOf? : Draft → Option String
  | .string w => Json.decodeText? w
  | _ => none

/-- The number of at most 32 bits that a field holds, as a number or in a string. -/
def countOf? : Draft → Option Nat
  | .number w =>
    match Json.Numeral.read? w >>= Json.Numeral.toInt? with
    | some n => if 0 ≤ n ∧ n ≤ 0xFFFFFFFF then some n.toNat else none
    | none => none
  | .string w => Json.decodeText? w >>= Text.readNat? 0xFFFFFFFF
  | _ => none

/-- Reads the fields of an object, each at most once. -/
def ofMembers? : List (List Char × Draft) → Option String → Option Nat → Option RedrivePolicy
  | [], some target, some count => some ⟨target, count⟩
  | [], _, _ => none
  | (w, d) :: ms, target, count =>
    match Json.decodeText? w with
    | none => none
    | some k =>
      if k = "deadLetterTargetArn" then
        match target, textOf? d with
        | none, some s => ofMembers? ms (some s) count
        | _, _ => none
      else if k = "maxReceiveCount" then
        match count, countOf? d with
        | none, some n => ofMembers? ms target (some n)
        | _, _ => none
      else ofMembers? ms target count

def read? (s : String) : Option RedrivePolicy := do
  match ← Draft.read? s with
  | .object members => ofMembers? members none none
  | .array [target, count] => some ⟨← textOf? target, ← countOf? count⟩
  | _ => none

def text (p : RedrivePolicy) : String :=
  (Json.ofMembers [("deadLetterTargetArn", .string p.target),
    ("maxReceiveCount", .string (Text.natText p.maxReceiveCount))]).compact

end RedrivePolicy

end DeadLetter

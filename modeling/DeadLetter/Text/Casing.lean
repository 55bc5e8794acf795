import DeadLetter.Text.CasingTable

/-!
# Lower case

`lower` is the full lower-casing of Unicode: the simple mapping of each character, with the two exceptions that depend
on more than it. A capital İ becomes two characters, and a capital Σ at the end of a word becomes ς.
-/

namespace DeadLetter.Text

set_option autoImplicit false

namespace Casing

def within (ranges : List (Nat × Nat)) (c : Char) : Bool :=
  ranges.any fun r => r.1 ≤ c.toNat && c.toNat ≤ r.2

def lowerChar (c : Char) : Char :=
  match lowering.find? fun r => r.1 ≤ c.toNat && c.toNat ≤ r.2.1 && (c.toNat - r.1) % r.2.2.1 == 0 with
  | some r => .ofNat (c.toNat + r.2.2.2).toNat
  | none => c

/-- Whether the first character that case may not skip is a cased one. -/
def meetsCased (cs : List Char) : Bool :=
  match cs.dropWhile (within ignorable) with
  | [] => false
  | c :: _ => within cased c

/-- Lower-cases what follows `before`, which is held in reverse. -/
def lowerFrom (before : List Char) : List Char → List Char
  | [] => []
  | 'İ' :: cs => 'i' :: '\u0307' :: lowerFrom ('İ' :: before) cs
  | 'Σ' :: cs => (if meetsCased before && !meetsCased cs then 'ς' else 'σ') :: lowerFrom ('Σ' :: before) cs
  | c :: cs => lowerChar c :: lowerFrom (c :: before) cs

end Casing

def lower (s : String) : String := .ofList (Casing.lowerFrom [] s.toList)

end DeadLetter.Text

/-!
# Reading off the front of a text

A `Scan` reads something off the front of a list of characters, or fails. `bind_apply`: a second scan goes on where the
first stopped.
-/

namespace DeadLetter.Text

set_option autoImplicit false

/-- Reads something off the front of a text. -/
abbrev Scan (α : Type) := StateT (List Char) Option α

namespace Scan

/-- Splits a text around the first place where a mark stands. -/
def split? (mark : List Char) : List Char → Option (List Char × List Char)
  | [] => none
  | c :: cs =>
    if mark.isPrefixOf (c :: cs) then some ([], (c :: cs).drop mark.length)
    else (split? mark cs).map fun (before, after) => (c :: before, after)

def hasMark (mark : String) (cs : List Char) : Bool := (split? mark.toList cs).isSome

def ahead (s : String) : Scan Bool := fun cs => some (s.toList.isPrefixOf cs, cs)

/-- Reads some text if it comes next, and tells whether it did. -/
def skip (s : String) : Scan Bool := fun cs =>
  some (if s.toList.isPrefixOf cs then (true, cs.drop s.toList.length) else (false, cs))

def literal (s : String) : Scan Unit := do guard (← skip s)

def one (p : Char → Bool) : Scan Char
  | [] => none
  | c :: cs => if p c then some (c, cs) else none

def many (p : Char → Bool) : Scan (List Char) := fun cs => some (cs.takeWhile p, cs.dropWhile p)

/-- Reads all characters of a class that come next, of which there is at least one. -/
def oneOrMore (p : Char → Bool) : Scan (List Char) := do
  let cs ← many p
  guard (cs ≠ [])
  return cs

def exactly (p : Char → Bool) : Nat → Scan (List Char)
  | 0 => return []
  | n + 1 => do return (← one p) :: (← exactly p n)

def upTo (mark : String) : Scan (List Char) := split? mark.toList

def either (a b : Char) : Scan Char := one fun c => c = a || c = b

def whole? {α : Type} (scan : Scan α) (cs : List Char) : Option α :=
  match scan cs with
  | some (a, []) => some a
  | _ => none

theorem bind_apply {α β : Type} (x : Scan α) (f : α → Scan β) (cs : List Char) :
    (x >>= f) cs = (x cs).bind fun r => f r.1 r.2 := rfl

theorem pure_apply {α : Type} (a : α) (cs : List Char) : (pure a : Scan α) cs = some (a, cs) := rfl

theorem get_apply (cs : List Char) : (get : Scan (List Char)) cs = some (cs, cs) := rfl

end Scan

end DeadLetter.Text

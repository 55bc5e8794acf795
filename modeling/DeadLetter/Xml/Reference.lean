import DeadLetter.Text.Numeral

/-!
# References in XML texts

In the text of a document some characters are written as references, by name or by code. `escape` writes the marks that
a text cannot hold, `resolve?` tells the characters that a written text stands for.
-/

namespace DeadLetter.Xml

set_option autoImplicit false

/-- A character as it stands in a text. -/
def escape (c : Char) : List Char :=
  if c = '&' then "&amp;".toList
  else if c = '<' then "&lt;".toList
  else if c = '>' then "&gt;".toList
  else [c]

/-- The number that digits write, after one that is read. -/
def codeFrom? (base : Nat) : List Char → Nat → Option Nat
  | [], n => some n
  | c :: cs, n =>
    match Text.hexDigit? c with
    | some d => if d < base then codeFrom? base cs (base * n + d) else none
    | none => none

/-- The code that a numeral writes, which may have a plus sign. -/
def code? (base : Nat) (numeral : List Char) : Option Nat :=
  match numeral with
  | [] | ['+'] => none
  | '+' :: cs => codeFrom? base cs 0
  | cs => codeFrom? base cs 0

/-- The character that a reference stands for, by what is between `&` and `;`. -/
def referent? (name : List Char) : Option Char :=
  match name with
  | '#' :: 'x' :: numeral => code? 16 numeral >>= Text.charOfCode?
  | '#' :: numeral => code? 10 numeral >>= Text.charOfCode?
  | name =>
    if name = "amp".toList then some '&'
    else if name = "lt".toList then some '<'
    else if name = "gt".toList then some '>'
    else if name = "quot".toList then some '"'
    else if name = "apos".toList then some '\''
    else none

/-- The characters that a text stands for. Within a reference its name is collected in reverse. -/
def resolveFrom? : List Char → Option (List Char) → Option (List Char)
  | [], none => some []
  | [], some _ => none
  | c :: cs, none => if c = '&' then resolveFrom? cs (some []) else (resolveFrom? cs none).map (c :: ·)
  | c :: cs, some name =>
    if c = ';' then
      match referent? name.reverse with
      | some r => (resolveFrom? cs none).map (r :: ·)
      | none => none
    else if c = '&' then none
    else resolveFrom? cs (some (c :: name))

/-- The characters that a text stands for, if all of its references stand for one. -/
def resolve? (written : List Char) : Option (List Char) := resolveFrom? written none

end DeadLetter.Xml

/-!
# Percent encoding

In addresses a byte may be written as `%` and two hexadecimal digits; a `%` without them stands for itself. Queries
write spaces as `+` too, and consist of names with values.
-/

namespace DeadLetter.Text.Percent

set_option autoImplicit false

def hexDigit? (b : UInt8) : Option UInt8 :=
  if 48 ≤ b ∧ b ≤ 57 then some (b - 48)
  else if 97 ≤ b ∧ b ≤ 102 then some (b - 87)
  else if 65 ≤ b ∧ b ≤ 70 then some (b - 55)
  else none

def hexDigit (n : UInt8) : UInt8 := if n < 10 then 48 + n else 55 + n

/-- Whether a byte stands for itself in any part of an address: letters, digits, and the marks `-`, `.`, `_` and `~`. -/
def isUnreserved (b : UInt8) : Bool :=
  (97 ≤ b && b ≤ 122) || (65 ≤ b && b ≤ 90) || (48 ≤ b && b ≤ 57) || b = 45 || b = 46 || b = 95 || b = 126

def encodeByte (b : UInt8) : List UInt8 := if isUnreserved b then [b] else [37, hexDigit (b / 16), hexDigit (b % 16)]

def encodeBytes (bytes : List UInt8) : List UInt8 := bytes.flatMap encodeByte

def decodeBytes : List UInt8 → List UInt8
  | [] => []
  | 37 :: a :: b :: r =>
    match hexDigit? a, hexDigit? b with
    | some x, some y => (16 * x + y) :: decodeBytes r
    | _, _ => 37 :: decodeBytes (a :: b :: r)
  | b :: r => b :: decodeBytes r

/-- The text of bytes, if they are UTF-8. -/
def textOf? (bytes : List UInt8) : Option String := String.fromUTF8? ⟨bytes.toArray⟩

/-- The text that a percent-encoded text stands for, if it is one. -/
def decode? (s : String) : Option String := textOf? (decodeBytes s.toUTF8.toList)

/-- The text of bytes. Where they are not UTF-8 only the ASCII characters are kept. -/
def textOf (bytes : List UInt8) : String :=
  (textOf? bytes).getD (.ofList (bytes.map fun b => if b < 128 then .ofNat b.toNat else '\ufffd'))

/-- A text as it is written in any part of an address. -/
def encode (s : String) : String := .ofList ((encodeBytes s.toUTF8.toList).map fun b => .ofNat b.toNat)

/-- A name or value of a query. -/
def decodeField (bytes : List UInt8) : String := textOf (decodeBytes (bytes.map fun b => if b = 43 then 32 else b))

def splitBytes (separator : UInt8) (bytes : List UInt8) : List (List UInt8) :=
  bytes.foldr (fun b parts =>
    match parts with
    | p :: ps => if b = separator then [] :: p :: ps else (b :: p) :: ps
    | [] => [[b]]) [[]]

def fields (query : String) : List (String × String) :=
  ((splitBytes 38 query.toUTF8.toList).filter (· ≠ [])).map fun field =>
    (decodeField (field.takeWhile (· ≠ 61)), decodeField ((field.dropWhile (· ≠ 61)).drop 1))

end DeadLetter.Text.Percent

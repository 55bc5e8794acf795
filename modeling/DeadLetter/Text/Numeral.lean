/-!
# Integers written as text

A numeral is an optional sign and at least one ASCII digit. `readInt` reads one into a range and tells why it cannot:
the digits are scanned from the left, so a text that leaves the range before its first wrong character is out of range.
-/

namespace DeadLetter.Text

set_option autoImplicit false

/-- Why a text is not an integer of a range. -/
inductive NumeralError
  | empty
  | invalidDigit
  | tooLarge
  | tooSmall
deriving DecidableEq, Repr

def NumeralError.message : NumeralError → String
  | .empty => "cannot parse integer from empty string"
  | .invalidDigit => "invalid digit found in string"
  | .tooLarge => "number too large to fit in target type"
  | .tooSmall => "number too small to fit in target type"

def digit? (c : Char) : Option Nat := if '0' ≤ c ∧ c ≤ '9' then some (c.toNat - '0'.toNat) else none

def hexDigit? (c : Char) : Option Nat :=
  if '0' ≤ c ∧ c ≤ '9' then some (c.toNat - '0'.toNat)
  else if 'a' ≤ c ∧ c ≤ 'f' then some (c.toNat - 'a'.toNat + 10)
  else if 'A' ≤ c ∧ c ≤ 'F' then some (c.toNat - 'A'.toNat + 10)
  else none

def charOfCode? (n : Nat) : Option Char :=
  if n < 0xD800 ∨ (0xE000 ≤ n ∧ n < 0x110000) then some (.ofNat n) else none

/-- Reads digits after a value, refusing to pass `bound`. -/
def readDigits (bound : Nat) (beyond : NumeralError) : List Char → Nat → Except NumeralError Nat
  | [], n => .ok n
  | c :: cs, n =>
    match digit? c with
    | none => .error .invalidDigit
    | some d => if 10 * n + d ≤ bound then readDigits bound beyond cs (10 * n + d) else .error beyond

/-- Reads an integer from `-below` to `above`. A minus sign is read only where there are negative numbers. -/
def readInt (below above : Nat) (s : String) : Except NumeralError Int :=
  match s.toList with
  | [] => .error .empty
  | ['+'] | ['-'] => .error .invalidDigit
  | '+' :: cs => (readDigits above .tooLarge cs 0).map Int.ofNat
  | '-' :: cs =>
    if below = 0 then .error .invalidDigit else (readDigits below .tooSmall cs 0).map fun n => -(n : Int)
  | cs => (readDigits above .tooLarge cs 0).map Int.ofNat

def readInt32 (s : String) : Except NumeralError Int := readInt 0x80000000 0x7FFFFFFF s

/-- A natural number below `bound + 1`. -/
def readNat? (bound : Nat) (s : String) : Option Nat :=
  match readInt 0 bound s with
  | .ok n => some n.toNat
  | .error _ => none

def natText (n : Nat) : String := .ofList (Nat.toDigits 10 n)

def intText : Int → String
  | .ofNat n => natText n
  | .negSucc n => "-" ++ natText (n + 1)

end DeadLetter.Text

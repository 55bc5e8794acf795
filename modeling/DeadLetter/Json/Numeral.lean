import DeadLetter.Json.Value
import DeadLetter.Text.Numeral

/-!
# JSON numbers

`Numeral.read?` knows the grammar of RFC 8259, `Numeral.toJson?` the value: a numeral without fraction and exponent that
fits 64 bits, signed or unsigned, is an integer, minus zero excepted; any other is a floating point number, made of the
leading digits that fit 64 bits and the power of ten that the rest leaves.
-/

namespace DeadLetter.Json

set_option autoImplicit false

open Text (digit?)

/-- A number as it is written: the digits before and after the point, and the exponent. -/
structure Numeral where
  negative : Bool
  whole : List Nat
  fraction : List Nat
  exponent : Option Int
deriving DecidableEq, Repr

namespace Numeral

/-- Splits a text after its leading digits. -/
def spanDigits : List Char → List Nat × List Char
  | [] => ([], [])
  | c :: cs =>
    match digit? c with
    | some d => let (ds, r) := spanDigits cs; (d :: ds, r)
    | none => ([], c :: cs)

def natOf (ds : List Nat) : Nat := ds.foldl (fun n d => 10 * n + d) 0

/-- Reads the exponent that ends a number, if there is one. -/
def readExponent? : List Char → Option (Option Int)
  | [] => some none
  | e :: cs =>
    if e = 'e' ∨ e = 'E' then
      let (negative, cs) := match cs with
        | '+' :: cs => (false, cs)
        | '-' :: cs => (true, cs)
        | cs => (false, cs)
      match spanDigits cs with
      | (d :: ds, []) => some (some (if negative then -(natOf (d :: ds) : Int) else natOf (d :: ds)))
      | _ => none
    else none

/-- Reads the fraction, if there is one, and the exponent. -/
def readFraction? (negative : Bool) (whole : List Nat) : List Char → Option Numeral
  | '.' :: cs =>
    match spanDigits cs with
    | (d :: ds, cs) => (readExponent? cs).map fun e => ⟨negative, whole, d :: ds, e⟩
    | _ => none
  | cs => (readExponent? cs).map fun e => ⟨negative, whole, [], e⟩

def readUnsigned? (negative : Bool) (cs : List Char) : Option Numeral :=
  match spanDigits cs with
  | ([], _) => none
  | (0 :: _ :: _, _) => none
  | (whole, cs) => readFraction? negative whole cs

/-- Reads a number that takes the whole text. -/
def read? : List Char → Option Numeral
  | '-' :: cs => readUnsigned? true cs
  | cs => readUnsigned? false cs

/-- Appends digits to a number as long as it fits 64 bits, and returns those that are left. -/
def fill : Nat → List Nat → Nat × List Nat
  | n, [] => (n, [])
  | n, d :: ds => if 10 * n + d ≤ 0xFFFFFFFFFFFFFFFF then fill (10 * n + d) ds else (n, d :: ds)

/-- The value as a floating point number, if it is not too large. -/
def toFloat? (x : Numeral) : Option Binary64 :=
  let (n, dropped) := fill 0 x.whole
  let (m, unused) := fill n x.fraction
  let used := x.fraction.length - unused.length
  Binary64.ofDecimal? x.negative (.ofNat m) (dropped.length - used + x.exponent.getD 0)

/-- The value as a whole number, if it is written as one. -/
def toInt? (x : Numeral) : Option Int :=
  let n := natOf x.whole
  if x.fraction ≠ [] ∨ x.exponent.isSome then none
  else if x.negative then if 0 < n ∧ n ≤ 0x8000000000000000 then some (-n) else none
  else if n ≤ 0xFFFFFFFFFFFFFFFF then some n else none

def toJson? (x : Numeral) : Option Json :=
  match x.toInt? with
  | some n => some (.int n)
  | none => x.toFloat?.map .float

end Numeral

end DeadLetter.Json

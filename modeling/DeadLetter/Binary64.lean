/-!
# Binary floating point from decimal digits

A `Binary64` is known by its 64 bits. `ofDecimal?` scales an integer of at most 64 bits by a power of ten with the
multiplication and division of the format itself, and has no value for a number that is too large. `ofInt` rounds an
integer, which it does without these.
-/

namespace DeadLetter

set_option autoImplicit false

/-- A number of the format IEEE 754 binary64, as its bits. -/
structure Binary64 where
  bits : UInt64
deriving DecidableEq, Repr

namespace Binary64

def powerOfTen (e : Nat) : Float := .ofScientific 1 false e

/-- Divides by a power of ten, by at most `10 ^ 308` at a time. -/
def shrink (x : Float) (e : Nat) : Float :=
  if e ≤ 308 then x / powerOfTen e else if x == 0 then x else shrink (x / powerOfTen 308) (e - 308)
termination_by e

/-- Multiplies by a power of ten, as long as the result is finite. -/
def grow? (x : Float) (e : Nat) : Option Float :=
  if e ≤ 308 then
    let y := x * powerOfTen e
    if y.isInf then none else some y
  else if x == 0 then some x else none

/-- The number `± digits · 10 ^ exponent`. -/
def ofDecimal? (negative : Bool) (digits : UInt64) (exponent : Int) : Option Binary64 := do
  let magnitude ← match exponent with
    | .ofNat e => grow? digits.toFloat e
    | .negSucc e => some (shrink digits.toFloat (e + 1))
  some ⟨(if negative then -magnitude else magnitude).toBits⟩

/-- `n / 2 ^ k` to the nearest integer, and to the even one if two are as near. -/
def roundShift (n k : Nat) : Nat :=
  let q := n >>> k
  if 2 * (n % 1 <<< k) + q % 2 ≤ 1 <<< k then q else q + 1

/-- The first 53 binary digits of a number other than 0, rounded, or `2 ^ 53`. -/
def leading (n : Nat) : Nat := roundShift (n <<< (52 - n.log2)) (n.log2 - 52)

/-- The bits of the number nearest to a natural number. Digits that round up to `2 ^ 53` carry into the exponent. -/
def bitsOfNat (n : Nat) : Nat := if n = 0 then 0 else (1022 + n.log2) <<< 52 + leading n

/-- The number nearest to an integer of less than 1024 bits. -/
def ofInt (n : Int) : Binary64 := ⟨.ofNat ((if n < 0 then 0x8000000000000000 else 0) + bitsOfNat n.natAbs)⟩

end Binary64

end DeadLetter

/-!
# Base64

Bytes as text in the standard alphabet, three bytes to four digits, the last group filled up with `=`. `decode` takes
only what `encode` writes: no blanks, no missing fill and no bits beyond the last byte.
-/

namespace DeadLetter.Text.Base64

set_option autoImplicit false

def digit (n : Nat) : Char :=
  if n < 26 then .ofNat ('A'.toNat + n)
  else if n < 52 then .ofNat ('a'.toNat + (n - 26))
  else if n < 62 then .ofNat ('0'.toNat + (n - 52))
  else if n = 62 then '+'
  else '/'

def value? (c : Char) : Option Nat :=
  if 'A' ≤ c ∧ c ≤ 'Z' then some (c.toNat - 'A'.toNat)
  else if 'a' ≤ c ∧ c ≤ 'z' then some (c.toNat - 'a'.toNat + 26)
  else if '0' ≤ c ∧ c ≤ '9' then some (c.toNat - '0'.toNat + 52)
  else if c = '+' then some 62
  else if c = '/' then some 63
  else none

def encode : List UInt8 → List Char
  | [] => []
  | [a] => [digit (a.toNat / 4), digit (a.toNat % 4 * 16), '=', '=']
  | [a, b] => [digit (a.toNat / 4), digit (a.toNat % 4 * 16 + b.toNat / 16), digit (b.toNat % 16 * 4), '=']
  | a :: b :: c :: r =>
    digit (a.toNat / 4) :: digit (a.toNat % 4 * 16 + b.toNat / 16) ::
      digit (b.toNat % 16 * 4 + c.toNat / 64) :: digit (c.toNat % 64) :: encode r

def byte (n : Nat) : UInt8 := .ofNat n

/-- The bytes of a group of digits that is filled up. -/
def decodeLast : List Char → Option (List UInt8)
  | [p, q, '=', '='] => do
    let v ← value? p
    let w ← value? q
    if w % 16 = 0 then some [byte (v * 4 + w / 16)] else none
  | [p, q, r, '='] => do
    let v ← value? p
    let w ← value? q
    let x ← value? r
    if x % 4 = 0 then some [byte (v * 4 + w / 16), byte (w % 16 * 16 + x / 4)] else none
  | _ => none

def decodeFull (p q r s : Char) : Option (List UInt8) := do
  let v ← value? p
  let w ← value? q
  let x ← value? r
  let y ← value? s
  some [byte (v * 4 + w / 16), byte (w % 16 * 16 + x / 4), byte (x % 4 * 64 + y)]

def decode : List Char → Option (List UInt8)
  | [] => some []
  | p :: q :: r :: s :: rest =>
    if s = '=' ∧ rest = [] then decodeLast [p, q, r, s]
    else do
      let bytes ← decodeFull p q r s
      let more ← decode rest
      some (bytes ++ more)
  | _ => none

end DeadLetter.Text.Base64

import DeadLetter.Text.Numeral
import DeadLetter.Text.Scan
import DeadLetter.Toml.Value

/-!
# Numbers, names and times of a settings document

A scalar is written without quotes and brackets: an integer in one of four bases, a floating point number, a truth
value, a date, a time or both. `scalar` reads one; only of an integer the value is kept.
-/

namespace DeadLetter.Toml

set_option autoImplicit false

open Text (Scan)
open Text.Scan

/-! ## Digits -/

def digitOf? (base : Nat) (c : Char) : Option Nat := (Text.hexDigit? c).filter (· < base)

/-- The digits of a base that a text writes, with single underscores between them. -/
def digits? (base : Nat) : List Char → Option (List Nat)
  | [] => none
  | [c] => (digitOf? base c).map ([·])
  | c :: '_' :: cs => do return (← digitOf? base c) :: (← digits? base cs)
  | c :: cs => do return (← digitOf? base c) :: (← digits? base cs)

def natOf (base : Nat) (ds : List Nat) : Nat := ds.foldl (fun n d => base * n + d) 0

/-- The digits of a decimal number, which has no leading zeros. -/
def decimal? (cs : List Char) : Option (List Nat) :=
  match digits? 10 cs with
  | some (0 :: _ :: _) => none
  | ds => ds

/-! ## Integers -/

/-- The integer that a run writes, in one of four bases. -/
def whole? (run : List Char) : Option Int :=
  match run with
  | '0' :: 'x' :: cs => (digits? 16 cs).map fun ds => natOf 16 ds
  | '0' :: 'o' :: cs => (digits? 8 cs).map fun ds => natOf 8 ds
  | '0' :: 'b' :: cs => (digits? 2 cs).map fun ds => natOf 2 ds
  | '+' :: cs => (decimal? cs).map fun ds => natOf 10 ds
  | '-' :: cs => (decimal? cs).map fun ds => -(natOf 10 ds : Int)
  | cs => (decimal? cs).map fun ds => natOf 10 ds

/-- The integer of at most 64 bits that a run writes. -/
def integer? (run : List Char) : Option Int :=
  (whole? run).filter fun n => -0x8000000000000000 ≤ n ∧ n ≤ 0x7FFFFFFFFFFFFFFF

/-! ## Floating point numbers -/

/-- The least number that is rounded to infinity: half a step above the largest number of the format. -/
def infinityBound : Nat := Nat.pow 2 1024 - Nat.pow 2 970

/-- Whether a number, written by digits and a power of ten, is rounded to infinity. -/
def isTooLarge (ds : List Nat) (exponent : Int) : Bool :=
  let ds := ds.dropWhile (· = 0)
  let size := ds.length + exponent
  if ds = [] ∨ size ≤ 308 then false
  else if 310 < size then true
  else match exponent with
    | .ofNat e => infinityBound ≤ natOf 10 ds * Nat.pow 10 e
    | .negSucc e => infinityBound * Nat.pow 10 (e + 1) ≤ natOf 10 ds

/-- Reads a sign, if there is one, and tells whether it is a minus sign. -/
def sign : Scan Bool := do
  if ← skip "-" then return true
  let _ ← skip "+"
  return false

/-- Reads digits and the underscores between them. -/
def group : Scan (List Char) := many fun c => c.isDigit || c = '_'

/-- Reads a floating point number that is finite or below zero. It has a fraction or an exponent. -/
def float : Scan Unit := do
  let isNegative ← sign
  let whole ← decimal? (← group)
  let hasFraction ← skip "."
  let fraction ← if hasFraction then digits? 10 (← group) else pure []
  let exponent : Int ← if hasFraction && (← get) = [] then pure 0 else do
    let _ ← either 'e' 'E'
    let isSmall ← sign
    let e := natOf 10 (← digits? 10 (← group))
    pure (if isSmall then -e else e)
  guard (isNegative || !isTooLarge (whole ++ fraction) (exponent - fraction.length))

/-- Reads a floating point number that is named. -/
def namedFloat : Scan Unit := do
  let _ ← sign
  if !(← skip "inf") then Scan.literal "nan"

/-! ## Dates and times -/

def field (size low high : Nat) : Scan Nat := do
  let n := natOf 10 ((← exactly Char.isDigit size).filterMap Text.digit?)
  guard (low ≤ n ∧ n ≤ high)
  return n

def daysOf (year month : Nat) : Nat :=
  if month = 2 then if year % 4 = 0 ∧ (year % 100 ≠ 0 ∨ year % 400 = 0) then 29 else 28
  else if month = 4 ∨ month = 6 ∨ month = 9 ∨ month = 11 then 30
  else 31

def date : Scan Unit := do
  let year ← field 4 0 9999
  Scan.literal "-"
  let month ← field 2 1 12
  Scan.literal "-"
  let _ ← field 2 1 (daysOf year month)

def time : Scan Unit := do
  let _ ← field 2 0 23
  Scan.literal ":"
  let _ ← field 2 0 59
  Scan.literal ":"
  let _ ← field 2 0 60
  if ← skip "." then
    let _ ← oneOrMore Char.isDigit

/-- Reads the distance of a time from the one of Greenwich, if it comes next. -/
def offset : Scan Unit := do
  if (← get) ≠ [] then
    if (← one fun c => c ∈ ['Z', 'z', '+', '-']) ∈ ['+', '-'] then
      let _ ← field 2 0 23
      Scan.literal ":"
      let _ ← field 2 0 59

def clock : Scan Unit := do
  time
  offset

def moment : Scan Unit := do
  date
  let _ ← either 'T' 't'
  clock

/-! ## Scalars -/

def isScalarChar (c : Char) : Bool := c.isAlphanum || c = '_' || c = '+' || c = '-' || c = '.' || c = ':'

def fits (scan : Scan Unit) (run : List Char) : Bool := (Scan.whole? scan run).isSome

def ofRun? (run : List Char) : Option Value :=
  match integer? run with
  | some n => some (.integer n)
  | none =>
    if run = "true".toList || run = "false".toList || [float, namedFloat, date, time, moment].any (fits · run) then
      some .other
    else none

/-- Reads a scalar. The time of a date may follow it after a blank. -/
def scalar : Scan Value := do
  let run ← many isScalarChar
  match ← get with
  | ' ' :: c :: cs =>
    if fits date run && c.isDigit then
      set (c :: cs)
      guard (fits clock (← many isScalarChar))
      return .other
    else ofRun? run
  | _ => ofRun? run

end DeadLetter.Toml

import DeadLetter.Json.Quoted
import DeadLetter.Json.Value

/-!
# JSON texts of values

`compact` writes a value without blanks. Integers are written in decimal, floating point numbers exactly, by a whole
number and a power of ten.
-/

namespace DeadLetter.Json

set_option autoImplicit false

/-- A floating point number, exactly: its integral significand times a power of two, in decimal. -/
def floatText (x : Binary64) : List Char :=
  let biased := ((x.bits >>> 52) &&& 0x7FF).toNat
  let stored := (x.bits &&& 0xFFFFFFFFFFFFF).toNat
  let significand := if biased = 0 then stored else stored + 0x10000000000000
  let exponent : Int := (if biased = 0 then 1 else biased : Nat) - 1075
  let sign := if x.bits >>> 63 = 0 then [] else ['-']
  match exponent with
  | .ofNat e => sign ++ Nat.toDigits 10 (significand * Nat.pow 2 e) ++ ['e', '0']
  | .negSucc e => sign ++ Nat.toDigits 10 (significand * Nat.pow 5 (e + 1)) ++ 'e' :: '-' :: Nat.toDigits 10 (e + 1)

mutual

def chars : Json → List Char
  | .null => "null".toList
  | .bool true => "true".toList
  | .bool false => "false".toList
  | .int n => (Text.intText n).toList
  | .float x => floatText x
  | .string s => quote s
  | .array items => '[' :: charsOfItems items
  | .object members => '{' :: charsOfMembers members
termination_by structural v => v

def charsOfItems : List Json → List Char
  | [] => [']']
  | [v] => chars v ++ [']']
  | v :: vs => chars v ++ ',' :: charsOfItems vs
termination_by structural vs => vs

def charsOfMembers : List (String × Json) → List Char
  | [] => ['}']
  | [(k, v)] => quote k ++ ':' :: (chars v ++ ['}'])
  | (k, v) :: ms => quote k ++ ':' :: (chars v ++ ',' :: charsOfMembers ms)
termination_by structural ms => ms

end

def compact (v : Json) : String := .ofList (chars v)

end DeadLetter.Json

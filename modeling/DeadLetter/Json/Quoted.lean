import DeadLetter.Text.Numeral

/-!
# Strings of JSON texts

In a string quotation marks, backslashes and control characters are escaped. `escape` writes a character, `pieces?`
takes what stands between the quotation marks apart, and `decode?` tells the characters that it stands for, which needs
the two halves of a character beyond 16 bits to stand together. `decode?_escape`: decoding gets back what was written.
-/

namespace DeadLetter.Json

set_option autoImplicit false

/-! ## Writing -/

/-- The lower-case hexadecimal digit of a number below 16. -/
def hexDigit (n : Nat) : Char := if n < 10 then .ofNat ('0'.toNat + n) else .ofNat ('a'.toNat + n - 10)

/-- A character as it stands in a string. Of the control characters the common ones are written by a letter and the
others by their code. -/
def escape (c : Char) : List Char :=
  if c = '"' then ['\\', '"']
  else if c = '\\' then ['\\', '\\']
  else if c = '\x08' then ['\\', 'b']
  else if c = '\t' then ['\\', 't']
  else if c = '\n' then ['\\', 'n']
  else if c = '\x0c' then ['\\', 'f']
  else if c = '\r' then ['\\', 'r']
  else if c.toNat < 0x20 then ['\\', 'u', '0', '0', hexDigit (c.toNat / 16), hexDigit (c.toNat % 16)]
  else [c]

def quote (s : String) : List Char := '"' :: (s.toList.flatMap escape ++ ['"'])

/-! ## Reading -/

/-- A part of a string: a character, or the UTF-16 code unit of a `\u` escape. -/
inductive Piece where
  | char (c : Char)
  | unit (u : Nat)
deriving DecidableEq, Repr

/-- The character that an escape of one letter stands for. -/
def escaped? : Char → Option Char
  | '"' => some '"'
  | '\\' => some '\\'
  | '/' => some '/'
  | 'b' => some '\x08'
  | 'f' => some '\x0c'
  | 'n' => some '\n'
  | 'r' => some '\r'
  | 't' => some '\t'
  | _ => none

def unit? (a b c d : Char) : Option Nat :=
  match Text.hexDigit? a, Text.hexDigit? b, Text.hexDigit? c, Text.hexDigit? d with
  | some w, some x, some y, some z => some (((w * 16 + x) * 16 + y) * 16 + z)
  | _, _, _, _ => none

/-- The parts of a string, if all of its escapes are escapes of the format. -/
def pieces? : List Char → Option (List Piece)
  | [] => some []
  | '\\' :: 'u' :: a :: b :: c :: d :: cs =>
    match unit? a b c d with
    | some u => (pieces? cs).map (.unit u :: ·)
    | none => none
  | '\\' :: e :: cs =>
    match escaped? e with
    | some c => (pieces? cs).map (.char c :: ·)
    | none => none
  | c :: cs => if c = '\\' then none else (pieces? cs).map (.char c :: ·)

/-- The characters of the parts of a string, if all units pair up. -/
def join? : List Piece → Option (List Char)
  | [] => some []
  | .char c :: r => (join? r).map (c :: ·)
  | .unit u :: .unit v :: r =>
    if 0xD800 ≤ u ∧ u < 0xDC00 then
      if 0xDC00 ≤ v ∧ v < 0xE000 then (join? r).map (.ofNat (0x10000 + (u - 0xD800) * 0x400 + (v - 0xDC00)) :: ·)
      else none
    else if 0xDC00 ≤ u ∧ u < 0xE000 then none
    else (join? (.unit v :: r)).map (.ofNat u :: ·)
  | .unit u :: r => if 0xD800 ≤ u ∧ u < 0xE000 then none else (join? r).map (.ofNat u :: ·)

/-- The characters that a string stands for, by what stands between its quotation marks. -/
def decode? (written : List Char) : Option (List Char) := pieces? written >>= join?

def decodeText? (written : List Char) : Option String := (decode? written).map .ofList

/-! ## Writing, then reading -/

/-- The part that a written character is: control characters without a letter are units. -/
def pieceOf (c : Char) : Piece :=
  if c.toNat < 0x20 ∧ c ∉ ['\x08', '\t', '\n', '\x0c', '\r'] then .unit c.toNat else .char c

theorem unit?_hexDigit : ∀ n < 0x20, unit? '0' '0' (hexDigit (n / 16)) (hexDigit (n % 16)) = some n := by decide

theorem pieces?_escape (c : Char) (cs : List Char) :
    pieces? (escape c ++ cs) = (pieces? cs).map (pieceOf c :: ·) := by
  by_cases quote : c = '"'
  · subst c; rfl
  by_cases backslash : c = '\\'
  · subst c; rfl
  by_cases backspace : c = '\x08'
  · subst c; rfl
  by_cases tab : c = '\t'
  · subst c; rfl
  by_cases lineFeed : c = '\n'
  · subst c; rfl
  by_cases formFeed : c = '\x0c'
  · subst c; rfl
  by_cases carriageReturn : c = '\r'
  · subst c; rfl
  by_cases low : c.toNat < 0x20
  · simp [escape, pieces?, pieceOf, unit?_hexDigit _ low, *]
  · simp [escape, pieces?, pieceOf, *]

theorem pieces?_flatMap_escape (cs : List Char) : pieces? (cs.flatMap escape) = some (cs.map pieceOf) := by
  induction cs with
  | nil => rfl
  | cons c cs ih => rw [List.flatMap_cons, pieces?_escape, ih, List.map_cons, Option.map_some]

theorem join?_pieceOf (c : Char) (r : List Piece) : join? (pieceOf c :: r) = (join? r).map (c :: ·) := by
  unfold pieceOf
  split
  · rename_i h
    have low : c.toNat < 0xD800 := by omega
    have back : Char.ofNat c.toNat = c := Char.ofNat_toNat c
    cases r with
    | nil => simp [join?, back]; omega
    | cons p r =>
      cases p with
      | char d => simp [join?, back]; omega
      | unit v => rw [join?, if_neg (by omega), if_neg (by omega), back]
  · rfl

theorem decode?_escape (cs : List Char) : decode? (cs.flatMap escape) = some cs := by
  rw [decode?, pieces?_flatMap_escape, Option.bind_eq_bind, Option.bind_some]
  induction cs with
  | nil => rfl
  | cons c cs ih => rw [List.map_cons, join?_pieceOf, ih, Option.map_some]

end DeadLetter.Json

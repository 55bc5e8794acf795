import DeadLetter.Json.Numeral
import DeadLetter.Json.Quoted
import DeadLetter.Text.Scan

/-!
# JSON tokens

`tokens?` reads a text from left to right with one step for each character. Strings and numbers are kept as they are
written, and what they have to look like is loose: any character may follow a backslash, and a number may have leading
zeros or no digits on one side of its point. `Token.isStrict` is the grammar of RFC 8259.
-/

namespace DeadLetter.Json

set_option autoImplicit false

/-- A token, with the characters of a number and those between the quotation marks of a string. -/
inductive Token where
  | beginArray
  | endArray
  | beginObject
  | endObject
  | colon
  | comma
  | null
  | bool (b : Bool)
  | number (written : List Char)
  | string (written : List Char)
deriving DecidableEq, Repr

/-- Whether a token is one of RFC 8259. The halves of a character need not pair up. -/
def Token.isStrict : Token → Bool
  | .number written => (Numeral.read? written).isSome
  | .string written => (pieces? written).isSome
  | _ => true

namespace Lexer

open Text.Scan in
def number : Text.Scan Unit := do
  let _ ← skip "-"
  let whole ← many Char.isDigit
  let fraction ← if ← skip "." then many Char.isDigit else pure []
  guard (whole ≠ [] || fraction ≠ [])
  let next ← get
  if next ≠ [] then
    let _ ← either 'e' 'E'
    if !(← skip "+") then let _ ← skip "-"
    let _ ← oneOrMore Char.isDigit

/-- Whether a run of characters writes a number, loosely. It begins with its sign or a digit. -/
def isNumber (run : List Char) : Bool := run.head? ≠ some '.' && (Text.Scan.whole? number run).isSome

/-- What the characters before this one leave open, with its own characters in reverse. -/
inductive Mode where
  | between
  | bare (run : List Char)
  | string (run : List Char)
  | escape (run : List Char)
deriving DecidableEq, Repr

/-- The tokens read so far, in reverse, and what is still open. -/
structure State where
  tokens : List Token
  mode : Mode
deriving DecidableEq, Repr

/-- Blanks between tokens: space, tab, line feed and carriage return. -/
def isBlank (c : Char) : Bool := c = ' ' || c = '\t' || c = '\n' || c = '\r'

/-- Characters of numbers and of the three names. -/
def isBare (c : Char) : Bool := c.isAlphanum || c = '+' || c = '-' || c = '.'

/-- The token of a run of bare characters. -/
def ofBare? (run : List Char) : Option Token :=
  if run = "null".toList then some .null
  else if run = "true".toList then some (.bool true)
  else if run = "false".toList then some (.bool false)
  else if isNumber run then some (.number run)
  else none

/-- The token that a character is on its own. -/
def mark? : Char → Option Token
  | '[' => some .beginArray
  | ']' => some .endArray
  | '{' => some .beginObject
  | '}' => some .endObject
  | ':' => some .colon
  | ',' => some .comma
  | _ => none

def start? (tokens : List Token) (c : Char) : Option State :=
  if isBlank c then some ⟨tokens, .between⟩
  else if c = '"' then some ⟨tokens, .string []⟩
  else if isBare c then some ⟨tokens, .bare [c]⟩
  else (mark? c).map fun t => ⟨t :: tokens, .between⟩

def step? (s : State) (c : Char) : Option State :=
  match s.mode with
  | .between => start? s.tokens c
  | .bare run =>
    if isBare c then some ⟨s.tokens, .bare (c :: run)⟩
    else
      match ofBare? run.reverse with
      | some t => start? (t :: s.tokens) c
      | none => none
  | .string run =>
    if c = '"' then some ⟨.string run.reverse :: s.tokens, .between⟩
    else if c = '\\' then some ⟨s.tokens, .escape (c :: run)⟩
    else if c.toNat < 0x20 then none
    else some ⟨s.tokens, .string (c :: run)⟩
  | .escape run => some ⟨s.tokens, .string (c :: run)⟩

/-- The tokens at the end of the text, unless a string is still open. -/
def finish? (s : State) : Option (List Token) :=
  match s.mode with
  | .between => some s.tokens.reverse
  | .bare run => (ofBare? run.reverse).map fun t => (t :: s.tokens).reverse
  | _ => none

end Lexer

def tokens? (s : String) : Option (List Token) := s.toList.foldlM Lexer.step? ⟨[], .between⟩ >>= Lexer.finish?

end DeadLetter.Json

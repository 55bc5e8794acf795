import DeadLetter.Text.Numeral
import DeadLetter.Text.Scan

/-!
# Texts of a settings document

A text stands in double quotes, where a backslash begins an escape, or in single quotes, where it does not. In three
quotes of either kind it may go over several lines, and the line end right after the quotes is not part of it.
-/

namespace DeadLetter.Toml

set_option autoImplicit false

open Text (Scan)
open Text.Scan

/-- A character that may stand in texts and comments: no control character but the tab. -/
def isPlain (c : Char) : Bool := c = '\t' || (0x20 ≤ c.toNat && c.toNat ≠ 0x7F)

def isBlank (c : Char) : Bool := c = ' ' || c = '\t'

/-! ## Escapes -/

/-- The character that an escape of one letter stands for. -/
def escaped? : Char → Option Char
  | 'b' => some '\x08'
  | 't' => some '\t'
  | 'n' => some '\n'
  | 'f' => some '\x0c'
  | 'r' => some '\r'
  | '"' => some '"'
  | '\\' => some '\\'
  | _ => none

def code (digits : Nat) : Scan Char := do
  let ds ← exactly (fun c => (Text.hexDigit? c).isSome) digits
  Text.charOfCode? ((ds.filterMap Text.hexDigit?).foldl (fun n d => 16 * n + d) 0)

/-- Reads an escape after its backslash. -/
def escape : Scan Char := do
  if ← skip "u" then code 4
  else if ← skip "U" then code 8
  else escaped? (← one fun _ => true)

/-! ## Texts on one line -/

/-- Reads the rest of a text in double quotes, of so many characters at most. -/
def basic : Nat → Scan (List Char)
  | 0 => failure
  | n + 1 => do
    if ← skip "\"" then return []
    else if ← skip "\\" then return (← escape) :: (← basic n)
    else return (← one isPlain) :: (← basic n)

/-- Reads the rest of a text in single quotes. -/
def literal : Scan (List Char) := do
  let cs ← many fun c => c ≠ '\'' && isPlain c
  Scan.literal "'"
  return cs

/-! ## Texts of several lines -/

/-- Drops blanks and line ends. -/
def dropLines : List Char → List Char
  | ' ' :: cs | '\t' :: cs | '\n' :: cs | '\r' :: '\n' :: cs => dropLines cs
  | cs => cs

def lineEnd : Scan Unit := do
  if !(← skip "\n") then Scan.literal "\r\n"

/-- Reads a line end that may follow blanks, with all blanks and line ends after it, and tells whether one was there. -/
def lineBreak : Scan Bool := fun cs =>
  match cs.dropWhile isBlank with
  | '\n' :: cs | '\r' :: '\n' :: cs => some (true, dropLines cs)
  | _ => some (false, cs)

/-- Reads the quotes that a block ends with: three, and up to two before them that are part of the text. -/
def closing (quote : Char) : Scan (List Char) := do
  let quotes ← many (· = quote)
  let extra := min (quotes.length - 3) 2
  modify (List.replicate (quotes.length - 3 - extra) quote ++ ·)
  return List.replicate extra quote

/-- Reads the rest of a block, of so many characters at most, with escapes or without. -/
def block (quote : Char) (escapes : Bool) : Nat → Scan (List Char)
  | 0 => failure
  | n + 1 => do
    if ← ahead (.ofList [quote, quote, quote]) then closing quote
    else if escapes && (← skip "\\") then
      if ← lineBreak then block quote escapes n else return (← escape) :: (← block quote escapes n)
    else if ← skip "\r\n" then return '\n' :: (← block quote escapes n)
    else return (← one fun c => isPlain c || c = '\n') :: (← block quote escapes n)

/-! ## Texts -/

def line? : Scan (Option String) := do
  if ← skip "\"" then return some (.ofList (← basic ((← get).length + 1)))
  else if ← skip "'" then return some (.ofList (← literal))
  else return none

def block? : Scan (Option String) := do
  let isBasic ← skip "\"\"\""
  if isBasic || (← skip "'''") then
    if ← ahead "\n" then lineEnd else if ← ahead "\r\n" then lineEnd
    return some (.ofList (← block (if isBasic then '"' else '\'') isBasic ((← get).length + 1)))
  else return none

def text? : Scan (Option String) := do
  match ← block? with
  | some s => return some s
  | none => line?

end DeadLetter.Toml

import DeadLetter.Toml.Scalar
import DeadLetter.Toml.Text
import DeadLetter.Toml.Tree

/-!
# Settings documents

A document is a sequence of lines, each of which declares a table or sets a key of the table declared last. `read?`
returns the entries of the outermost table. Lists and tables in braces nest at most 79 deep, and a dotted key has at
most 79 parts.
-/

namespace DeadLetter.Toml

set_option autoImplicit false

open Text (Scan)
open Text.Scan (ahead many oneOrMore skip)

/-! ## Blanks -/

/-- Drops blanks, line ends and comments; in a comment any plain character. -/
def dropGap : Bool → List Char → List Char
  | _, [] => []
  | _, '\r' :: '\n' :: cs => dropGap false cs
  | inComment, c :: cs =>
    if c = '\n' then dropGap false cs
    else if inComment then if isPlain c then dropGap true cs else c :: cs
    else if c = '#' then dropGap true cs
    else if isBlank c then dropGap false cs
    else c :: cs

def gap : Scan Unit := modify (dropGap false)

def blanks : Scan Unit := modify (·.dropWhile isBlank)

/-- Reads blanks that only a line end, a comment or the end of the document can follow. -/
def lineRest : Scan Unit := do
  blanks
  guard ((← get) = [] || (← ahead "#") || (← ahead "\n") || (← ahead "\r\n"))

/-! ## Keys -/

def isKeyChar (c : Char) : Bool := c.isAlphanum || c = '_' || c = '-'

def key : Scan String := do
  match ← line? with
  | some s => return s
  | none => return .ofList (← oneOrMore isKeyChar)

/-- Reads a dotted key of so many parts at most into its path and its last part, with blanks around the parts. -/
def path : Nat → Scan (List String × String)
  | 0 => failure
  | n + 1 => do
    blanks
    let k ← key
    blanks
    if ← skip "." then
      let (ks, last) ← path n
      return (k :: ks, last)
    else return ([], k)

/-- How many parts a dotted key has at most, and how deep values nest. -/
def depthLimit : Nat := 79

/-! ## Values -/

def plainValue : Scan Value := do
  match ← text? with
  | some s => return .text s
  | none => scalar

def items (item : Scan Value) : Nat → Scan (List Value)
  | 0 => failure
  | n + 1 => do
    gap
    if ← skip "]" then return []
    let v ← item
    gap
    if ← skip "," then return v :: (← items item n)
    Text.Scan.literal "]"
    return [v]

def setting (item : Scan Value) : Scan (List String × String × Value) := do
  let (ks, k) ← path depthLimit
  Text.Scan.literal "="
  blanks
  let v ← item
  blanks
  return (ks, k, v)

/-- Reads the entries of a table in braces, after those that are done, and its end, of so many entries at most. -/
def entries (item : Scan Value) : Nat → List (String × Node) → Scan (List (String × Node))
  | 0, _ => failure
  | n + 1, done => do
    let (ks, k, v) ← setting item
    let done ← Node.insert? done ks k v
    if ← skip "," then entries item n done
    else
      Text.Scan.literal "\x7d"
      return done

/-- Reads a table in braces after the first of them. -/
def braces (item : Scan Value) : Scan (List (String × Node)) := do
  blanks
  if ← skip "\x7d" then return [] else entries item (← get).length []

/-- Reads a value in which lists and tables nest so deep at most. -/
def value : Nat → Scan Value
  | 0 => plainValue
  | n + 1 => do
    if ← skip "[" then return .list (← items (value n) ((← get).length + 1))
    else if ← skip "\x7b" then return .table (Node.toEntries (← braces (value n)))
    else plainValue

/-! ## Lines -/

/-- A line of a document. -/
inductive Line where
  | header (path : List String)
  | setting (path : List String) (key : String) (value : Value)
deriving Repr

def line : Scan Line := do
  if ← skip "[" then
    let (ks, k) ← path depthLimit
    Text.Scan.literal "]"
    lineRest
    return .header (ks ++ [k])
  else
    let (ks, k, v) ← setting (value depthLimit)
    lineRest
    return .setting ks k v

def lines : Nat → Scan (List Line)
  | 0 => failure
  | n + 1 => do
    gap
    if (← get) = [] then return [] else return (← line) :: (← lines n)

/-! ## Documents -/

/-- The tables built so far and the header of the last one. -/
structure Builder where
  root : List (String × Node)
  header : List String

def Builder.add? (b : Builder) : Line → Option Builder
  | .header path => (Node.declare? b.root path).map (⟨·, path⟩)
  | .setting path key v => (Node.insertUnder? b.root b.header path key v).map (⟨·, b.header⟩)

/-- The lines of a document. A byte order mark may stand at the very beginning. -/
def lines? (document : String) : Option (List Line) :=
  let cs := match document.toList with
    | '\ufeff' :: cs => cs
    | cs => cs
  Text.Scan.whole? (lines (cs.length + 1)) cs

/-- The entries of a document, if it is well formed. -/
def read? (document : String) : Option (List (String × Value)) := do
  let b ← (← lines? document).foldlM Builder.add? ⟨[], []⟩
  some (Node.toEntries b.root)

end DeadLetter.Toml

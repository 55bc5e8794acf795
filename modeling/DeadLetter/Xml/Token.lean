import DeadLetter.Text.Scan
import DeadLetter.Xml.Letter

/-!
# XML tokens

`tokens` takes a document apart into start tags, end tags and texts. Declarations, comments, instructions and sections
of literal text are checked and left out. A document that breaks the grammar is taken apart up to that place, where
`Token.malformed` ends the list; whether tags match is not looked at.
-/

namespace DeadLetter.Xml

set_option autoImplicit false

open Text (Scan)
open Text.Scan

/-- A name, with the one of its namespace in front of the colon. -/
structure Name where
  space : String
  own : String
deriving DecidableEq, Repr

/-- A part of a document. A tag knows how many elements are open around it, and a start tag the values of its attributes
and whether it is an end tag too. -/
inductive Token where
  | start (depth : Nat) (name : Name) (attributes : List (List Char)) (isEmpty : Bool)
  | close (depth : Nat) (name : Name)
  | text (written : List Char)
  | malformed
deriving DecidableEq, Repr

namespace Lexer

/-! ## Words -/

def spaces : Scan Bool := do return (← many isSpace) ≠ []

def gap : Scan Unit := do guard (← spaces)

/-- Reads characters that may stand in a document, up to a mark and with it. -/
def letters (mark : String) : Scan (List Char) := do
  let cs ← upTo mark
  guard (cs.all isLetter)
  return cs

def word : Scan (List Char) := do return (← one startsName) :: (← many isInName)

def part : Scan (List Char) := many fun c => c ≠ ':' && isInName c

/-- Whether a name may begin as a text does. -/
def beginsWell : List Char → Bool
  | [] => true
  | c :: _ => startsName c

def name : Scan Name := do
  let first ← part
  if ← skip ":" then
    let own ← part
    guard (own ≠ [] && beginsWell first && beginsWell own)
    return ⟨.ofList first, .ofList own⟩
  else
    guard (first ≠ [] && beginsWell first)
    return ⟨"", .ofList first⟩

def equals : Scan Unit := do
  let _ ← spaces
  literal "="
  let _ ← spaces

def quoted {α : Type} (inside : Char → Scan α) : Scan α := do
  let quote ← either '"' '\''
  let a ← inside quote
  let _ ← one (· = quote)
  return a

def string : Scan Unit := do
  let _ ← quoted fun quote => many (· ≠ quote)

/-! ## Declarations -/

/-- Reads the blanks after a part of the declaration, unless it ends here. -/
def declarationGap : Scan Unit := do
  if !(← spaces) then guard (← ahead "?>")

/-- Reads the declaration that a document may begin with. -/
def declaration : Scan Unit := do
  if ← skip "<?xml " then
    let _ ← spaces
    literal "version"
    equals
    let _ ← quoted fun _ => do
      literal "1."
      many Char.isDigit
    declarationGap
    if ← skip "encoding" then
      equals
      let _ ← quoted fun _ => many fun c => c.isAlphanum || c = '.' || c = '-' || c = '_'
      declarationGap
    if ← skip "standalone" then
      equals
      let answer ← quoted fun _ => word
      guard (answer = "yes".toList || answer = "no".toList)
    let _ ← spaces
    literal "?>"

/-- Reads a comment or an instruction if one comes next, and tells whether it did. -/
def remark : Scan Bool := do
  if ← skip "<!--" then
    let text ← letters "-->"
    guard (!hasMark "--" text && text.getLast? ≠ some '-')
    return true
  else if ← ahead "<?" then
    guard (!(← ahead "<?xml "))
    literal "<?"
    let _ ← word
    let _ ← spaces
    let _ ← letters "?>"
    return true
  else return false

/-- Reads what stands between the parts of a document if it comes next, and tells whether it did. -/
def filler : Scan Bool := do
  if ← spaces then return true else remark

/-- Reads where a declared thing is found if that comes next, and tells whether it did. -/
def externalId : Scan Bool := do
  if ← skip "SYSTEM" then
    gap
    string
    return true
  else if ← skip "PUBLIC" then
    gap
    string
    gap
    string
    return true
  else return false

/-- Reads the beginning of a document type after its keyword, and tells whether declarations follow. -/
def documentType : Scan Bool := do
  gap
  let _ ← word
  let _ ← spaces
  let _ ← externalId
  let _ ← spaces
  return (← either '[' '>') = '['

def entity : Scan Unit := do
  gap
  let isParameter ← skip "%"
  if isParameter then gap
  let _ ← word
  gap
  if ← externalId then
    if !isParameter then
      let _ ← spaces
      if ← skip "NDATA" then
        gap
        let _ ← word
  else string
  let _ ← spaces
  literal ">"

/-! ## Tags -/

/-- Reads the attributes of a start tag and its end, and tells whether it is an end tag too. -/
def attributes : Nat → Scan (List (List Char) × Bool)
  | 0 => failure
  | n + 1 => do
    let spaced ← spaces
    if ← skip "/>" then return ([], true)
    else if ← skip ">" then return ([], false)
    else
      guard spaced
      let _ ← name
      equals
      let value ← quoted fun quote => many fun c => c ≠ quote && c ≠ '<'
      guard (value.all isLetter)
      let (values, isEmpty) ← attributes n
      return (value :: values, isEmpty)

def startTag (depth : Nat) : Scan (Token × Bool) := do
  literal "<"
  let name ← name
  let (values, isEmpty) ← attributes ((← get).length + 1)
  return (.start depth name values isEmpty, isEmpty)

def endTag (depth : Nat) : Scan Token := do
  let name ← name
  let _ ← spaces
  literal ">"
  return .close depth name

/-- Reads a text, which cannot hold the end of a literal section. -/
def text : Scan Token := do
  let written ← many (· ≠ '<')
  guard (written.all isLetter && !hasMark "]]>" written)
  return .text written

/-! ## Documents -/

/-- The parts of a document: before and after its document type, the declarations of that, inside so many elements, and
after the outermost element. -/
inductive Place where
  | prolog
  | declarations
  | head
  | content (depth : Nat)
  | tail
deriving DecidableEq, Repr

/-- The place inside so many elements once the outermost has begun. -/
def Place.inside (depth : Nat) : Place := if depth = 0 then .tail else .content depth

def root : Scan (Option Token × Place) := do
  let (tag, isEmpty) ← startTag 0
  return (tag, .inside (if isEmpty then 0 else 1))

def step : Place → Scan (Option Token × Place)
  | .prolog => do
    if ← skip "<!DOCTYPE" then return (none, if ← documentType then .declarations else .head)
    else if ← filler then return (none, .prolog)
    else root
  | .declarations => do
    if ← filler then return (none, .declarations)
    else if ← skip "]" then
      let _ ← spaces
      literal ">"
      return (none, .head)
    else if ← skip "<!ENTITY" then
      entity
      return (none, .declarations)
    else
      guard ((← ahead "<!ELEMENT") || (← ahead "<!ATTLIST") || (← ahead "<!NOTATION"))
      let _ ← upTo ">"
      return (none, .declarations)
  | .head => do
    if ← filler then return (none, .head) else root
  | .content depth => do
    if ← remark then return (none, .content depth)
    else if ← skip "<![CDATA[" then
      let _ ← letters "]]>"
      return (none, .content depth)
    else if ← skip "</" then
      return (← endTag (depth - 1), .inside (depth - 1))
    else if ← ahead "<" then
      let (tag, isEmpty) ← startTag depth
      return (tag, .content (if isEmpty then depth else depth + 1))
    else
      return (← text, .content depth)
  | .tail => do
    guard (← filler)
    return (none, .tail)

/-- The tokens of a text at a place. Each step reads a character at least. -/
def tokensFrom : Nat → Place → List Char → List Token
  | 0, _, _ | _, _, [] => []
  | n + 1, place, cs =>
    match step place cs with
    | none => [.malformed]
    | some ((token, place), cs) => token.toList ++ tokensFrom n place cs

end Lexer

/-- The tokens of a document. A byte order mark may stand at the very beginning. -/
def tokens (document : String) : List Token :=
  let cs := match document.toList with
    | '\ufeff' :: cs => cs
    | cs => cs
  match Lexer.declaration cs with
  | none => [.malformed]
  | some (_, cs) => Lexer.tokensFrom cs.length .prolog cs

end DeadLetter.Xml

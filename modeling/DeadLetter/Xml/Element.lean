import DeadLetter.Xml.Reference
import DeadLetter.Xml.Token

/-!
# Elements of a list of XML tokens

A document is read element by element, without a tree. `Element.next` finds the elements in an element, `Element.each`
reads them one after another, `Element.data` reads the characters in an element. An element ends at the end tag with its
name around which as many elements are open as around its start tag; a tag that does not match ends nothing.
-/

namespace DeadLetter.Xml

set_option autoImplicit false

abbrev Walk (α : Type) := StateT (List Token) Option α

/-- An element whose start tag has been read. -/
structure Element where
  depth : Nat
  name : Name
  isEmpty : Bool
deriving DecidableEq, Repr

namespace Element

def endTag (e : Element) : Token := .close e.depth e.name

def after (e : Element) (ts : List Token) : List Token :=
  if e.isEmpty then ts else (ts.dropWhile (· ≠ e.endTag)).drop 1

def leave (e : Element) : Walk Unit := modify e.after

/-- The next element in the content of the element, and the tokens after its start tag; if there is none, or if one of
its attributes stands for nothing, the tokens after the element. -/
def nextFrom (e : Element) : List Token → Option Element × List Token
  | [] => (none, [])
  | .start depth name attributes isEmpty :: ts =>
    if attributes.all fun a => (resolve? a).isSome then (some ⟨depth, name, isEmpty⟩, ts) else (none, e.after ts)
  | t :: ts => if t = e.endTag then (none, ts) else nextFrom e ts

def next (e : Element) : Walk (Option Element) := fun ts => some (if e.isEmpty then (none, ts) else e.nextFrom ts)

/-- The characters of the first text in the content of the element, if no element stands before it. -/
def dataFrom? (e : Element) : List Token → Option String
  | [] => some ""
  | .text written :: _ => (resolve? written).map .ofList
  | .close depth name :: ts => if .close depth name = e.endTag then some "" else dataFrom? e ts
  | _ => none

/-- Reads the characters in the element, and goes out of it. -/
def data (e : Element) : Walk String := do
  let s ← if e.isEmpty then pure "" else e.dataFrom? (← get)
  e.leave
  return s

/-- Reads at most so many elements in the element. -/
def eachOf {α : Type} (e : Element) (read : α → Element → Walk α) : Nat → α → Walk α
  | 0, a => return a
  | n + 1, a => do
    match ← e.next with
    | none => return a
    | some child => eachOf e read n (← read a child)

/-- Reads all elements in the element, each of which takes a token at least, and goes out of it. -/
def each {α : Type} (e : Element) (read : α → Element → Walk α) (a : α) : Walk α := do
  e.eachOf read ((← get).length + 1) a

end Element

/-- The outermost element and the tokens after its start tag. -/
def rootFrom? : List Token → Option (Element × List Token)
  | [] => none
  | .start depth name attributes isEmpty :: ts =>
    if attributes.all fun a => (resolve? a).isSome then some (⟨depth, name, isEmpty⟩, ts) else none
  | _ :: ts => rootFrom? ts

def root : Walk Element := rootFrom?

def walk? {α : Type} (w : Walk α) (document : String) : Option α := (w (tokens document)).map (·.1)

end DeadLetter.Xml

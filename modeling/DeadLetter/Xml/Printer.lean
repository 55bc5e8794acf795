import DeadLetter.Xml.Reference

/-!
# Writing XML documents

A document is written from a tree of elements and texts, without attributes and blanks.
-/

namespace DeadLetter

set_option autoImplicit false

/-- An element with what it holds, or a text with its references. -/
inductive Xml where
  | element (name : String) (children : List Xml)
  | text (written : List Char)
deriving Repr, Inhabited

namespace Xml

def ofText (s : String) : Xml := .text (s.toList.flatMap escape)

mutual

def chars : Xml → List Char
  | .text written => written
  | .element name children => '<' :: (name.toList ++ '>' :: (charsOf children ++ '<' :: '/' :: (name.toList ++ ['>'])))
termination_by structural x => x

def charsOf : List Xml → List Char
  | [] => []
  | x :: xs => chars x ++ charsOf xs
termination_by structural xs => xs

end

def render (x : Xml) : String := .ofList (chars x)

end Xml

end DeadLetter

/-!
# Characters of XML documents

The classes of characters by which a document is taken apart: those that may stand in it at all, blanks, and those that
a name may begin with or go on with.
-/

namespace DeadLetter.Xml

set_option autoImplicit false

/-- Blanks: space, tab, line feed and carriage return. -/
def isSpace (c : Char) : Bool := c = ' ' || c = '\t' || c = '\n' || c = '\r'

/-- The characters that may stand in a document. Of the control characters only blanks may. -/
def isLetter (c : Char) : Bool := if c.toNat < 0x20 then isSpace c else c.toNat ≠ 0xFFFE && c.toNat ≠ 0xFFFF

/-- The characters beyond ASCII that a name may begin with. -/
def nameRanges : List (Nat × Nat) := [
  (0xC0, 0xD6), (0xD8, 0xF6), (0xF8, 0x2FF), (0x370, 0x37D), (0x37F, 0x1FFF), (0x200C, 0x200D), (0x2070, 0x218F),
  (0x2C00, 0x2FEF), (0x3001, 0xD7FF), (0xF900, 0xFDCF), (0xFDF0, 0xFFFD), (0x10000, 0xEFFFF)]

def startsName (c : Char) : Bool :=
  c.isAlpha || c = ':' || c = '_' || nameRanges.any fun r => r.1 ≤ c.toNat && c.toNat ≤ r.2

def isInName (c : Char) : Bool :=
  startsName c || c.isDigit || c = '-' || c = '.' || c.toNat = 0xB7 || (0x300 ≤ c.toNat && c.toNat ≤ 0x36F) ||
    (0x203F ≤ c.toNat && c.toNat ≤ 0x2040)

end DeadLetter.Xml

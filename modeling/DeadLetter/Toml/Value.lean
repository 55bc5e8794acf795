/-!
# Values of a settings document

Settings are texts, integers, lists and tables; a table keeps its entries in the order of the document. The format has
truth values, floating point numbers, dates and times too. No setting is one of them, so of these a document only tells
that they are there.
-/

namespace DeadLetter.Toml

set_option autoImplicit false

/-- A value of a settings document. -/
inductive Value where
  | text (s : String)
  | integer (n : Int)
  | list (items : List Value)
  | table (entries : List (String × Value))
  | other
deriving Repr, BEq, Inhabited

end DeadLetter.Toml

import DeadLetter.Toml.Value

/-!
# Tables under construction

A document names the same table in several places, and how a table came about decides whether it may be named again: one
that a header declared may not, one that a longer header passed through may be declared once, and one that a dotted key
made takes further dotted keys only. A declared table stands where its header does.
-/

namespace DeadLetter.Toml

set_option autoImplicit false

/-- How a table came about. -/
inductive Origin where
  | declared
  | passed
  | dotted
deriving DecidableEq, Repr

/-- A value, or a table under construction. -/
inductive Node where
  | value (v : Value)
  | table (origin : Origin) (entries : List (String × Node))
deriving Repr, Inhabited

namespace Node

/-- Entries with the node under a key replaced. -/
def replace (entries : List (String × Node)) (key : String) (node : Node) : List (String × Node) :=
  entries.map fun e => if e.1 = key then (key, node) else e

/-- Sets a key of a table, under the tables of a dotted path. -/
def insert? (entries : List (String × Node)) : List String → String → Value → Option (List (String × Node))
  | [], key, v => if (entries.lookup key).isSome then none else some (entries ++ [(key, .value v)])
  | k :: ks, key, v =>
    match entries.lookup k with
    | none => (insert? [] ks key v).map fun sub => entries ++ [(k, .table .dotted sub)]
    | some (.table origin sub) =>
      if origin = .declared ∨ (ks = [] ∧ origin ≠ .dotted) then none
      else (insert? sub ks key v).map fun sub => replace entries k (.table origin sub)
    | some (.value _) => none

/-- Declares the table of a header. -/
def declare? (entries : List (String × Node)) : List String → Option (List (String × Node))
  | [] => none
  | [k] =>
    match entries.lookup k with
    | none => some (entries ++ [(k, .table .declared [])])
    | some (.table .passed sub) => some (entries.filter (·.1 ≠ k) ++ [(k, .table .declared sub)])
    | some _ => none
  | k :: ks =>
    match entries.lookup k with
    | none => (declare? [] ks).map fun sub => entries ++ [(k, .table .passed sub)]
    | some (.table origin sub) => (declare? sub ks).map fun sub => replace entries k (.table origin sub)
    | some (.value _) => none

/-- Sets a key of the table that a header declared. -/
def insertUnder? (entries : List (String × Node)) :
    List String → List String → String → Value → Option (List (String × Node))
  | [], path, key, v => insert? entries path key v
  | k :: ks, path, key, v =>
    match entries.lookup k with
    | some (.table origin sub) =>
      (insertUnder? sub ks path key v).map fun sub => replace entries k (.table origin sub)
    | _ => none

mutual

def toValue : Node → Value
  | .value v => v
  | .table _ entries => .table (toEntries entries)
termination_by structural n => n

def toEntries : List (String × Node) → List (String × Value)
  | [] => []
  | (k, n) :: r => (k, toValue n) :: toEntries r
termination_by structural r => r

end

end Node

end DeadLetter.Toml

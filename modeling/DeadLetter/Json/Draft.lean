import DeadLetter.Json.Token

/-!
# JSON texts before their values are settled

A `Draft` is what the grammar makes of a text: members in the order written, with keys that may occur twice, numbers and
strings as they are written. `Draft.read?` takes a text of RFC 8259, `Draft.readLoose?` any whose brackets and marks are
in order. `Draft.toJson?` settles the value: every number and string must have one, arrays and objects nest at most 127
deep, and of two members with one key the later counts.
-/

namespace DeadLetter.Json

set_option autoImplicit false

/-- A JSON text by its grammar. -/
inductive Draft where
  | null
  | bool (b : Bool)
  | number (written : List Char)
  | string (written : List Char)
  | array (items : List Draft)
  | object (members : List (List Char × Draft))
deriving Repr, Inhabited

namespace Draft

mutual

/-- Reads a value at the front of a list of tokens. -/
def value? : Nat → List Token → Option (Draft × List Token)
  | _ + 1, .null :: ts => some (.null, ts)
  | _ + 1, .bool b :: ts => some (.bool b, ts)
  | _ + 1, .number w :: ts => some (.number w, ts)
  | _ + 1, .string w :: ts => some (.string w, ts)
  | _ + 1, .beginArray :: .endArray :: ts => some (.array [], ts)
  | n + 1, .beginArray :: ts => do
    let (items, ts) ← items? n ts
    some (.array items, ts)
  | _ + 1, .beginObject :: .endObject :: ts => some (.object [], ts)
  | n + 1, .beginObject :: ts => do
    let (members, ts) ← members? n ts
    some (.object members, ts)
  | _, _ => none

def items? : Nat → List Token → Option (List Draft × List Token)
  | 0, _ => none
  | n + 1, ts => do
    match ← value? n ts with
    | (v, .endArray :: ts) => some ([v], ts)
    | (v, .comma :: ts) =>
      let (vs, ts) ← items? n ts
      some (v :: vs, ts)
    | _ => none

def members? : Nat → List Token → Option (List (List Char × Draft) × List Token)
  | n + 1, .string k :: .colon :: ts => do
    match ← value? n ts with
    | (v, .endObject :: ts) => some ([(k, v)], ts)
    | (v, .comma :: ts) =>
      let (ms, ts) ← members? n ts
      some ((k, v) :: ms, ts)
    | _ => none
  | _, _ => none

end

/-- The draft of a list of tokens. Each token takes at most two steps. -/
def ofTokens? (ts : List Token) : Option Draft :=
  match value? (2 * ts.length + 1) ts with
  | some (v, []) => some v
  | _ => none

/-- The draft of a text, with loose strings and numbers. -/
def readLoose? (s : String) : Option Draft := tokens? s >>= ofTokens?

/-- The draft of a text. -/
def read? (s : String) : Option Draft := do
  let ts ← tokens? s
  if ts.all Token.isStrict then ofTokens? ts else none

mutual

def depth : Draft → Nat
  | .array items => depthOfItems items + 1
  | .object members => depthOfMembers members + 1
  | _ => 0
termination_by structural d => d

def depthOfItems : List Draft → Nat
  | [] => 0
  | d :: ds => max (depth d) (depthOfItems ds)
termination_by structural ds => ds

def depthOfMembers : List (List Char × Draft) → Nat
  | [] => 0
  | (_, d) :: ms => max (depth d) (depthOfMembers ms)
termination_by structural ms => ms

end

/-- How deep arrays and objects nest at most. -/
def depthLimit : Nat := 127

mutual

/-- The value of a draft in which containers nest at most `depth` deep. -/
def settle? (depth : Nat) : Draft → Option Json
  | .null => some .null
  | .bool b => some (.bool b)
  | .number w => Numeral.read? w >>= Numeral.toJson?
  | .string w => (decodeText? w).map .string
  | .array items => if depth = 0 then none else (settleItems? (depth - 1) items).map .array
  | .object members => if depth = 0 then none else (settleMembers? (depth - 1) members []).map .object
termination_by structural d => d

def settleItems? (depth : Nat) : List Draft → Option (List Json)
  | [] => some []
  | d :: ds => do
    let v ← settle? depth d
    let vs ← settleItems? depth ds
    some (v :: vs)
termination_by structural ds => ds

/-- The values of the members of an object, put after those that are done. -/
def settleMembers? (depth : Nat) : List (List Char × Draft) → Dict Json → Option (Dict Json)
  | [], done => some done
  | (w, d) :: ms, done => do
    let k ← decodeText? w
    let v ← settle? depth d
    settleMembers? depth ms (done.put k v)
termination_by structural ms => ms

end

def toJson? (d : Draft) : Option Json := d.settle? depthLimit

end Draft

/-- The value that a text writes, if it writes one. -/
def read? (s : String) : Option Json := Draft.read? s >>= Draft.toJson?

end DeadLetter.Json

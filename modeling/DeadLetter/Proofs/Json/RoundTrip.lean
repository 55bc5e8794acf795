import DeadLetter.Json.Printer
import DeadLetter.Proofs.Dict
import DeadLetter.Proofs.Json.Grammar
import DeadLetter.Proofs.Json.Lexing
import DeadLetter.Proofs.Json.Numbers
import DeadLetter.Proofs.Json.Parts

/-!
# JSON values that are written and read back

Every value has a draft, `Draft.ofJson`. The compact text of the value is read as the tokens of its draft (`lexes`), so
by the strict grammar as the draft itself (`draft_compact`). `Plain n v` : the numbers of the value `v` are integers of 64
bits, the members of its objects stand in order, and its arrays and objects nest at most `n` deep. Then its draft settles
to it again (`Plain.settle?`), and with `n` at most 127 it is what its compact text is read as (`read?_compact`).
`Exact n v` is the like for integers with a sign and members in any order, which are put in order by reading
(`Exact.read?_compact`).
-/

namespace DeadLetter.Json

set_option autoImplicit false

/-- A value whose numbers are integers of 64 bits, signed or unsigned, and whose arrays and objects nest at most so
deep. The members of its objects are in key order. -/
inductive Plain : Nat → Json → Prop where
  | null {n : Nat} : Plain n .null
  | bool {n : Nat} (b : Bool) : Plain n (.bool b)
  | int {n : Nat} {i : Int} (low : -0x8000000000000000 ≤ i) (high : i ≤ 0xFFFFFFFFFFFFFFFF) : Plain n (.int i)
  | string {n : Nat} (s : String) : Plain n (.string s)
  | array {n : Nat} {items : List Json} (each : ∀ v ∈ items, Plain n v) : Plain (n + 1) (.array items)
  | object {n : Nat} {members : Dict Json} (ordered : members.Ordered) (each : ∀ e ∈ members, Plain n e.2) :
    Plain (n + 1) (.object members)

/-- An object of plain members is plain, in whatever order they are given. -/
theorem Plain.ofMembers {n : Nat} {members : List (String × Json)} (h : ∀ e ∈ members, Plain n e.2) :
    Plain (n + 1) (.ofMembers members) :=
  .object (Dict.ordered_ofList members) fun e he => h e (Dict.mem_ofList he)

/-! ## What a value is written as -/

namespace Draft

mutual

/-- The draft that a value is written as. -/
def ofJson : Json → Draft
  | .null => .null
  | .bool b => .bool b
  | .int n => .number (Text.intText n).toList
  | .float x => .number (floatText x)
  | .string s => .string (s.toList.flatMap escape)
  | .array items => .array (ofItems items)
  | .object members => .object (ofMembers members)
termination_by structural v => v

def ofItems : List Json → List Draft
  | [] => []
  | v :: vs => ofJson v :: ofItems vs
termination_by structural vs => vs

def ofMembers : List (String × Json) → List (List Char × Draft)
  | [] => []
  | (k, v) :: ms => (k.toList.flatMap escape, ofJson v) :: ofMembers ms
termination_by structural ms => ms

end

theorem tokensOfItems_ofItems (v v' : Json) (vs : List Json) :
    tokensOfItems (ofItems (v :: v' :: vs)) = (ofJson v).tokens ++ .comma :: tokensOfItems (ofItems (v' :: vs)) := rfl

theorem tokensOfMembers_ofMembers (k : String) (v : Json) (e : String × Json) (ms : List (String × Json)) :
    tokensOfMembers (ofMembers ((k, v) :: e :: ms)) =
      .string (k.toList.flatMap escape) :: .colon ::
        ((ofJson v).tokens ++ .comma :: tokensOfMembers (ofMembers (e :: ms))) := rfl

end Draft

open Draft Lexer

/-! ## Text to tokens -/

/-- The text of a value is read as the tokens of its draft, in front of anything that a bare token can end before. -/
def Lexes (v : Json) : Prop :=
  ∀ (ts : List Token) (rest : List Char), Ends rest →
    lex ⟨ts, .between⟩ (chars v ++ rest) = lex ⟨(ofJson v).tokens.reverse ++ ts, .between⟩ rest

theorem lex_charsOfItems {items : List Json} (h : ∀ v ∈ items, Lexes v) (ts : List Token) (rest : List Char) :
    lex ⟨ts, .between⟩ (charsOfItems items ++ rest) =
      lex ⟨(tokensOfItems (ofItems items)).reverse ++ ts, .between⟩ rest := by
  induction items generalizing ts with
  | nil => exact lex_mark rfl
  | cons v items ih =>
    have hv := h v List.mem_cons_self
    cases items with
    | nil =>
      rw [charsOfItems, List.append_assoc, List.singleton_append, hv _ _ (ends_cons rfl), lex_mark rfl, ofItems,
        ofItems, tokensOfItems, List.reverse_append]
      rfl
    | cons v' items =>
      rw [charsOfItems, List.append_assoc, List.cons_append, hv _ _ (ends_cons rfl), lex_mark rfl,
        ih fun w hw => h w (List.mem_cons_of_mem _ hw), tokensOfItems_ofItems, List.reverse_append, List.reverse_cons,
        List.append_assoc, List.append_assoc]
      · rfl
      · exact List.cons_ne_nil _ _

theorem lex_charsOfMembers {members : List (String × Json)} (h : ∀ e ∈ members, Lexes e.2) (ts : List Token)
    (rest : List Char) :
    lex ⟨ts, .between⟩ (charsOfMembers members ++ rest) =
      lex ⟨(tokensOfMembers (Draft.ofMembers members)).reverse ++ ts, .between⟩ rest := by
  induction members generalizing ts with
  | nil => exact lex_mark rfl
  | cons e members ih =>
    obtain ⟨k, v⟩ := e
    have hv : Lexes v := h (k, v) List.mem_cons_self
    cases members with
    | nil =>
      rw [charsOfMembers, List.append_assoc, lex_quote, List.cons_append, lex_mark rfl, List.append_assoc,
        List.singleton_append, hv _ _ (ends_cons rfl), lex_mark rfl, Draft.ofMembers, Draft.ofMembers, tokensOfMembers,
        List.reverse_cons, List.reverse_cons, List.reverse_append]
      simp only [List.append_assoc]
      rfl
    | cons e' members =>
      rw [charsOfMembers, List.append_assoc, lex_quote, List.cons_append, lex_mark rfl, List.append_assoc,
        List.cons_append, hv _ _ (ends_cons rfl), lex_mark rfl, ih fun w hw => h w (List.mem_cons_of_mem _ hw),
        tokensOfMembers_ofMembers, List.reverse_cons, List.reverse_cons, List.reverse_append, List.reverse_cons]
      · simp only [List.append_assoc]
        rfl
      · exact List.cons_ne_nil _ _

theorem lexes (v : Json) : Lexes v := by
  induction v using Json.induction with
  | null => exact fun _ _ => lex_bare rfl (by decide) (List.all_eq_true.mp (by decide))
  | bool b => cases b <;> exact fun _ _ => lex_bare rfl (by decide) (List.all_eq_true.mp (by decide))
  | int n =>
    exact fun _ _ => lex_bare (ofBare?_of_isNumber (isNumber_intText n)) (Text.intText_ne_nil n)
      fun c => isBare_of_mem_intText
  | float x =>
    exact fun _ _ => lex_bare (ofBare?_of_isNumber (isNumber_floatText x)) (floatText_ne_nil x)
      fun c => isBare_of_mem_floatText
  | string s => exact fun _ _ _ => lex_quote s
  | array items ih =>
    intro ts rest _
    rw [chars, List.cons_append, lex_mark rfl, lex_charsOfItems ih, ofJson, tokens, List.reverse_cons,
      List.append_assoc]
    rfl
  | object members ih =>
    intro ts rest _
    rw [chars, List.cons_append, lex_mark rfl, lex_charsOfMembers ih, ofJson, tokens, List.reverse_cons,
      List.append_assoc]
    rfl

theorem tokens?_compact (v : Json) : tokens? v.compact = some (ofJson v).tokens := by
  have hlex := lexes v [] [] ends_nil
  rw [List.append_nil, List.append_nil] at hlex
  rw [tokens?_eq_lex, compact, String.toList_ofList, hlex]
  exact congrArg some (List.reverse_reverse _)

/-! ## Strict tokens -/

theorem isStrict_string (s : String) : Token.isStrict (.string (s.toList.flatMap escape)) = true := by
  rw [Token.isStrict, pieces?_flatMap_escape]
  rfl

theorem isStrict_tokensOfItems {items : List Json} (h : ∀ v ∈ items, (ofJson v).tokens.all Token.isStrict = true) :
    (tokensOfItems (ofItems items)).all Token.isStrict = true := by
  induction items with
  | nil => rfl
  | cons v items ih =>
    have hv := h v List.mem_cons_self
    cases items with
    | nil => simp [ofItems, tokensOfItems, hv, Token.isStrict]
    | cons v' items =>
      rw [tokensOfItems_ofItems, List.all_append, hv, List.all_cons, ih fun w hw => h w (List.mem_cons_of_mem _ hw)]
      rfl

theorem isStrict_tokensOfMembers {members : List (String × Json)}
    (h : ∀ e ∈ members, (ofJson e.2).tokens.all Token.isStrict = true) :
    (tokensOfMembers (Draft.ofMembers members)).all Token.isStrict = true := by
  induction members with
  | nil => rfl
  | cons e members ih =>
    obtain ⟨k, v⟩ := e
    have hv : (ofJson v).tokens.all Token.isStrict = true := h (k, v) List.mem_cons_self
    cases members with
    | nil => simp [Draft.ofMembers, tokensOfMembers, hv, Token.isStrict, pieces?_flatMap_escape]
    | cons e' members =>
      rw [tokensOfMembers_ofMembers, List.all_cons, isStrict_string, List.all_cons, List.all_append, hv, List.all_cons,
        ih fun w hw => h w (List.mem_cons_of_mem _ hw)]
      rfl

theorem isStrict_tokens (v : Json) : (ofJson v).tokens.all Token.isStrict = true := by
  induction v using Json.induction with
  | null | bool => rfl
  | int n =>
    rw [ofJson, tokens, List.all_cons, Token.isStrict, Numeral.read?_intText]
    rfl
  | float x =>
    rw [ofJson, tokens, List.all_cons, Token.isStrict, Numeral.isSome_read?_floatText]
    rfl
  | string s =>
    rw [ofJson, tokens, List.all_cons, isStrict_string]
    rfl
  | array items ih => exact isStrict_tokensOfItems ih
  | object members ih => exact isStrict_tokensOfMembers ih

/-- The strict grammar reads the text of a value as its draft. -/
theorem draft_compact (v : Json) : Draft.read? v.compact = some (ofJson v) := by
  rw [Draft.read?, tokens?_compact]
  simp only [Option.bind_eq_bind, Option.bind_some, isStrict_tokens, if_true, ofTokens?_tokens]

/-! ## Draft to value -/

theorem decodeText?_escape (s : String) : decodeText? (s.toList.flatMap escape) = some s := by
  rw [decodeText?, decode?_escape, Option.map_some, String.ofList_toList]

theorem settleItems?_ofItems {n : Nat} {f : Json → Json} {items : List Json}
    (h : ∀ v ∈ items, settle? n (ofJson v) = some (f v)) : settleItems? n (ofItems items) = some (items.map f) := by
  induction items with
  | nil => rfl
  | cons v items ih =>
    rw [ofItems, settleItems?, h v List.mem_cons_self, ih fun w hw => h w (List.mem_cons_of_mem _ hw)]
    rfl

theorem settleMembers?_ofMembers {n : Nat} {f : Json → Json} {members : List (String × Json)}
    (h : ∀ e ∈ members, settle? n (ofJson e.2) = some (f e.2)) (done : Dict Json) :
    settleMembers? n (Draft.ofMembers members) done =
      some ((members.map fun e => (e.1, f e.2)).foldl (fun d e => d.put e.1 e.2) done) := by
  induction members generalizing done with
  | nil => rfl
  | cons e members ih =>
    obtain ⟨k, v⟩ := e
    rw [Draft.ofMembers, settleMembers?, decodeText?_escape, h (k, v) List.mem_cons_self]
    exact ih (fun w hw => h w (List.mem_cons_of_mem _ hw)) _

theorem Plain.settle? {n : Nat} {v : Json} (h : Plain n v) : Draft.settle? n (ofJson v) = some v := by
  induction h with
  | null | bool => rfl
  | @int _ i low high =>
    rw [ofJson, Draft.settle?, Numeral.read?_intText]
    exact Numeral.toJson?_ofInt low high
  | string s =>
    rw [ofJson, Draft.settle?, decodeText?_escape]
    rfl
  | array _ ih =>
    rw [ofJson, Draft.settle?, if_neg (Nat.succ_ne_zero _), Nat.add_sub_cancel, settleItems?_ofItems ih, List.map_id']
    rfl
  | object ordered _ ih =>
    have hsettle := @settleMembers?_ofMembers _ id _ ih []
    rw [show (fun e : String × Json => (e.1, id e.2)) = id from rfl, List.map_id] at hsettle
    rw [ofJson, Draft.settle?, if_neg (Nat.succ_ne_zero _), Nat.add_sub_cancel, hsettle]
    exact congrArg (fun d => some (Json.object d)) (Dict.ofList_of_ordered ordered)

theorem Plain.mono {n m : Nat} {v : Json} (h : Plain n v) (hle : n ≤ m) : Plain m v := by
  induction h generalizing m with
  | null => exact .null
  | bool b => exact .bool b
  | int low high => exact .int low high
  | string s => exact .string s
  | array _ ih =>
    obtain ⟨m, rfl⟩ := Nat.exists_eq_add_of_le' hle
    exact .array fun v hv => ih v hv (Nat.le_add_left _ _)
  | object ordered _ ih =>
    obtain ⟨m, rfl⟩ := Nat.exists_eq_add_of_le' hle
    exact .object ordered fun e he => ih e he (Nat.le_add_left _ _)

/-- A plain value that nests no deeper than is allowed is what its text is read as. -/
theorem read?_compact {v : Json} (h : Plain Draft.depthLimit v) : read? v.compact = some v := by
  rw [read?, draft_compact]
  exact h.settle?

/-- An integer of 64 bits with a sign. -/
def IsLong (i : Int) : Prop := -0x8000000000000000 ≤ i ∧ i ≤ 0x7FFFFFFFFFFFFFFF

/-- A value whose numbers are integers of 64 bits with a sign, whose objects have distinct keys, in any order, and whose
arrays and objects nest at most so deep. -/
structure Exact (n : Nat) (v : Json) : Prop where
  depth_le : v.depth ≤ n
  floatFree : v.FloatFree
  long : ∀ i, .int i ∈ v.parts → IsLong i
  distinct : ∀ members, .object members ∈ v.parts → (members.map (·.1)).Nodup

theorem Exact.inside {n m : Nat} {v w : Json} (h : Exact n v) (hparts : ∀ x ∈ w.parts, x ∈ v.parts)
    (hdepth : w.depth ≤ m) : Exact m w where
  depth_le := hdepth
  floatFree x hx := h.floatFree x (hparts _ hx)
  long i hi := h.long i (hparts _ hi)
  distinct members hmem := h.distinct members (hparts _ hmem)

theorem Exact.items {n : Nat} {items : List Json} (h : Exact n (.array items)) :
    n ≠ 0 ∧ ∀ v ∈ items, Exact (n - 1) v := by
  obtain ⟨hn, hdepth⟩ := depth_array_le_iff.mp h.depth_le
  exact ⟨hn, fun v hv => h.inside (fun x hx => mem_parts_array.mpr (Or.inr ⟨v, hv, hx⟩)) (hdepth v hv)⟩

theorem Exact.members {n : Nat} {members : List (String × Json)} (h : Exact n (.object members)) :
    n ≠ 0 ∧ ∀ e ∈ members, Exact (n - 1) e.2 := by
  obtain ⟨hn, hdepth⟩ := depth_object_le_iff.mp h.depth_le
  exact ⟨hn, fun e he => h.inside (fun x hx => mem_parts_object.mpr (Or.inr ⟨e, he, hx⟩)) (hdepth e he)⟩

/-- The draft of a value settles to the value with the members of its objects in key order. -/
theorem Exact.settle? {n : Nat} {v : Json} (h : Exact n v) : Draft.settle? n (ofJson v) = some v.sorted := by
  induction v using Json.induction generalizing n with
  | null | bool => rfl
  | int i =>
    obtain ⟨hlow, hhigh⟩ := h.long i (mem_parts_self _)
    rw [ofJson, Draft.settle?, Numeral.read?_intText]
    exact Numeral.toJson?_ofInt hlow (by omega)
  | float x => exact absurd (mem_parts_self _) (h.floatFree x)
  | string s =>
    rw [ofJson, Draft.settle?, decodeText?_escape]
    rfl
  | array items ih =>
    obtain ⟨hn, hitems⟩ := h.items
    rw [ofJson, Draft.settle?, if_neg hn, settleItems?_ofItems fun v hv => ih v hv (hitems v hv), sorted, sortedItems_eq]
    rfl
  | object members ih =>
    obtain ⟨hn, hmembers⟩ := h.members
    have hdistinct : ((members.map fun e => (e.1, e.2.sorted)).map (·.1)).Nodup := by
      rw [List.map_map]
      exact h.distinct members (mem_parts_self _)
    rw [ofJson, Draft.settle?, if_neg hn, settleMembers?_ofMembers fun e he => ih e he (hmembers e he), sorted,
      sortedMembers_eq, ← ofList_eq_sortMembers hdistinct]
    rfl

/-- A value whose numbers are integers of 64 bits is what its compact text is read as, in whatever order the members of
its objects are written. -/
theorem Exact.read?_compact {v : Json} (h : Exact Draft.depthLimit v) : Json.read? v.compact = some v.sorted := by
  rw [Json.read?, draft_compact]
  exact h.settle?

end DeadLetter.Json

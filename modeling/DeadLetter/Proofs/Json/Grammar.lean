import DeadLetter.Json.Draft

/-!
# The tokens of a draft

`Draft.tokens` lists the tokens that write a draft. `value?_tokens` : the grammar reads the draft back from the front of
any list of tokens, whatever follows, if it may take two steps for each token; so `ofTokens?_tokens` : the draft is what
its tokens are read as.
-/

namespace DeadLetter.Json.Draft

set_option autoImplicit false

mutual

def tokens : Draft → List Token
  | .null => [.null]
  | .bool b => [.bool b]
  | .number w => [.number w]
  | .string w => [.string w]
  | .array items => .beginArray :: tokensOfItems items
  | .object members => .beginObject :: tokensOfMembers members
termination_by structural d => d

def tokensOfItems : List Draft → List Token
  | [] => [.endArray]
  | [d] => tokens d ++ [.endArray]
  | d :: ds => tokens d ++ .comma :: tokensOfItems ds
termination_by structural ds => ds

def tokensOfMembers : List (List Char × Draft) → List Token
  | [] => [.endObject]
  | [(k, d)] => .string k :: .colon :: (tokens d ++ [.endObject])
  | (k, d) :: ms => .string k :: .colon :: (tokens d ++ .comma :: tokensOfMembers ms)
termination_by structural ms => ms

end

theorem length_tokens_pos (d : Draft) : 0 < d.tokens.length := by
  cases d <;> exact Nat.succ_pos _

theorem length_tokensOfItems_cons (d : Draft) (ds : List Draft) : 1 < (tokensOfItems (d :: ds)).length := by
  have hd := d.length_tokens_pos
  cases ds with
  | nil =>
    rw [tokensOfItems, List.length_append, List.length_singleton]
    omega
  | cons d' ds =>
    rw [tokensOfItems, List.length_append, List.length_cons]
    · omega
    · exact List.cons_ne_nil _ _

theorem length_tokensOfMembers_cons (m : List Char × Draft) (ms : List (List Char × Draft)) :
    1 < (tokensOfMembers (m :: ms)).length := by
  obtain ⟨k, d⟩ := m
  cases ms with
  | nil =>
    rw [tokensOfMembers, List.length_cons, List.length_cons]
    omega
  | cons m ms =>
    rw [tokensOfMembers, List.length_cons, List.length_cons]
    · omega
    · exact List.cons_ne_nil _ _

theorem value?_beginArray {n : Nat} {ts : List Token} (h : ∀ rest, ts ≠ .endArray :: rest) :
    value? (n + 1) (.beginArray :: ts) = (items? n ts).map fun r => (.array r.1, r.2) := by
  rw [value?]
  · cases items? n ts <;> rfl
  · exact h

theorem value?_beginObject {n : Nat} {ts : List Token} (h : ∀ rest, ts ≠ .endObject :: rest) :
    value? (n + 1) (.beginObject :: ts) = (members? n ts).map fun r => (.object r.1, r.2) := by
  rw [value?]
  · cases members? n ts <;> rfl
  · exact h

mutual

/-- A draft is read from its tokens. -/
theorem value?_tokens (d : Draft) (n : Nat) (rest : List Token) (h : 2 * d.tokens.length ≤ n + 1) :
    value? n (d.tokens ++ rest) = some (d, rest) := by
  match d, n with
  | .null, n + 1 => rfl
  | .bool b, n + 1 => rfl
  | .number w, n + 1 => rfl
  | .string w, n + 1 => rfl
  | .array [], n + 1 => rfl
  | .array (d :: ds), n + 1 =>
    rw [tokens, List.length_cons] at h
    rw [tokens, List.cons_append, value?_beginArray, items?_tokens (d :: ds) n rest (List.cons_ne_nil _ _) (by omega)]
    · rfl
    · cases ds <;> cases d <;> simp [tokensOfItems, tokens]
  | .object [], n + 1 => rfl
  | .object ((k, d) :: ms), n + 1 =>
    rw [tokens, List.length_cons] at h
    rw [tokens, List.cons_append, value?_beginObject, members?_tokens _ n rest (List.cons_ne_nil _ _) (by omega)]
    · rfl
    · cases ms <;> simp [tokensOfMembers]
  | d, 0 =>
    have := d.length_tokens_pos
    omega
termination_by structural d

theorem items?_tokens (ds : List Draft) (n : Nat) (rest : List Token) (hne : ds ≠ [])
    (h : 2 * (tokensOfItems ds).length ≤ n + 2) :
    items? n (tokensOfItems ds ++ rest) = some (ds, rest) := by
  match ds, n with
  | [d], n + 1 =>
    rw [tokensOfItems, List.length_append, List.length_singleton] at h
    rw [tokensOfItems, List.append_assoc, items?, value?_tokens d n _ (by omega)]
    rfl
  | d :: d' :: ds, n + 1 =>
    have hd := d.length_tokens_pos
    rw [tokensOfItems, List.length_append, List.length_cons] at h
    · rw [tokensOfItems, List.append_assoc, List.cons_append, items?, value?_tokens d n _ (by omega)]
      · show (items? n (tokensOfItems (d' :: ds) ++ rest)).bind _ = _
        rw [items?_tokens (d' :: ds) n rest (List.cons_ne_nil _ _) (by omega)]
        rfl
      · exact List.cons_ne_nil _ _
    · exact List.cons_ne_nil _ _
  | d :: ds, 0 =>
    have := length_tokensOfItems_cons d ds
    omega
termination_by structural ds

theorem members?_tokens (ms : List (List Char × Draft)) (n : Nat) (rest : List Token) (hne : ms ≠ [])
    (h : 2 * (tokensOfMembers ms).length ≤ n + 2) :
    members? n (tokensOfMembers ms ++ rest) = some (ms, rest) := by
  match ms, n with
  | [(k, d)], n + 1 =>
    rw [tokensOfMembers, List.length_cons, List.length_cons, List.length_append, List.length_singleton] at h
    rw [tokensOfMembers, List.cons_append, List.cons_append, List.append_assoc, members?,
      value?_tokens d n _ (by omega)]
    rfl
  | (k, d) :: m :: ms, n + 1 =>
    have hd := d.length_tokens_pos
    rw [tokensOfMembers, List.length_cons, List.length_cons, List.length_append, List.length_cons] at h
    · rw [tokensOfMembers, List.cons_append, List.cons_append, List.append_assoc, members?,
        value?_tokens d n _ (by omega)]
      · show (members? n (tokensOfMembers (m :: ms) ++ rest)).bind _ = _
        rw [members?_tokens (m :: ms) n rest (List.cons_ne_nil _ _) (by omega)]
        rfl
      · exact List.cons_ne_nil _ _
    · exact List.cons_ne_nil _ _
  | m :: ms, 0 =>
    have := length_tokensOfMembers_cons m ms
    omega
termination_by structural ms

end

/-- A draft is what its tokens are read as. -/
theorem ofTokens?_tokens (d : Draft) : ofTokens? d.tokens = some d := by
  have h := value?_tokens d (2 * d.tokens.length + 1) [] (by omega)
  rw [List.append_nil] at h
  rw [ofTokens?, h]

end DeadLetter.Json.Draft

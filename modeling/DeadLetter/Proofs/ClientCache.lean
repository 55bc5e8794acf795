import DeadLetter.ClientCache
import DeadLetter.Proofs.Dict
import Mathlib.Data.Finset.Card

/-!
# A cache makes one client for each key

`serve` : requests in order, each with its own way to make a client. What is kept under a key is what every later
request for the key gets (`clients_of_get?`), and the keys of a cache are those that were asked for (`keys_serve`).
`memoizes` : requests of a new cache have a client made at the first request for each key, and nowhere else.
-/

namespace DeadLetter.ClientCache

set_option autoImplicit false

variable {α σ : Type}

/-- A request for the client under a key, with the way to make it. -/
structure Request (α σ : Type) where
  key : String
  create : σ → α × σ

/-- The clients that requests get, and what they leave behind. -/
structure Outcome (α σ : Type) where
  clients : List α
  cache : ClientCache α
  state : σ

/-- Answers requests in order. -/
def serve (c : ClientCache α) (s : σ) : List (Request α σ) → Outcome α σ
  | [] => ⟨[], c, s⟩
  | r :: rs =>
    let (a, c, s) := c.getOrCreate r.key r.create s
    let rest := c.serve s rs
    { rest with clients := a :: rest.clients }

/-! ## One request -/

section Request
variable (c : ClientCache α) (s : σ) (r : Request α σ)

theorem get?_getOrCreate_self :
    (c.getOrCreate r.key r.create s).2.1.clients.get? r.key = some (c.getOrCreate r.key r.create s).1 := by
  cases hget : c.clients.get? r.key with
  | some a => rw [getOrCreate_of_get? hget, hget]
  | none => rw [getOrCreate_of_none hget, Dict.get?_put_self]

variable {c}

theorem get?_getOrCreate_of_some {key : String} {a : α} (h : c.clients.get? key = some a) :
    (c.getOrCreate r.key r.create s).2.1.clients.get? key = some a := by
  cases hget : c.clients.get? r.key with
  | some b => rw [getOrCreate_of_get? hget, h]
  | none =>
    have hne : key ≠ r.key := by
      rintro rfl
      rw [hget] at h
      cases h
    rw [getOrCreate_of_none hget, Dict.get?_put_of_ne _ _ hne, h]

theorem ordered_getOrCreate (h : c.clients.Ordered) :
    (c.getOrCreate r.key r.create s).2.1.clients.Ordered := by
  cases hget : c.clients.get? r.key with
  | some a =>
    rw [getOrCreate_of_get? hget]
    exact h
  | none =>
    rw [getOrCreate_of_none hget]
    exact Dict.ordered_put h _ _

variable (c)

def keys : Finset String := (c.clients.map (·.1)).toFinset

variable {c}

theorem get?_eq_none_iff {key : String} : c.clients.get? key = none ↔ key ∉ c.keys := by
  rw [keys, List.mem_toFinset, Dict.get?_eq_none_iff]

theorem keys_getOrCreate : (c.getOrCreate r.key r.create s).2.1.keys = insert r.key c.keys := by
  cases hget : c.clients.get? r.key with
  | some a =>
    have hmem : r.key ∈ c.keys := by
      by_contra hnot
      rw [get?_eq_none_iff.mpr hnot] at hget
      cases hget
    rw [getOrCreate_of_get? hget, Finset.insert_eq_of_mem hmem]
  | none =>
    rw [getOrCreate_of_none hget]
    unfold keys
    rw [List.toFinset_eq_of_perm _ _ ((Dict.perm_put_of_none hget _).map _), List.map_cons, List.toFinset_cons]

end Request

/-! ## Requests in order -/

section Serve
variable (c : ClientCache α) (s : σ) (rs : List (Request α σ))

theorem serve_cons (r : Request α σ) :
    c.serve s (r :: rs) =
      let made := c.getOrCreate r.key r.create s
      let rest := made.2.1.serve made.2.2 rs
      { rest with clients := made.1 :: rest.clients } := rfl

theorem serve_of_get? {c : ClientCache α} {r : Request α σ} {a : α} (h : c.clients.get? r.key = some a) :
    c.serve s (r :: rs) = { c.serve s rs with clients := a :: (c.serve s rs).clients } := by
  rw [serve_cons, getOrCreate_of_get? h]

/-- A request for a new key has its client made and kept before all that follows. -/
theorem serve_of_none {c : ClientCache α} {r : Request α σ} (h : c.clients.get? r.key = none) :
    c.serve s (r :: rs) =
      let made := r.create s
      let rest := serve ⟨c.clients.put r.key made.1⟩ made.2 rs
      { rest with clients := made.1 :: rest.clients } := by
  rw [serve_cons, getOrCreate_of_none h]

/-- The requests after some others are answered by the cache, and in the state, that these leave. -/
theorem serve_append (rs' : List (Request α σ)) :
    c.serve s (rs ++ rs') =
      let first := c.serve s rs
      let rest := first.cache.serve first.state rs'
      { rest with clients := first.clients ++ rest.clients } := by
  induction rs generalizing c s with
  | nil => rfl
  | cons r rs ih =>
    rw [List.cons_append, serve_cons, serve_cons]
    dsimp only
    rw [ih]
    rfl

theorem length_clients : (c.serve s rs).clients.length = rs.length := by
  induction rs generalizing c s with
  | nil => rfl
  | cons r rs ih => exact congrArg Nat.succ (ih _ _)

variable {c}

theorem ordered_serve (h : c.clients.Ordered) : (c.serve s rs).cache.clients.Ordered := by
  induction rs generalizing c s with
  | nil => exact h
  | cons r rs ih => exact ih _ (ordered_getOrCreate s r h)

variable (c)

theorem keys_serve : (c.serve s rs).cache.keys = c.keys ∪ (rs.map (·.key)).toFinset := by
  induction rs generalizing c s with
  | nil => exact (Finset.union_empty _).symm
  | cons r rs ih =>
    rw [serve_cons]
    dsimp only
    rw [ih, keys_getOrCreate, List.map_cons, List.toFinset_cons, Finset.insert_union, Finset.union_insert]

variable {c}

/-- What is kept under a key is what all requests for the key get. -/
theorem clients_of_get? {key : String} {a : α} (h : c.clients.get? key = some a) {i : Nat}
    (hi : rs[i]?.map (·.key) = some key) : (c.serve s rs).clients[i]? = some a := by
  induction rs generalizing c s i with
  | nil => cases hi
  | cons r rs ih =>
    cases i with
    | zero =>
      have hkey : r.key = key := Option.some.inj hi
      subst hkey
      rw [serve_of_get? s rs h]
      rfl
    | succ i => exact ih _ (get?_getOrCreate_of_some s r h) hi

theorem clients_of_cons (r : Request α σ) {i : Nat} (hi : (r :: rs)[i]?.map (·.key) = some r.key) :
    (c.serve s (r :: rs)).clients[i]? = some (c.getOrCreate r.key r.create s).1 := by
  cases i with
  | zero => rfl
  | succ i => exact clients_of_get? _ rs (get?_getOrCreate_self c s r) hi

end Serve

/-! ## A new cache -/

/-- Requests of a new cache, begun in a state, get clients that are made once for each key. -/
structure Memoizes (s : σ) (rs : List (Request α σ)) : Prop where
  /-- Every request gets a client. -/
  answers : (empty.serve s rs).clients.length = rs.length
  /-- The first request for a key has its client made, which is the one that all requests for the key get. -/
  first : ∀ before (r : Request α σ) after, rs = before ++ r :: after → r.key ∉ before.map (·.key) →
    let made := r.create (empty.serve s before).state
    (empty.serve s (before ++ [r])).state = made.2 ∧
      ∀ i : Nat, rs[i]?.map (·.key) = some r.key → (empty.serve s rs).clients[i]? = some made.1
  /-- A further request for a key has nothing made, however it would make it. -/
  further : ∀ before (r : Request α σ) after, rs = before ++ r :: after → r.key ∈ before.map (·.key) →
    (empty.serve s (before ++ [r])).state = (empty.serve s before).state ∧
      ∀ create, empty.serve s (before ++ ⟨r.key, create⟩ :: after) = empty.serve s rs
  /-- There are as many clients as keys that were asked for so far. -/
  size : ∀ before after, rs = before ++ after →
    (empty.serve s before).cache.size = (before.map (·.key)).toFinset.card
  /-- There is no client just before the first request. -/
  isEmpty : ∀ before after, rs = before ++ after → ((empty.serve s before).cache.isEmpty = true ↔ before = [])

section New
variable (s : σ) (rs : List (Request α σ))

theorem keys_serve_empty : (empty.serve s rs).cache.keys = (rs.map (·.key)).toFinset := by
  rw [keys_serve]
  exact Finset.empty_union _

theorem size_serve_empty : (empty.serve s rs).cache.size = (rs.map (·.key)).toFinset.card := by
  have hnodup := Dict.nodup_keys (ordered_serve s rs (c := empty) Dict.ordered_nil)
  rw [← keys_serve_empty, keys, List.toFinset_card_of_nodup hnodup, List.length_map, size]

theorem isEmpty_serve_empty : (empty.serve s rs).cache.isEmpty = true ↔ rs = [] := by
  rw [isEmpty, beq_iff_eq, size_serve_empty, Finset.card_eq_zero, List.toFinset_eq_empty_iff, List.map_eq_nil_iff]

theorem get?_serve_empty_eq_none_iff {key : String} :
    (empty.serve s rs).cache.clients.get? key = none ↔ key ∉ rs.map (·.key) := by
  rw [get?_eq_none_iff, keys_serve_empty, List.mem_toFinset]

/-- In whatever order the keys of requests come, a new cache has a client made at the first request for each key and
nowhere else, and gives that client to all requests for the key. -/
theorem memoizes : Memoizes s rs where
  answers := length_clients empty s rs
  first := by
    rintro before r after rfl hnew
    have hget := (get?_serve_empty_eq_none_iff s before).mpr hnew
    refine ⟨?_, fun i hi => ?_⟩
    · rw [serve_append]
      dsimp only
      rw [serve_of_none _ _ hget]
      rfl
    · have hlength := length_clients empty s before
      have hlater : before.length ≤ i := by
        by_contra hlt
        rw [List.getElem?_append_left (not_le.mp hlt)] at hi
        obtain ⟨r', hr', hkey⟩ := Option.map_eq_some_iff.mp hi
        exact hnew (List.mem_map.mpr ⟨r', List.mem_of_getElem? hr', hkey⟩)
      rw [List.getElem?_append_right hlater] at hi
      rw [serve_append]
      dsimp only
      rw [List.getElem?_append_right (hlength ▸ hlater), hlength, clients_of_cons _ _ r hi, getOrCreate_of_none hget]
  further := by
    rintro before r after rfl hold
    obtain ⟨a, hget⟩ := Option.ne_none_iff_exists'.mp ((get?_serve_empty_eq_none_iff s before).not_left.mpr hold)
    refine ⟨?_, fun create => ?_⟩
    · rw [serve_append]
      dsimp only
      rw [serve_of_get? _ _ hget]
      rfl
    · rw [serve_append, serve_append]
      dsimp only
      rw [serve_of_get? _ _ hget, serve_of_get? (r := ⟨r.key, create⟩) _ _ hget]
  size before _ _ := size_serve_empty s before
  isEmpty before _ _ := isEmpty_serve_empty s before

end New

/-- The third request is for the key of the first and gets its client; what it would make is not made. -/
theorem memoizes_repeated :
    let count (key : String) : Request Nat Nat := ⟨key, fun n => (n, n + 1)⟩
    let rs := [count "a", count "b", ⟨"a", fun n => (n + 7, n + 7)⟩]
    (empty.serve 0 rs).clients[2]? = some 0 ∧ (empty.serve 0 rs).state = 2 ∧ (empty.serve 0 rs).cache.size = 2 := by
  intro count rs
  have h := memoizes 0 rs
  obtain ⟨_, hall⟩ := h.first [] (count "a") _ rfl List.not_mem_nil
  obtain ⟨hstate, _⟩ := h.further [count "a", count "b"] _ [] rfl (by decide)
  exact ⟨hall 2 rfl, hstate, h.size rs [] (List.append_nil rs).symm⟩

end DeadLetter.ClientCache

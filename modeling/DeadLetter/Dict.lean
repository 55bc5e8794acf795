/-!
# Finite maps in key order

`Dict α` is a list of texts with their values, kept in ascending order of the texts, so equal maps are equal lists.
`get?_put` and `get?_ensure`: each operation acts on its own key as its name says and on no other.
-/

namespace DeadLetter

set_option autoImplicit false

/-- A finite map from texts, as its entries in ascending key order. -/
abbrev Dict (α : Type) := List (String × α)

namespace Dict
variable {α β : Type}

/-- The value under a key. -/
def get? : Dict α → String → Option α
  | [], _ => none
  | (k', v) :: d, k => if k' = k then some v else get? d k

/-- Puts a value under a key, in place of the one that was there. -/
def put : Dict α → String → α → Dict α
  | [], k, v => [(k, v)]
  | (k', v') :: d, k, v =>
    if k' = k then (k, v) :: d else if k < k' then (k, v) :: (k', v') :: d else (k', v') :: put d k v

def has (d : Dict α) (k : String) : Bool := (d.get? k).isSome

/-- Changes the value under a key, if there is one. -/
def change (d : Dict α) (k : String) (f : α → α) : Dict α :=
  match d.get? k with
  | some v => d.put k (f v)
  | none => d

/-- Puts a value under a key that has none. -/
def ensure (d : Dict α) (k : String) (v : α) : Dict α := if d.has k then d else d.put k v

def keys (d : Dict α) : List String := d.map (·.1)

def values (d : Dict α) : List α := d.map (·.2)

/-- The map of a list of entries, a later entry winning over an earlier one with its key. -/
def ofList (entries : List (String × α)) : Dict α := entries.foldl (fun d e => d.put e.1 e.2) []

theorem get?_put (d : Dict α) (k k' : String) (v : α) :
    (d.put k v).get? k' = if k' = k then some v else d.get? k' := by
  induction d with
  | nil => simp [put, get?, eq_comm]
  | cons e d ih =>
    simp only [put]
    split
    · grind [get?]
    · split <;> grind [get?]

theorem get?_put_self (d : Dict α) (k : String) (v : α) : (d.put k v).get? k = some v := by simp [get?_put]

theorem get?_put_of_ne (d : Dict α) {k k' : String} (v : α) (h : k' ≠ k) : (d.put k v).get? k' = d.get? k' := by
  simp [get?_put, h]

theorem get?_ensure (d : Dict α) (k k' : String) (v : α) :
    (d.ensure k v).get? k' = if k' = k then some ((d.get? k).getD v) else d.get? k' := by
  unfold ensure has
  cases hk : d.get? k with
  | none => simp [get?_put]
  | some u => by_cases h : k' = k <;> simp [h, hk]

end Dict

end DeadLetter

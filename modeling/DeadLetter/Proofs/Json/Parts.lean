import DeadLetter.Proofs.Dict
import DeadLetter.Json.Value
import Mathlib.Data.List.Sort

/-!
# Values inside JSON values

`Json.induction` : what holds of a value if it holds of all its items or members holds of every value. `parts` lists a
value and all values in it, at every depth, and `depth` tells how deep they nest; by `mem_parts_array` and
`mem_parts_object` what is said of all parts of a value is said of all parts of its items or members. `sorted` puts the
members of all objects in key order and changes nothing where they stand in it (`sorted_of_ordered`).
-/

namespace DeadLetter.Json

set_option autoImplicit false

/-- Induction over a value, through its items and members. -/
@[elab_as_elim]
theorem induction {motive : Json → Prop} (null : motive .null) (bool : ∀ b, motive (.bool b))
    (int : ∀ n, motive (.int n)) (float : ∀ x, motive (.float x)) (string : ∀ s, motive (.string s))
    (array : ∀ items, (∀ v ∈ items, motive v) → motive (.array items))
    (object : ∀ members, (∀ e ∈ members, motive e.2) → motive (.object members)) (v : Json) : motive v := by
  refine Json.rec (motive_1 := motive) (motive_2 := fun items => ∀ v ∈ items, motive v)
    (motive_3 := fun members => ∀ e ∈ members, motive e.2) (motive_4 := fun e => motive e.2)
    null bool int float string array object ?_ ?_ ?_ ?_ ?_ v
  · exact fun _ h => absurd h List.not_mem_nil
  · intro v vs hv hvs
    exact List.forall_mem_cons.mpr ⟨hv, hvs⟩
  · exact fun _ h => absurd h List.not_mem_nil
  · intro e es he hes
    exact List.forall_mem_cons.mpr ⟨he, hes⟩
  · exact fun _ _ hv => hv

/-! ## Parts -/

mutual

/-- A value and all values in it, at every depth. -/
def parts : Json → List Json
  | .array items => .array items :: partsOfItems items
  | .object members => .object members :: partsOfMembers members
  | v => [v]
termination_by structural v => v

def partsOfItems : List Json → List Json
  | [] => []
  | v :: vs => parts v ++ partsOfItems vs
termination_by structural vs => vs

def partsOfMembers : List (String × Json) → List Json
  | [] => []
  | (_, v) :: ms => parts v ++ partsOfMembers ms
termination_by structural ms => ms

end

theorem partsOfItems_eq (items : List Json) : partsOfItems items = items.flatMap parts := by
  induction items with
  | nil => rfl
  | cons v items ih => rw [partsOfItems, ih, List.flatMap_cons]

theorem partsOfMembers_eq (members : List (String × Json)) :
    partsOfMembers members = members.flatMap fun e => e.2.parts := by
  induction members with
  | nil => rfl
  | cons e members ih => rw [partsOfMembers, ih, List.flatMap_cons]

theorem mem_parts_array {items : List Json} {v : Json} :
    v ∈ (array items).parts ↔ v = .array items ∨ ∃ w ∈ items, v ∈ w.parts := by
  rw [parts, partsOfItems_eq, List.mem_cons, List.mem_flatMap]

theorem mem_parts_object {members : List (String × Json)} {v : Json} :
    v ∈ (object members).parts ↔ v = .object members ∨ ∃ e ∈ members, v ∈ e.2.parts := by
  rw [parts, partsOfMembers_eq, List.mem_cons, List.mem_flatMap]

theorem mem_parts_self (v : Json) : v ∈ v.parts := by
  cases v <;> exact List.mem_cons_self

/-- No number of a value is a floating point number. -/
def FloatFree (v : Json) : Prop := ∀ x, .float x ∉ v.parts

/-! ## Depth -/

mutual

def depth : Json → Nat
  | .array items => depthOfItems items + 1
  | .object members => depthOfMembers members + 1
  | _ => 0
termination_by structural v => v

def depthOfItems : List Json → Nat
  | [] => 0
  | v :: vs => max (depth v) (depthOfItems vs)
termination_by structural vs => vs

def depthOfMembers : List (String × Json) → Nat
  | [] => 0
  | (_, v) :: ms => max (depth v) (depthOfMembers ms)
termination_by structural ms => ms

end

theorem depthOfItems_le_iff {items : List Json} {n : Nat} : depthOfItems items ≤ n ↔ ∀ v ∈ items, v.depth ≤ n := by
  induction items with
  | nil => simp [depthOfItems]
  | cons v items ih => rw [depthOfItems, max_le_iff, ih, List.forall_mem_cons]

theorem depthOfMembers_le_iff {members : List (String × Json)} {n : Nat} :
    depthOfMembers members ≤ n ↔ ∀ e ∈ members, e.2.depth ≤ n := by
  induction members with
  | nil => simp [depthOfMembers]
  | cons e members ih => rw [depthOfMembers, max_le_iff, ih, List.forall_mem_cons]

theorem depth_array_le_iff {items : List Json} {n : Nat} :
    (array items).depth ≤ n ↔ n ≠ 0 ∧ ∀ v ∈ items, v.depth ≤ n - 1 := by
  rw [depth, ← depthOfItems_le_iff]
  omega

theorem depth_object_le_iff {members : List (String × Json)} {n : Nat} :
    (object members).depth ≤ n ↔ n ≠ 0 ∧ ∀ e ∈ members, e.2.depth ≤ n - 1 := by
  rw [depth, ← depthOfMembers_le_iff]
  omega

/-! ## Members in key order -/

/-- Members in the order of their keys. -/
def sortMembers (members : List (String × Json)) : List (String × Json) :=
  members.mergeSort fun a b => decide (a.1 ≤ b.1)

mutual

/-- A value with the members of all its objects in key order. -/
def sorted : Json → Json
  | .array items => .array (sortedItems items)
  | .object members => .object (sortMembers (sortedMembers members))
  | v => v
termination_by structural v => v

def sortedItems : List Json → List Json
  | [] => []
  | v :: vs => sorted v :: sortedItems vs
termination_by structural vs => vs

def sortedMembers : List (String × Json) → List (String × Json)
  | [] => []
  | (k, v) :: ms => (k, sorted v) :: sortedMembers ms
termination_by structural ms => ms

end

theorem sortedItems_eq (items : List Json) : sortedItems items = items.map sorted := by
  induction items with
  | nil => rfl
  | cons v items ih => rw [sortedItems, ih, List.map_cons]

theorem sortedMembers_eq (members : List (String × Json)) :
    sortedMembers members = members.map fun e => (e.1, e.2.sorted) := by
  induction members with
  | nil => rfl
  | cons e members ih => rw [sortedMembers, ih, List.map_cons]

/-- Members with distinct keys are put in key order by putting them one after the other. -/
theorem ofList_eq_sortMembers {members : List (String × Json)} (h : (members.map (·.1)).Nodup) :
    Dict.ofList members = sortMembers members := by
  have hperm : (Dict.ofList members).Perm (sortMembers members) :=
    (Dict.perm_ofList h).trans (List.mergeSort_perm _ _).symm
  have hordered : (Dict.ofList members).Pairwise fun a b => a.1 ≤ b.1 := (Dict.ordered_ofList members).imp le_of_lt
  have hsorted : (sortMembers members).Pairwise fun a b => a.1 ≤ b.1 := by
    refine (List.pairwise_mergeSort ?_ ?_ members).imp of_decide_eq_true
    · intro a b c hab hbc
      exact decide_eq_true (le_trans (of_decide_eq_true hab) (of_decide_eq_true hbc))
    · intro a b
      simpa using le_total a.1 b.1
  refine hperm.eq_of_pairwise (fun a b ha hb hab hba => ?_) hordered hsorted
  have hb' : b ∈ Dict.ofList members := hperm.mem_iff.mpr hb
  have hvalue := Dict.get?_of_mem (Dict.ordered_ofList members) ha
  have hkey : a.1 = b.1 := le_antisymm hab hba
  rw [hkey, Dict.get?_of_mem (Dict.ordered_ofList members) hb'] at hvalue
  exact Prod.ext hkey (Option.some.inj hvalue).symm

end DeadLetter.Json

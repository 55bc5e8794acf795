import DeadLetter.Proofs.Dict
import DeadLetter.Registry.Basic
import Mathlib.Data.List.Nodup
import Mathlib.Data.List.Pairwise

/-!
# Tables of places

`Registry.findLast?` : the last entry of a list that passes a test. A look-up through a table of places finds the last
entry with the key, wherever it stands and however often the key is repeated: `Registry.findBy?_eq_findLast?`. So
`findBy?_eq_some_iff` and `findBy?_eq_none_iff` say what is found and when nothing is, and where keys do not repeat
every entry is found by its own (`findBy?_eq_some`).
-/

namespace DeadLetter

set_option autoImplicit false

/-- Entries of a list whose values do not repeat are the same if they have one value. -/
theorem eq_of_nodup_filterMap {α β : Type} {f : α → Option β} {as : List α} (h : (as.filterMap f).Nodup) {a b : α}
    (ha : a ∈ as) (hb : b ∈ as) {v : β} (hav : f a = some v) (hbv : f b = some v) : a = b := by
  by_contra hne
  have hpairs := List.pairwise_filterMap.mp h
  have hsymm : Std.Symm fun a a' : α => ∀ v, f a = some v → ∀ v', f a' = some v' → v ≠ v' :=
    ⟨fun _ _ hr v hv v' hv' => (hr v' hv' v hv).symm⟩
  exact hpairs.forall ha hb hne v hav v hbv rfl

namespace Registry

/-! ## Last entries -/

/-- The last entry of a list that passes a test. -/
def findLast? {α : Type} (p : α → Bool) (entries : List α) : Option α := entries.reverse.find? p

section FindLast
variable {α κ : Type} {p : α → Bool} {as : List α}

theorem mem_of_findLast? {a : α} (h : findLast? p as = some a) : a ∈ as ∧ p a = true := by
  unfold findLast? at h
  exact ⟨List.mem_reverse.mp (List.mem_of_find?_eq_some h), List.find?_some h⟩

theorem isSome_findLast? {a : α} (ha : a ∈ as) (hp : p a = true) : (findLast? p as).isSome := by
  unfold findLast?
  rw [List.find?_isSome]
  exact ⟨a, List.mem_reverse.mpr ha, hp⟩

/-- Where keys do not repeat, the last entry with the key of an entry is that entry. -/
theorem findLast?_eq_some [DecidableEq κ] {key : α → κ} (hnodup : (as.map key).Nodup) {a : α} (ha : a ∈ as) :
    findLast? (key · == key a) as = some a := by
  have hsome : (findLast? (key · == key a) as).isSome := isSome_findLast? ha (beq_self_eq_true _)
  obtain ⟨b, hb⟩ := Option.isSome_iff_exists.mp hsome
  obtain ⟨hmem, hkey⟩ := mem_of_findLast? hb
  rw [hb, List.inj_on_of_nodup_map hnodup hmem ha (eq_of_beq hkey)]

/-- The last entry of a list with a property. -/
def IsLast (P : α → Prop) (as : List α) (a : α) : Prop :=
  ∃ before after, as = before ++ a :: after ∧ P a ∧ ∀ b ∈ after, ¬ P b

theorem IsLast.mem {P : α → Prop} {a : α} (h : IsLast P as a) : a ∈ as ∧ P a := by
  obtain ⟨before, after, rfl, ha, _⟩ := h
  exact ⟨List.mem_append_right _ List.mem_cons_self, ha⟩

theorem findLast?_eq_some_iff {a : α} : findLast? p as = some a ↔ IsLast (p · = true) as a := by
  unfold findLast?
  rw [List.find?_eq_some_iff_append]
  constructor
  · rintro ⟨ha, before, after, heq, hbefore⟩
    refine ⟨after.reverse, before.reverse, ?_, ha, fun b hb hpb => ?_⟩
    · rw [← List.reverse_inj, heq]
      simp
    · have hnot := hbefore b (List.mem_reverse.mp hb)
      rw [hpb] at hnot
      cases hnot
  · rintro ⟨before, after, rfl, ha, hafter⟩
    refine ⟨ha, after.reverse, before.reverse, by simp, fun b hb => ?_⟩
    rw [Bool.eq_false_iff.mpr (hafter b (List.mem_reverse.mp hb))]
    rfl

theorem findLast?_eq_none_iff : findLast? p as = none ↔ ∀ a ∈ as, ¬ p a = true := by
  unfold findLast?
  rw [List.find?_eq_none]
  exact ⟨fun h a ha => h a (List.mem_reverse.mpr ha), fun h a ha => h a (List.mem_reverse.mp ha)⟩

theorem findLast?_append_singleton (p : α → Bool) (as : List α) (a : α) :
    findLast? p (as ++ [a]) = if p a then some a else findLast? p as := by
  simp only [findLast?, List.reverse_append, List.reverse_singleton, List.singleton_append, List.find?_cons]
  cases p a <;> rfl

end FindLast

/-! ## Places -/

section Places
variable {α : Type} {key : α → Option String} {as : List α} {a : α} {name : String}

theorem places_append_singleton (key : α → Option String) (as : List α) (a : α) :
    places key (as ++ [a]) =
      match key a with
      | some name => (places key as).put name as.length
      | none => places key as := by
  unfold places Dict.ofList
  cases h : key a <;> simp [List.zipIdx_append, List.foldl_append, h]

theorem lt_of_get?_places {place : Nat} (h : (places key as).get? name = some place) : place < as.length := by
  induction as using List.reverseRecOn with
  | nil => cases h
  | append_singleton as a ih =>
    rw [places_append_singleton] at h
    rw [List.length_append, List.length_singleton]
    cases hkey : key a with
    | none =>
      rw [hkey] at h
      have hlt := ih h
      omega
    | some name' =>
      rw [hkey] at h
      dsimp only at h
      rw [Dict.get?_put] at h
      split at h
      · cases h
        omega
      · have hlt := ih h
        omega

theorem findBy?_append_singleton (key : α → Option String) (as : List α) (a : α) (name : String) :
    findBy? key (as ++ [a]) name = if key a == some name then some a else findBy? key as name := by
  have hbefore : ((places key as).get? name).bind ((as ++ [a])[·]?) = findBy? key as name := by
    unfold findBy?
    cases h : (places key as).get? name with
    | none => rfl
    | some place => exact List.getElem?_append_left (lt_of_get?_places h)
  unfold findBy? at hbefore ⊢
  rw [places_append_singleton]
  cases hkey : key a with
  | none => simpa using hbefore
  | some name' =>
    dsimp only
    rw [Dict.get?_put]
    by_cases hname : name = name'
    · simp [hname]
    · simpa [hname, Ne.symm hname] using hbefore

/-- A look-up through a table of places finds the last entry with the key. -/
theorem findBy?_eq_findLast? (key : α → Option String) (as : List α) (name : String) :
    findBy? key as name = findLast? (key · == some name) as := by
  induction as using List.reverseRecOn with
  | nil => rfl
  | append_singleton as a ih => rw [findBy?_append_singleton, findLast?_append_singleton, ih]

theorem findBy?_eq_some_iff : findBy? key as name = some a ↔ IsLast (key · = some name) as a := by
  rw [findBy?_eq_findLast?, findLast?_eq_some_iff]
  simp only [beq_iff_eq]

theorem findBy?_eq_none_iff : findBy? key as name = none ↔ ∀ a ∈ as, key a ≠ some name := by
  rw [findBy?_eq_findLast?, findLast?_eq_none_iff]
  simp only [beq_iff_eq, ne_eq]

theorem isSome_findBy? (ha : a ∈ as) (hkey : key a = some name) : (findBy? key as name).isSome := by
  rw [findBy?_eq_findLast?]
  exact isSome_findLast? ha (beq_iff_eq.mpr hkey)

/-- Where keys do not repeat, an entry is found by its own key. -/
theorem findBy?_eq_some (hnodup : (as.filterMap key).Nodup) (ha : a ∈ as) (hkey : key a = some name) :
    findBy? key as name = some a := by
  obtain ⟨b, hb⟩ := Option.isSome_iff_exists.mp (isSome_findBy? ha hkey)
  obtain ⟨hmem, hname⟩ := (findBy?_eq_some_iff.mp hb).mem
  rw [hb, eq_of_nodup_filterMap hnodup hmem ha hname hkey]

end Places

end Registry

end DeadLetter

import DeadLetter.Json.Draft
import DeadLetter.Proofs.Json.Parts

/-!
# What JSON texts are read as

Whatever text is read, its value is tidy: arrays and objects nest at most 127 deep, the members of every object stand in
key order, and integers have at most 64 bits (`tidy_of_read?`).
-/

namespace DeadLetter.Json

set_option autoImplicit false

/-- Arrays and objects nest at most so deep, the members of all objects stand in key order, and all integers have at most
64 bits. -/
structure Tidy (n : Nat) (v : Json) : Prop where
  depth_le : v.depth ≤ n
  ordered : ∀ members, .object members ∈ v.parts → Dict.Ordered members
  fits : ∀ i, .int i ∈ v.parts → i.natAbs < 2 ^ 64

theorem Tidy.array {n : Nat} {items : List Json} (hn : n ≠ 0) (h : ∀ v ∈ items, Tidy (n - 1) v) :
    Tidy n (.array items) where
  depth_le := depth_array_le_iff.mpr ⟨hn, fun v hv => (h v hv).depth_le⟩
  ordered := by
    intro members hmem
    rcases mem_parts_array.mp hmem with heq | ⟨v, hv, hmem⟩
    · cases heq
    · exact (h v hv).ordered members hmem
  fits := by
    intro i hmem
    rcases mem_parts_array.mp hmem with heq | ⟨v, hv, hmem⟩
    · cases heq
    · exact (h v hv).fits i hmem

theorem Tidy.object {n : Nat} {members : Dict Json} (hn : n ≠ 0) (hordered : members.Ordered)
    (h : ∀ e ∈ members, Tidy (n - 1) e.2) : Tidy n (.object members) where
  depth_le := depth_object_le_iff.mpr ⟨hn, fun e he => (h e he).depth_le⟩
  ordered := by
    intro ms hmem
    rcases mem_parts_object.mp hmem with heq | ⟨e, he, hmem⟩
    · cases heq
      exact hordered
    · exact (h e he).ordered ms hmem
  fits := by
    intro i hmem
    rcases mem_parts_object.mp hmem with heq | ⟨e, he, hmem⟩
    · cases heq
    · exact (h e he).fits i hmem

/-- A value that is neither an array nor an object. -/
theorem tidy_of_parts {n : Nat} {v : Json} (hparts : v.parts = [v]) (hdepth : v.depth = 0)
    (hobject : ∀ members, v ≠ .object members) (hint : ∀ i, v = .int i → i.natAbs < 2 ^ 64) : Tidy n v where
  depth_le := hdepth ▸ Nat.zero_le n
  ordered := by
    intro members hmem
    rw [hparts, List.mem_singleton] at hmem
    exact absurd hmem.symm (hobject members)
  fits := by
    intro i hmem
    rw [hparts, List.mem_singleton] at hmem
    exact hint i hmem.symm

namespace Draft

/-- Induction over a draft, through its items and members. -/
@[elab_as_elim]
theorem induction {motive : Draft → Prop} (null : motive .null) (bool : ∀ b, motive (.bool b))
    (number : ∀ w, motive (.number w)) (string : ∀ w, motive (.string w))
    (array : ∀ items, (∀ d ∈ items, motive d) → motive (.array items))
    (object : ∀ members, (∀ e ∈ members, motive e.2) → motive (.object members)) (d : Draft) : motive d := by
  refine Draft.rec (motive_1 := motive) (motive_2 := fun items => ∀ d ∈ items, motive d)
    (motive_3 := fun members => ∀ e ∈ members, motive e.2) (motive_4 := fun e => motive e.2)
    null bool number string array object ?_ ?_ ?_ ?_ ?_ d
  · exact fun _ h => absurd h List.not_mem_nil
  · intro d ds hd hds
    exact List.forall_mem_cons.mpr ⟨hd, hds⟩
  · exact fun _ h => absurd h List.not_mem_nil
  · intro e es he hes
    exact List.forall_mem_cons.mpr ⟨he, hes⟩
  · exact fun _ _ hd => hd

theorem settleItems?_forall {n : Nat} {p : Json → Prop} {items : List Draft} {vs : List Json}
    (hp : ∀ d ∈ items, ∀ v, settle? n d = some v → p v) (h : settleItems? n items = some vs) : ∀ v ∈ vs, p v := by
  induction items generalizing vs with
  | nil =>
    cases h
    exact fun _ h => absurd h List.not_mem_nil
  | cons d items ih =>
    rw [settleItems?] at h
    simp only [Option.bind_eq_bind, Option.bind_eq_some_iff] at h
    obtain ⟨v, hv, vs, hvs, h⟩ := h
    cases h
    exact List.forall_mem_cons.mpr
      ⟨hp d List.mem_cons_self v hv, ih (fun d hd => hp d (List.mem_cons_of_mem _ hd)) hvs⟩

/-- What holds of whatever the members settle to holds of the members of the object, which stand in key order. -/
theorem settleMembers?_forall {n : Nat} {p : Json → Prop} {members : List (List Char × Draft)} {done d : Dict Json}
    (hp : ∀ e ∈ members, ∀ v, settle? n e.2 = some v → p v) (hordered : done.Ordered) (hdone : ∀ e ∈ done, p e.2)
    (h : settleMembers? n members done = some d) : d.Ordered ∧ ∀ e ∈ d, p e.2 := by
  induction members generalizing done with
  | nil =>
    cases h
    exact ⟨hordered, hdone⟩
  | cons e members ih =>
    obtain ⟨w, v⟩ := e
    rw [settleMembers?] at h
    simp only [Option.bind_eq_bind, Option.bind_eq_some_iff] at h
    obtain ⟨k, _, v', hv', h⟩ := h
    refine ih (fun e he => hp e (List.mem_cons_of_mem _ he)) (Dict.ordered_put hordered _ _) (fun e he => ?_) h
    rcases Dict.mem_put he with rfl | he
    · exact hp _ List.mem_cons_self v' hv'
    · exact hdone e he

end Draft

open Draft

theorem natAbs_lt_of_toInt? {x : Numeral} {i : Int} (h : x.toInt? = some i) : i.natAbs < 2 ^ 64 := by
  dsimp only [Numeral.toInt?] at h
  split at h
  · cases h
  · split at h <;> split at h
    · cases h
      omega
    · cases h
    · cases h
      omega
    · cases h

theorem tidy_of_toJson? {x : Numeral} {v : Json} (n : Nat) (h : x.toJson? = some v) : Tidy n v := by
  unfold Numeral.toJson? at h
  split at h
  · next i hi =>
    cases h
    refine tidy_of_parts rfl rfl nofun fun k hk => ?_
    cases hk
    exact natAbs_lt_of_toInt? hi
  · obtain ⟨f, _, rfl⟩ := Option.map_eq_some_iff.mp h
    exact tidy_of_parts rfl rfl nofun nofun

theorem tidy_of_settle? {d : Draft} {n : Nat} {v : Json} (h : settle? n d = some v) : Tidy n v := by
  induction d using Draft.induction generalizing n v with
  | null | bool =>
    cases h
    exact tidy_of_parts rfl rfl nofun nofun
  | number w =>
    obtain ⟨x, _, hx⟩ := Option.bind_eq_some_iff.mp h
    exact tidy_of_toJson? n hx
  | string w =>
    obtain ⟨s, _, rfl⟩ := Option.map_eq_some_iff.mp h
    exact tidy_of_parts rfl rfl nofun nofun
  | array items ih =>
    rw [settle?] at h
    split at h
    · cases h
    · next hn =>
      obtain ⟨vs, hvs, rfl⟩ := Option.map_eq_some_iff.mp h
      exact .array hn (settleItems?_forall (fun d hd v hv => ih d hd hv) hvs)
  | object members ih =>
    rw [settle?] at h
    split at h
    · cases h
    · next hn =>
      obtain ⟨ms, hms, rfl⟩ := Option.map_eq_some_iff.mp h
      obtain ⟨hordered, hall⟩ :=
        settleMembers?_forall (fun e he v hv => ih e he hv) Dict.ordered_nil (fun _ h => absurd h List.not_mem_nil) hms
      exact .object hn hordered hall

/-- Whatever is read nests at most as deep as is allowed, with the members of its objects in key order and no integer too
long. -/
theorem tidy_of_read? {s : String} {v : Json} (h : read? s = some v) : Tidy depthLimit v := by
  obtain ⟨d, _, hd⟩ := Option.bind_eq_some_iff.mp h
  exact tidy_of_settle? hd

theorem ordered_of_read? {s : String} {members : Dict Json} (h : read? s = some (.object members)) :
    members.Ordered :=
  (tidy_of_read? h).ordered members (mem_parts_self _)

end DeadLetter.Json

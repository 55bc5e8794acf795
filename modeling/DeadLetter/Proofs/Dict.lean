import DeadLetter.Dict
import Mathlib.Data.List.Induction
import Mathlib.Data.String.Basic

/-!
# Ordered dictionaries

`Dict.Ordered` : the keys ascend strictly, so no key stands twice; `ordered_put` keeps it. Every map made of a list of
entries is ordered (`ordered_ofList`), and ordered entries make themselves (`ofList_of_ordered`).
A map of entries with distinct keys has just these entries (`perm_ofList`).
`put_split_of_some` and `put_split_of_none` : putting a value changes one place of the list and leaves what stands
before and after it, so a list collected from all entries changes in one place too (`flatMap_put`).
-/

namespace DeadLetter.Dict

set_option autoImplicit false

variable {α : Type}

/-- The keys ascend strictly. -/
def Ordered (d : Dict α) : Prop := d.Pairwise fun a b => a.1 < b.1

theorem ordered_nil : Ordered ([] : Dict α) := List.Pairwise.nil

theorem nodup_keys {d : Dict α} (h : d.Ordered) : (d.map (·.1)).Nodup :=
  List.pairwise_map.mpr (h.imp ne_of_lt)

theorem mem_of_get? {d : Dict α} {k : String} {v : α} (h : d.get? k = some v) : (k, v) ∈ d := by
  induction d with
  | nil => cases h
  | cons e d ih =>
    obtain ⟨k', v'⟩ := e
    rw [get?] at h
    split at h
    · next hk =>
      cases h
      rw [hk]
      exact List.mem_cons_self
    · exact List.mem_cons_of_mem _ (ih h)

theorem get?_eq_none_iff {d : Dict α} {k : String} : d.get? k = none ↔ k ∉ d.map (·.1) := by
  induction d with
  | nil => exact iff_of_true rfl List.not_mem_nil
  | cons e d ih =>
    rw [get?, List.map_cons, List.mem_cons, not_or]
    split
    · next hk => exact iff_of_false (Option.some_ne_none _) fun h => h.1 hk.symm
    · next hne => rw [ih, and_iff_right (Ne.symm hne)]

theorem mem_put {d : Dict α} {k : String} {v : α} {e : String × α} (h : e ∈ d.put k v) : e = (k, v) ∨ e ∈ d := by
  induction d with
  | nil => exact Or.inl (List.mem_singleton.mp h)
  | cons e' d ih =>
    obtain ⟨k', v'⟩ := e'
    rw [put] at h
    split at h
    · rcases List.mem_cons.mp h with h | h
      · exact Or.inl h
      · exact Or.inr (List.mem_cons_of_mem _ h)
    · split at h
      · exact (List.mem_cons.mp h).imp_right id
      · rcases List.mem_cons.mp h with h | h
        · exact Or.inr (h ▸ List.mem_cons_self)
        · exact (ih h).imp_right (List.mem_cons_of_mem _)

theorem ordered_put {d : Dict α} (h : d.Ordered) (k : String) (v : α) : (d.put k v).Ordered := by
  induction d with
  | nil => exact List.pairwise_singleton _ _
  | cons e d ih =>
    obtain ⟨k', v'⟩ := e
    obtain ⟨hhead, htail⟩ := List.pairwise_cons.mp h
    rw [put]
    split
    · next hk =>
      exact List.pairwise_cons.mpr ⟨fun a ha => hk ▸ hhead a ha, htail⟩
    · next hne =>
      split
      · next hlt =>
        refine List.pairwise_cons.mpr ⟨fun a ha => ?_, h⟩
        rcases List.mem_cons.mp ha with rfl | ha
        · exact hlt
        · exact lt_trans hlt (hhead a ha)
      · next hge =>
        refine List.pairwise_cons.mpr ⟨fun a ha => ?_, ih htail⟩
        rcases mem_put ha with rfl | ha
        · exact lt_of_le_of_ne (not_lt.mp hge) hne
        · exact hhead a ha

theorem ordered_ofList (entries : List (String × α)) : (ofList entries).Ordered := by
  have key : ∀ (entries : List (String × α)) (d : Dict α), d.Ordered →
      (entries.foldl (fun d e => d.put e.1 e.2) d).Ordered := by
    intro entries
    induction entries with
    | nil => exact fun _ h => h
    | cons e entries ih => exact fun d h => ih _ (ordered_put h e.1 e.2)
  exact key entries [] ordered_nil

theorem mem_ofList {entries : List (String × α)} {e : String × α} (h : e ∈ ofList entries) : e ∈ entries := by
  have key : ∀ (entries : List (String × α)) (d : Dict α),
      e ∈ entries.foldl (fun d e => d.put e.1 e.2) d → e ∈ d ∨ e ∈ entries := by
    intro entries
    induction entries with
    | nil => exact fun _ h => Or.inl h
    | cons e' entries ih =>
      intro d h
      rcases ih _ h with h | h
      · rcases mem_put h with rfl | h
        · exact Or.inr List.mem_cons_self
        · exact Or.inl h
      · exact Or.inr (List.mem_cons_of_mem _ h)
  exact (key entries [] h).resolve_left List.not_mem_nil

theorem ofList_concat (entries : List (String × α)) (e : String × α) :
    ofList (entries ++ [e]) = (ofList entries).put e.1 e.2 := by
  unfold ofList
  rw [List.foldl_append, List.foldl_cons, List.foldl_nil]

theorem get?_ofList (entries : List (String × α)) (k : String) :
    (ofList entries).get? k = (entries.reverse.find? (·.1 == k)).map (·.2) := by
  induction entries using List.reverseRecOn with
  | nil => rfl
  | append_singleton entries e ih =>
    rw [ofList_concat, get?_put, List.reverse_append, List.reverse_singleton, List.singleton_append, List.find?_cons]
    by_cases hk : e.1 = k
    · subst hk
      simp
    · have hbeq : (e.1 == k) = false := beq_eq_false_iff_ne.mpr hk
      rw [if_neg (Ne.symm hk), hbeq, ih]

/-- Of entries in two lists those of the second one win. -/
theorem get?_ofList_append (entries entries' : List (String × α)) (k : String) :
    (ofList (entries ++ entries')).get? k = ((ofList entries').get? k).or ((ofList entries).get? k) := by
  rw [get?_ofList, get?_ofList, get?_ofList, List.reverse_append, List.find?_append, Option.map_or]

theorem get?_of_mem {d : Dict α} (hd : d.Ordered) {e : String × α} (h : e ∈ d) : d.get? e.1 = some e.2 := by
  induction d with
  | nil => cases h
  | cons e' d ih =>
    obtain ⟨hhead, htail⟩ := List.pairwise_cons.mp hd
    rw [get?]
    rcases List.mem_cons.mp h with rfl | h
    · rw [if_pos rfl]
    · rw [if_neg (ne_of_lt (hhead e h)), ih htail h]

theorem ordered_map {β : Type} {d : Dict α} (h : d.Ordered) (f : String × α → β) :
    Ordered (d.map fun e => (e.1, f e)) :=
  List.pairwise_map.mpr h

theorem get?_map {β : Type} (d : Dict α) (f : α → β) (k : String) :
    get? (d.map fun e => (e.1, f e.2)) k = (d.get? k).map f := by
  induction d with
  | nil => rfl
  | cons e d ih =>
    rw [List.map_cons, get?, get?, ih]
    split <;> rfl

theorem put_of_lt {d : Dict α} {k : String} (h : ∀ e ∈ d, e.1 < k) (v : α) : d.put k v = d ++ [(k, v)] := by
  induction d with
  | nil => rfl
  | cons e d ih =>
    have he : e.1 < k := h e List.mem_cons_self
    rw [put, if_neg (ne_of_lt he), if_neg (not_lt_of_gt he), ih fun e he => h e (List.mem_cons_of_mem _ he)]
    rfl

theorem foldl_put_of_ordered {d entries : Dict α} (h : Ordered (d ++ entries)) :
    entries.foldl (fun d e => d.put e.1 e.2) d = d ++ entries := by
  induction entries generalizing d with
  | nil => exact (List.append_nil d).symm
  | cons e entries ih =>
    have hlast : ∀ e' ∈ d, e'.1 < e.1 := fun e' he' => (List.pairwise_append.mp h).2.2 e' he' e List.mem_cons_self
    rw [← List.singleton_append, ← List.append_assoc] at h
    rw [List.foldl_cons, put_of_lt hlast, ih h, List.append_assoc, List.singleton_append]

theorem ofList_of_ordered {entries : Dict α} (h : entries.Ordered) : ofList entries = entries :=
  foldl_put_of_ordered (d := []) h

theorem put_split_of_some {d : Dict α} (hd : d.Ordered) {k : String} {v : α} (h : d.get? k = some v) :
    ∃ before after, d = before ++ (k, v) :: after ∧ ∀ v', d.put k v' = before ++ (k, v') :: after := by
  induction d with
  | nil => cases h
  | cons e d ih =>
    obtain ⟨k', u⟩ := e
    obtain ⟨hhead, htail⟩ := List.pairwise_cons.mp hd
    rw [get?] at h
    split at h
    · next hk =>
      cases h
      exact ⟨[], d, by rw [hk, List.nil_append], fun v' => by rw [put, if_pos hk, List.nil_append]⟩
    · next hne =>
      have hlt : ¬ k < k' := not_lt.mpr (le_of_lt (hhead _ (mem_of_get? h)))
      obtain ⟨before, after, rfl, hput⟩ := ih htail h
      exact ⟨(k', u) :: before, after, rfl, fun v' => by rw [put, if_neg hne, if_neg hlt, hput, List.cons_append]⟩

theorem put_split_of_none {d : Dict α} {k : String} (h : d.get? k = none) :
    ∃ before after, d = before ++ after ∧ ∀ v', d.put k v' = before ++ (k, v') :: after := by
  induction d with
  | nil => exact ⟨[], [], rfl, fun _ => rfl⟩
  | cons e d ih =>
    obtain ⟨k', u⟩ := e
    rw [get?] at h
    split at h
    · cases h
    · next hne =>
      by_cases hlt : k < k'
      · exact ⟨[], (k', u) :: d, rfl, fun v' => by rw [put, if_neg hne, if_pos hlt, List.nil_append]⟩
      · obtain ⟨before, after, rfl, hput⟩ := ih h
        exact ⟨(k', u) :: before, after, rfl,
          fun v' => by rw [put, if_neg hne, if_neg hlt, hput, List.cons_append]⟩

theorem perm_put_of_none {d : Dict α} {k : String} (h : d.get? k = none) (v : α) : (d.put k v).Perm ((k, v) :: d) := by
  obtain ⟨before, after, rfl, hput⟩ := put_split_of_none h
  rw [hput]
  exact List.perm_middle

/-- A map of entries with distinct keys has these entries and no others. -/
theorem perm_ofList {entries : List (String × α)} (h : (entries.map (·.1)).Nodup) : (ofList entries).Perm entries := by
  induction entries using List.reverseRecOn with
  | nil => exact List.Perm.refl _
  | append_singleton entries e ih =>
    rw [List.map_append, List.nodup_append] at h
    obtain ⟨hentries, _, hdisjoint⟩ := h
    have hnew : (ofList entries).get? e.1 = none := by
      by_contra hsome
      obtain ⟨v, hv⟩ := Option.ne_none_iff_exists'.mp hsome
      have hmem : (e.1, v) ∈ entries := mem_ofList (mem_of_get? hv)
      exact hdisjoint e.1 (List.mem_map.mpr ⟨_, hmem, rfl⟩) e.1 (List.mem_singleton_self _) rfl
    rw [ofList_concat]
    exact (perm_put_of_none hnew e.2).trans (((ih hentries).cons e).trans (List.perm_append_singleton e entries).symm)

/-- What is collected from all entries changes by what the put entry contributes. -/
theorem flatMap_put {β : Type} {d : Dict α} (hd : d.Ordered) (f : String × α → List β) (k : String) (v₀ : α)
    (h₀ : f (k, v₀) = []) :
    ∃ before after, d.flatMap f = before ++ (f (k, (d.get? k).getD v₀) ++ after) ∧
      ∀ v, (d.put k v).flatMap f = before ++ (f (k, v) ++ after) := by
  cases h : d.get? k with
  | some v =>
    obtain ⟨before, after, rfl, hput⟩ := put_split_of_some hd h
    refine ⟨before.flatMap f, after.flatMap f, ?_, fun v' => ?_⟩
    · rw [List.flatMap_append, List.flatMap_cons, Option.getD_some]
    · rw [hput, List.flatMap_append, List.flatMap_cons]
  | none =>
    obtain ⟨before, after, rfl, hput⟩ := put_split_of_none h
    refine ⟨before.flatMap f, after.flatMap f, ?_, fun v' => ?_⟩
    · rw [List.flatMap_append, Option.getD_none, h₀, List.nil_append]
    · rw [hput, List.flatMap_append, List.flatMap_cons]

end DeadLetter.Dict

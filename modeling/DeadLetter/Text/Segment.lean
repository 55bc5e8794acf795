/-!
# Parts of names

Names of queues and topics carry meaning at their end: the text after the last separator of an address, and the suffix
that marks ordered queues. `afterLast_eq_self`: a text without the separator is its own last part. `afterLast_append`:
what stands before a separator does not matter. `hasSuffix_afterLast`: a suffix without the separator is one of the last
part. `dropPrefix?_eq_some_iff`: dropping a prefix leaves what follows it.
-/

namespace DeadLetter.Text

set_option autoImplicit false

/-- The text after the last `sep`, all of it if there is none. -/
def afterLast (sep : Char) (s : String) : String :=
  .ofList (s.toList.reverse.takeWhile (· != sep)).reverse

def hasSuffix (s t : String) : Bool := t.toList.isSuffixOf s.toList

def hasPrefix (s t : String) : Bool := t.toList.isPrefixOf s.toList

/-- What follows `t` at the beginning of `s`. -/
def dropPrefix? (s t : String) : Option String :=
  if hasPrefix s t then some (.ofList (s.toList.drop t.toList.length)) else none

theorem afterLast_eq_self (sep : Char) (s : String) (h : sep ∉ s.toList) : afterLast sep s = s := by
  have key : ∀ l : List Char, sep ∉ l → l.takeWhile (· != sep) = l := by
    intro l hl
    induction l with
    | nil => rfl
    | cons c l ih => simp_all [Ne.symm]
  rw [afterLast, key _ (by simpa using h), List.reverse_reverse, String.ofList_toList]

theorem afterLast_append (sep : Char) (before s : String) :
    afterLast sep (before ++ .singleton sep ++ s) = afterLast sep s := by
  have key : ∀ l r : List Char, (l ++ sep :: r).takeWhile (· != sep) = l.takeWhile (· != sep) := by
    intro l r
    induction l with
    | nil => simp
    | cons c l ih => by_cases h : c = sep <;> simp [h, ih]
  simp [afterLast, key]

theorem notMem_afterLast (sep : Char) (s : String) : sep ∉ (afterLast sep s).toList := by
  rw [afterLast, String.toList_ofList, List.mem_reverse]
  intro h
  simpa using List.all_eq_true.mp List.all_takeWhile sep h

theorem hasSuffix_afterLast {sep : Char} {t : String} (h : sep ∉ t.toList) (s : String) :
    hasSuffix (afterLast sep s) t = hasSuffix s t := by
  rw [Bool.eq_iff_iff, hasSuffix, hasSuffix, List.isSuffixOf_iff_suffix, List.isSuffixOf_iff_suffix,
    ← List.reverse_prefix, ← List.reverse_prefix, afterLast, String.toList_ofList, List.reverse_reverse]
  constructor
  · exact fun ht => ht.trans (List.takeWhile_prefix _)
  · -- read from its end, the text begins with the suffix, and no separator is met there
    rintro ⟨rest, hs⟩
    rw [← hs, List.takeWhile_append_of_pos]
    · exact List.prefix_append _ _
    · intro c hc
      have hne : c ≠ sep := fun heq => h (heq ▸ List.mem_reverse.mp hc)
      simpa using hne

theorem hasPrefix_iff (s t : String) : hasPrefix s t = true ↔ ∃ after : String, s = t ++ after := by
  rw [hasPrefix, List.isPrefixOf_iff_prefix]
  constructor
  · rintro ⟨l, h⟩
    exact ⟨.ofList l, by rw [← String.toList_inj, String.toList_append, String.toList_ofList, h]⟩
  · rintro ⟨after, rfl⟩
    exact ⟨after.toList, by simp⟩

theorem dropPrefix?_eq_some_iff (s t u : String) : dropPrefix? s t = some u ↔ s = t ++ u := by
  constructor
  · intro h
    unfold dropPrefix? at h
    split at h
    · next hs =>
      obtain ⟨after, rfl⟩ := (hasPrefix_iff s t).mp hs
      simp only [String.toList_append, List.drop_left, String.ofList_toList, Option.some.injEq] at h
      rw [h]
    · cases h
  · rintro rfl
    rw [dropPrefix?, if_pos ((hasPrefix_iff _ t).mpr ⟨u, rfl⟩)]
    simp

end DeadLetter.Text

import DeadLetter.Proofs.Json.RoundTrip
import DeadLetter.RedrivePolicy

/-!
# Redrive policies that are read

An object is read as a redrive policy exactly if the names of its members are texts, one member names the target and
holds a text, and one names the count and holds a number of 32 bits (`read?_eq_some_iff`). What a member holds as count
depends on the integer that is spelled there and not on how it is spelled (`Spells.countOf?`), so `read?_spellings` : both
spellings of a count are read alike, in any order and beside any other members, and a count out of range or a missing
field is refused. `read?_text` : the attribute text of a policy is read as that policy.
-/

namespace DeadLetter.RedrivePolicy

set_option autoImplicit false

open Json Draft

/-! ## Fields of an object -/

/-- What the members of a name hold, in order. -/
def valuesOf (name : String) (members : List (List Char × Draft)) : List Draft :=
  (members.filter fun e => decodeText? e.1 = some name).map (·.2)

theorem valuesOf_cons_of_eq {name : String} {w : List Char} {d : Draft} {members : List (List Char × Draft)}
    (h : decodeText? w = some name) : valuesOf name ((w, d) :: members) = d :: valuesOf name members := by
  simp [valuesOf, h]

theorem valuesOf_cons_of_ne {name : String} {w : List Char} {d : Draft} {members : List (List Char × Draft)}
    (h : decodeText? w ≠ some name) : valuesOf name ((w, d) :: members) = valuesOf name members := by
  simp [valuesOf, h]

theorem valuesOf_ofMembers (name : String) (fields : List (String × Json)) :
    valuesOf name (Draft.ofMembers fields) = (fields.filter fun e => e.1 = name).map fun e => ofJson e.2 := by
  induction fields with
  | nil => rfl
  | cons e fields ih =>
    obtain ⟨k, v⟩ := e
    have hk : decodeText? (k.toList.flatMap escape) = some k := decodeText?_escape k
    rw [Draft.ofMembers]
    by_cases h : k = name
    · rw [valuesOf_cons_of_eq (h ▸ hk), ih]
      simp [h]
    · rw [valuesOf_cons_of_ne (by simp [hk, h]), ih]
      simp [h]

theorem isSome_decodeText?_ofMembers (fields : List (String × Json)) :
    ∀ e ∈ Draft.ofMembers fields, (decodeText? e.1).isSome = true := by
  induction fields with
  | nil => exact fun _ h => absurd h List.not_mem_nil
  | cons e fields ih =>
    obtain ⟨k, v⟩ := e
    have hk : (decodeText? (k.toList.flatMap escape)).isSome = true := by rw [decodeText?_escape]; rfl
    exact List.forall_mem_cons.mpr ⟨hk, ih⟩

/-- A field comes to a value: it was read before and does not occur again, or it is still missing and occurs once. -/
def Settles {α : Type} (read? : Draft → Option α) (found : Option α) (ds : List Draft) (a : α) : Prop :=
  (found = some a ∧ ds = []) ∨ (found = none ∧ ∃ d, ds = [d] ∧ read? d = some a)

theorem settles_cons_iff {α : Type} {read? : Draft → Option α} {found : Option α} {d : Draft} {ds : List Draft} {a : α} :
    Settles read? found (d :: ds) a ↔ found = none ∧ ∃ b, read? d = some b ∧ Settles read? (some b) ds a := by
  constructor
  · rintro (⟨_, h⟩ | ⟨hfound, d', hd, hread⟩)
    · cases h
    · cases hd
      exact ⟨hfound, a, hread, Or.inl ⟨rfl, rfl⟩⟩
  · rintro ⟨hfound, b, hread, ⟨hb, rfl⟩ | ⟨h, _⟩⟩
    · cases hb
      exact Or.inr ⟨hfound, d, rfl, hread⟩
    · cases h

/-- The fields of an object come to a policy if the names of all members are texts and each of the two fields comes to
its value. -/
theorem ofMembers?_eq_some_iff {members : List (List Char × Draft)} {target : Option String} {count : Option Nat}
    {p : RedrivePolicy} :
    ofMembers? members target count = some p ↔
      (∀ e ∈ members, (decodeText? e.1).isSome = true) ∧
      Settles textOf? target (valuesOf "deadLetterTargetArn" members) p.target ∧
      Settles countOf? count (valuesOf "maxReceiveCount" members) p.maxReceiveCount := by
  induction members generalizing target count with
  | nil =>
    obtain ⟨arn, n⟩ := p
    cases target <;> cases count <;> simp [ofMembers?, Settles, valuesOf]
  | cons e members ih =>
    obtain ⟨w, d⟩ := e
    rw [List.forall_mem_cons]
    cases hw : decodeText? w with
    | none => simp [ofMembers?, hw]
    | some k =>
      by_cases htarget : k = "deadLetterTargetArn"
      · subst htarget
        rw [valuesOf_cons_of_eq hw, valuesOf_cons_of_ne (by rw [hw]; decide), settles_cons_iff]
        cases target with
        | some t => simp [ofMembers?, hw]
        | none => cases hd : textOf? d <;> simp [ofMembers?, hw, hd, ih]
      by_cases hcount : k = "maxReceiveCount"
      · subst hcount
        rw [valuesOf_cons_of_eq hw, valuesOf_cons_of_ne (by rw [hw]; decide), settles_cons_iff]
        cases count with
        | some n => simp [ofMembers?, hw]
        | none => cases hd : countOf? d <;> simp [ofMembers?, hw, hd, ih]
      · rw [valuesOf_cons_of_ne (by simpa [hw] using htarget), valuesOf_cons_of_ne (by simpa [hw] using hcount)]
        simp [ofMembers?, hw, htarget, hcount, ih]

variable {s : String} {members : List (List Char × Draft)}

/-- An object is read as a policy if the names of all its members are texts, one member names the target and holds a
text, and one names the count and holds a number of 32 bits. -/
theorem read?_eq_some_iff (h : Draft.read? s = some (.object members)) {p : RedrivePolicy} :
    read? s = some p ↔
      (∀ e ∈ members, (decodeText? e.1).isSome = true) ∧
      (∃ d, valuesOf "deadLetterTargetArn" members = [d] ∧ textOf? d = some p.target) ∧
      ∃ d, valuesOf "maxReceiveCount" members = [d] ∧ countOf? d = some p.maxReceiveCount := by
  have hread : read? s = ofMembers? members none none := by
    rw [read?, h]
    rfl
  rw [hread, ofMembers?_eq_some_iff]
  simp [Settles]

/-! ## Spellings of a count -/

/-- The integer that a draft spells, as a number or in a string. -/
inductive Spells : Draft → Int → Prop where
  | number (i : Int) : Spells (.number (Text.intText i).toList) i
  | string {w : List Char} {i : Int} (h : decodeText? w = some (Text.intText i)) : Spells (.string w) i

theorem spells_int (i : Int) : Spells (ofJson (.int i)) i := .number i

theorem spells_natText (n : Nat) : Spells (ofJson (.string (Text.natText n))) n := .string (decodeText?_escape _)

/-- What counts is the integer and not its spelling. -/
theorem Spells.countOf? {d : Draft} {i : Int} (h : Spells d i) :
    countOf? d = if 0 ≤ i ∧ i ≤ 0xFFFFFFFF then some i.toNat else none := by
  cases h with
  | number =>
    rw [RedrivePolicy.countOf?, Numeral.read?_intText, Option.bind_eq_bind, Option.bind_some, Numeral.toInt?_ofInt]
    by_cases hi : 0 ≤ i ∧ i ≤ 0xFFFFFFFF
    · rw [if_pos (by omega)]
    · rw [if_neg hi]
      split <;> simp_all
  | string h =>
    rw [RedrivePolicy.countOf?, h, Option.bind_eq_bind, Option.bind_some]
    exact Text.readNat?_intText 0xFFFFFFFF i

/-! ## Objects with the two fields -/

theorem valuesOf_of_perm {name : String} {v : Json} {fields others : List (String × Json)}
    (hperm : fields.Perm ((name, v) :: others)) (hothers : ∀ e ∈ others, e.1 ≠ name) :
    valuesOf name (Draft.ofMembers fields) = [ofJson v] := by
  have hnone : others.filter (fun e => e.1 = name) = [] := by
    rw [List.filter_eq_nil_iff]
    exact fun e he => by simpa using hothers e he
  have hone : (fields.filter fun e => e.1 = name).Perm [(name, v)] := by
    have h := hperm.filter fun e => e.1 = name
    rwa [List.filter_cons_of_pos (by simp), hnone] at h
  rw [valuesOf_ofMembers, List.perm_singleton.mp hone, List.map_singleton]

/-- An object with the two fields and others is read as the policy that they tell, unless the count is out of range. -/
theorem read?_of_fields {target : String} {count : Json} {i : Int} {fields others : List (String × Json)}
    (hspells : Spells (ofJson count) i)
    (hothers : ∀ e ∈ others, e.1 ≠ "deadLetterTargetArn" ∧ e.1 ≠ "maxReceiveCount")
    (hperm : fields.Perm (("deadLetterTargetArn", .string target) :: ("maxReceiveCount", count) :: others)) :
    read? (Json.object fields).compact = if 0 ≤ i ∧ i ≤ 0xFFFFFFFF then some ⟨target, i.toNat⟩ else none := by
  have htarget : valuesOf "deadLetterTargetArn" (Draft.ofMembers fields) = [ofJson (.string target)] := by
    refine valuesOf_of_perm hperm (List.forall_mem_cons.mpr ⟨?_, fun e he => (hothers e he).1⟩)
    show "maxReceiveCount" ≠ "deadLetterTargetArn"
    decide
  have hcount : valuesOf "maxReceiveCount" (Draft.ofMembers fields) = [ofJson count] := by
    refine valuesOf_of_perm (hperm.trans (List.Perm.swap _ _ _))
      (List.forall_mem_cons.mpr ⟨?_, fun e he => (hothers e he).2⟩)
    show "deadLetterTargetArn" ≠ "maxReceiveCount"
    decide
  have htext : textOf? (ofJson (.string target)) = some target := decodeText?_escape target
  refine Option.ext fun p => ?_
  obtain ⟨t, n⟩ := p
  rw [read?_eq_some_iff (draft_compact (.object fields)), htarget, hcount,
    eq_true (isSome_decodeText?_ofMembers fields), true_and]
  by_cases hi : 0 ≤ i ∧ i ≤ 0xFFFFFFFF
  · simp [htext, hspells.countOf?, hi]
  · simp [htext, hspells.countOf?, hi]

/-- The attribute text of a policy is read as that policy, unless its count is out of range. -/
theorem read?_text (p : RedrivePolicy) : read? p.text = if p.maxReceiveCount ≤ 0xFFFFFFFF then some p else none := by
  have hfields : p.text = (Json.object [("deadLetterTargetArn", .string p.target),
      ("maxReceiveCount", .string (Text.natText p.maxReceiveCount))]).compact := by
    have hordered : Dict.Ordered [("deadLetterTargetArn", Json.string p.target),
        ("maxReceiveCount", .string (Text.natText p.maxReceiveCount))] :=
      List.pairwise_pair.mpr (show "deadLetterTargetArn" < "maxReceiveCount" by decide)
    exact congrArg (fun d => (Json.object d).compact) (Dict.ofList_of_ordered hordered)
  have hothers : ∀ e ∈ ([] : List (String × Json)), e.1 ≠ "deadLetterTargetArn" ∧ e.1 ≠ "maxReceiveCount" := nofun
  rw [hfields, read?_of_fields (spells_natText p.maxReceiveCount) hothers (List.Perm.refl _)]
  refine if_congr ?_ rfl rfl
  exact ⟨fun h => Int.ofNat_le.mp h.2, fun h => ⟨Int.natCast_nonneg _, Int.ofNat_le.mpr h⟩⟩

/-- A policy is read from every object with its two fields, whichever way the count is spelled, in any order and beside
other members; a count that is negative or beyond 32 bits is refused in either spelling, and so is an object without one
of the fields. -/
theorem read?_spellings :
    (∀ (target : String) (n : Nat) (count : Json) (others fields : List (String × Json)), n ≤ 0xFFFFFFFF →
      (count = .int n ∨ count = .string (Text.natText n)) →
      (∀ e ∈ others, e.1 ≠ "deadLetterTargetArn" ∧ e.1 ≠ "maxReceiveCount") →
      fields.Perm (("deadLetterTargetArn", .string target) :: ("maxReceiveCount", count) :: others) →
      read? (Json.object fields).compact = some ⟨target, n⟩) ∧
    (∀ p : RedrivePolicy, p.maxReceiveCount ≤ 0xFFFFFFFF → read? p.text = some p) ∧
    ∀ (s : String) (members : List (List Char × Draft)), Draft.read? s = some (.object members) →
      (∀ (target : String) (n : Nat) (w : List Char) (d : Draft), n ≤ 0xFFFFFFFF →
        (∀ e ∈ members, (decodeText? e.1).isSome = true) →
        valuesOf "deadLetterTargetArn" members = [.string w] → decodeText? w = some target →
        valuesOf "maxReceiveCount" members = [d] → Spells d n → read? s = some ⟨target, n⟩) ∧
      (∀ d ∈ valuesOf "maxReceiveCount" members, ∀ i, Spells d i → i < 0 ∨ 0xFFFFFFFF < i → read? s = none) ∧
      (valuesOf "deadLetterTargetArn" members = [] ∨ valuesOf "maxReceiveCount" members = [] → read? s = none) := by
  refine ⟨fun target n count others fields hn hcount hothers hperm => ?_, fun p hp => ?_, fun s members h => ⟨?_, ?_, ?_⟩⟩
  · have hspells : Spells (ofJson count) n := by
      rcases hcount with rfl | rfl
      · exact spells_int n
      · exact spells_natText n
    rw [read?_of_fields hspells hothers hperm, if_pos (by omega)]
    rfl
  · rw [read?_text, if_pos hp]
  · intro target n w d hn hnames htarget hw hcount hspells
    have hd : countOf? d = some n := by
      rw [hspells.countOf?, if_pos (by omega)]
      rfl
    exact (read?_eq_some_iff h).mpr ⟨hnames, ⟨_, htarget, hw⟩, d, hcount, hd⟩
  · intro d hd i hspells hi
    rw [Option.eq_none_iff_forall_ne_some]
    intro p hp
    obtain ⟨_, _, d', hcount, hread⟩ := (read?_eq_some_iff h).mp hp
    rw [hcount, List.mem_singleton] at hd
    subst hd
    rw [hspells.countOf?, if_neg (by omega)] at hread
    cases hread
  · intro hmissing
    rw [Option.eq_none_iff_forall_ne_some]
    intro p hp
    obtain ⟨_, ⟨d, htarget, _⟩, d', hcount, _⟩ := (read?_eq_some_iff h).mp hp
    rcases hmissing with hnil | hnil
    · cases htarget.symm.trans hnil
    · cases hcount.symm.trans hnil

/-- The count comes first, as a number, and another member stands between the fields. With blanks, a count of minus five
in a string and no target, nothing is read. -/
theorem read?_spellings_mixed :
    let others : List (String × Json) := [("note", .array [.null, .string "x"])]
    let fields : List (String × Json) :=
      [("maxReceiveCount", .int 3), ("note", .array [.null, .string "x"]), ("deadLetterTargetArn", .string "arn\"1")]
    let w : List Char := "arn\"1".toList.flatMap escape
    let refused : String := "\x7b \"maxReceiveCount\" : \"-5\" \x7d"
    let members : List (List Char × Draft) := [("maxReceiveCount".toList, .string "-5".toList)]
    ((∀ e ∈ others, e.1 ≠ "deadLetterTargetArn" ∧ e.1 ≠ "maxReceiveCount") ∧
      fields.Perm (("deadLetterTargetArn", .string "arn\"1") :: ("maxReceiveCount", .int 3) :: others) ∧
      read? (Json.object fields).compact = some ⟨"arn\"1", 3⟩) ∧
    read? (text ⟨"arn\"1", 3⟩) = some ⟨"arn\"1", 3⟩ ∧
    (Draft.read? (Json.object fields).compact = some (.object (Draft.ofMembers fields)) ∧
      (∀ e ∈ Draft.ofMembers fields, (decodeText? e.1).isSome = true) ∧
      valuesOf "deadLetterTargetArn" (Draft.ofMembers fields) = [.string w] ∧ decodeText? w = some "arn\"1" ∧
      valuesOf "maxReceiveCount" (Draft.ofMembers fields) = [ofJson (.int 3)] ∧ Spells (ofJson (.int 3)) (3 : Nat) ∧
      read? (Json.object fields).compact = some ⟨"arn\"1", 3⟩) ∧
    Draft.read? refused = some (.object members) ∧ Spells (.string "-5".toList) (-5) ∧
    .string "-5".toList ∈ valuesOf "maxReceiveCount" members ∧ valuesOf "deadLetterTargetArn" members = [] ∧
    read? refused = none := by
  intro others fields w refused members
  obtain ⟨hfields, htext, hobject⟩ := read?_spellings
  have hothers : ∀ e ∈ others, e.1 ≠ "deadLetterTargetArn" ∧ e.1 ≠ "maxReceiveCount" :=
    List.forall_mem_singleton.mpr (by decide)
  have hperm : fields.Perm (("deadLetterTargetArn", .string "arn\"1") :: ("maxReceiveCount", .int 3) :: others) :=
    List.perm_append_singleton ("deadLetterTargetArn", Json.string "arn\"1") (("maxReceiveCount", .int 3) :: others)
  have hcompact := draft_compact (.object fields)
  have hnames := isSome_decodeText?_ofMembers fields
  have htarget : valuesOf "deadLetterTargetArn" (Draft.ofMembers fields) = [.string w] := by
    simp [valuesOf_ofMembers, fields, ofJson, w]
  have hcount : valuesOf "maxReceiveCount" (Draft.ofMembers fields) = [ofJson (.int 3)] := by
    simp [valuesOf_ofMembers, fields]
  have hw : decodeText? w = some "arn\"1" := decodeText?_escape _
  have htokens : tokens? refused = some (Draft.object members).tokens := by decide +kernel
  have hrefused : Draft.read? refused = some (.object members) := by
    rw [Draft.read?, htokens]
    exact ofTokens?_tokens (.object members)
  have hspells : Spells (.string "-5".toList) (-5) := .string (by decide)
  have hmem : .string "-5".toList ∈ valuesOf "maxReceiveCount" members := by
    rw [show valuesOf "maxReceiveCount" members = [.string "-5".toList] from rfl]
    exact List.mem_singleton_self _
  have hmissing : valuesOf "deadLetterTargetArn" members = [] := by decide
  refine ⟨⟨hothers, hperm, hfields _ 3 _ others fields (by decide) (Or.inl rfl) hothers hperm⟩,
    htext ⟨"arn\"1", 3⟩ (by decide), ?_, hrefused, hspells, hmem, hmissing, ?_⟩
  · exact ⟨hcompact, hnames, htarget, hw, hcount, spells_int 3,
      (hobject _ _ hcompact).1 _ 3 w _ (by decide) hnames htarget hw hcount (spells_int 3)⟩
  · exact (hobject _ _ hrefused).2.1 _ hmem (-5) hspells (Or.inl (by decide))

end DeadLetter.RedrivePolicy

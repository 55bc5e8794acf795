import DeadLetter.Json.Printer
import DeadLetter.Json.Token
import DeadLetter.Proofs.Text.Digits

/-!
# Numbers of JSON texts that are read back

What is written for a number, whether for an integer (`toList_intText_eq`) or for a floating point number
(`exists_floatText_eq`), is digits behind a sign, with an exponent or without. So it is a bare token
(`isNumber_intText`, `isNumber_floatText`) and keeps to the strict grammar (`Numeral.read?_intText`,
`Numeral.isSome_read?_floatText`). The value of an integer is the integer if that fits 64 bits, signed or unsigned
(`Numeral.toInt?_ofInt`).
-/

namespace DeadLetter.Json

set_option autoImplicit false

/-! ## Digits with a sign -/

/-- Characters behind a minus sign or without one. -/
def signed (negative : Bool) (cs : List Char) : List Char := if negative then '-' :: cs else cs

/-- No digit comes next. -/
def NoDigitAhead (rest : List Char) : Prop := ∀ c ∈ rest.head?, c.isDigit = false

theorem noDigitAhead_nil : NoDigitAhead [] := nofun

theorem noDigitAhead_cons {c : Char} {rest : List Char} (h : c.isDigit = false) : NoDigitAhead (c :: rest) := by
  rintro _ ⟨⟩
  exact h

theorem isDigit_of_mem_toDigits {n : Nat} : ∀ c ∈ Nat.toDigits 10 n, c.isDigit = true :=
  fun _ => Nat.isDigit_of_mem_toDigits (by decide) (by decide)

/-- A numeral begins with a digit, so with neither a sign nor a point. -/
theorem exists_toDigits_eq_cons (n : Nat) :
    ∃ c cs, Nat.toDigits 10 n = c :: cs ∧ c ≠ '+' ∧ c ≠ '-' ∧ c ≠ '.' := by
  obtain ⟨c, cs, hcs⟩ := List.exists_cons_of_ne_nil (@Nat.toDigits_ne_nil n 10)
  have hdigit : c.isDigit = true := isDigit_of_mem_toDigits c (hcs ▸ List.mem_cons_self)
  have hne : ∀ d : Char, d.isDigit = false → c ≠ d := by
    rintro d hd rfl
    rw [hdigit] at hd
    cases hd
  exact ⟨c, cs, hcs, hne '+' rfl, hne '-' rfl, hne '.' rfl⟩

theorem toList_intText_eq (n : Int) : (Text.intText n).toList = signed (n < 0) (Nat.toDigits 10 n.natAbs) := by
  simp [Text.toList_intText, signed]

/-- A floating point number is written as digits and an exponent. -/
theorem exists_floatText_eq (x : Binary64) : ∃ (negative down : Bool) (m e : Nat),
    floatText x = signed negative (Nat.toDigits 10 m ++ 'e' :: signed down (Nat.toDigits 10 e)) := by
  have hsign : ∀ cs, (if x.bits >>> 63 = 0 then [] else ['-']) ++ cs = signed (x.bits >>> 63 ≠ 0) cs := by
    intro cs
    by_cases h : x.bits >>> 63 = 0 <;> simp [signed, h]
  unfold floatText
  dsimp only
  split
  · exact ⟨_, false, _, 0, by rw [List.append_assoc, hsign]; rfl⟩
  · exact ⟨_, true, _, _, by rw [List.append_assoc, hsign]; rfl⟩

/-! ## The strict grammar -/

namespace Numeral

def digitsOf (cs : List Char) : List Nat := cs.map fun c => c.toNat - '0'.toNat

theorem natOf_digitsOf (cs : List Char) : natOf (digitsOf cs) = Nat.ofDigitChars 10 cs 0 := by
  rw [natOf, digitsOf, List.foldl_map]
  rfl

theorem digit?_of_not_isDigit {c : Char} (h : c.isDigit = false) : Text.digit? c = none := by
  simp only [Char.isDigit, Bool.and_eq_false_iff, decide_eq_false_iff_not] at h
  exact if_neg fun hc => h.elim (fun hn => hn hc.1) fun hn => hn hc.2

theorem spanDigits_append {cs rest : List Char} (h : ∀ c ∈ cs, c.isDigit = true) (hrest : NoDigitAhead rest) :
    spanDigits (cs ++ rest) = (digitsOf cs, rest) := by
  induction cs with
  | nil =>
    cases rest with
    | nil => rfl
    | cons c rest =>
      rw [List.nil_append, spanDigits, digit?_of_not_isDigit (hrest c rfl)]
      rfl
  | cons c cs ih =>
    rw [List.cons_append, spanDigits, Text.digit?_of_isDigit (h c List.mem_cons_self),
      ih fun c hc => h c (List.mem_cons_of_mem _ hc)]
    rfl

def ofInt (n : Int) : Numeral := ⟨n < 0, digitsOf (Nat.toDigits 10 n.natAbs), [], none⟩

theorem digitsOf_toDigits_ne_nil (n : Nat) : digitsOf (Nat.toDigits 10 n) ≠ [] := fun h =>
  Nat.toDigits_ne_nil (List.map_eq_nil_iff.mp h)

/-- No further digit follows a leading zero. -/
theorem digitsOf_toDigits_ne {n d : Nat} {ds : List Nat} : digitsOf (Nat.toDigits 10 n) ≠ 0 :: d :: ds := by
  intro h
  obtain ⟨c, cs, hcs, hc, hds⟩ := List.map_eq_cons_iff.mp h
  have hdigit := isDigit_of_mem_toDigits c (hcs ▸ List.mem_cons_self)
  have hzero : c = '0' := by
    simp only [Char.isDigit, Bool.and_eq_true, decide_eq_true_eq] at hdigit
    have hle : '0'.toNat ≤ c.toNat := hdigit.1
    exact Char.toNat_inj.mp (by omega)
  rw [hzero] at hcs
  rw [Text.toDigits_head hcs] at hds
  cases hds

theorem readFraction?_of_ne {negative : Bool} {whole : List Nat} {cs : List Char} (h : cs.head? ≠ some '.') :
    readFraction? negative whole cs = (readExponent? cs).map fun e => ⟨negative, whole, [], e⟩ := by
  unfold readFraction?
  split
  · exact absurd rfl h
  · rfl

theorem readUnsigned?_toDigits (negative : Bool) (n : Nat) {rest : List Char} (hrest : NoDigitAhead rest)
    (hpoint : rest.head? ≠ some '.') :
    readUnsigned? negative (Nat.toDigits 10 n ++ rest) =
      (readExponent? rest).map fun e => ⟨negative, digitsOf (Nat.toDigits 10 n), [], e⟩ := by
  unfold readUnsigned?
  rw [spanDigits_append isDigit_of_mem_toDigits hrest]
  split
  · next h => exact absurd (congrArg Prod.fst h) (digitsOf_toDigits_ne_nil n)
  · next h => exact absurd (congrArg Prod.fst h) digitsOf_toDigits_ne
  · next h =>
    cases h
    exact readFraction?_of_ne hpoint

theorem read?_signed (negative : Bool) (n : Nat) (rest : List Char) :
    read? (signed negative (Nat.toDigits 10 n ++ rest)) = readUnsigned? negative (Nat.toDigits 10 n ++ rest) := by
  cases negative with
  | true => rfl
  | false =>
    obtain ⟨c, cs, hcs, _, hminus, _⟩ := exists_toDigits_eq_cons n
    rw [hcs]
    unfold signed read?
    split
    · next h => exact absurd (List.cons.inj h).1 hminus
    · rfl

theorem read?_intText (n : Int) : read? (Text.intText n).toList = some (ofInt n) := by
  have hread := readUnsigned?_toDigits (decide (n < 0)) n.natAbs noDigitAhead_nil (by simp)
  rw [toList_intText_eq, ← List.append_nil (Nat.toDigits 10 n.natAbs), read?_signed, hread]
  rfl

theorem exists_readExponent? (down : Bool) (e : Nat) :
    ∃ i, readExponent? ('e' :: signed down (Nat.toDigits 10 e)) = some i := by
  have hspan : spanDigits (Nat.toDigits 10 e) = (digitsOf (Nat.toDigits 10 e), []) := by
    simpa using spanDigits_append (@isDigit_of_mem_toDigits e) noDigitAhead_nil
  obtain ⟨d, ds, hds⟩ := List.exists_cons_of_ne_nil (digitsOf_toDigits_ne_nil e)
  obtain ⟨c, cs, hcs, hplus, hminus, _⟩ := exists_toDigits_eq_cons e
  rw [hds, hcs] at hspan
  cases down <;> simp [readExponent?, signed, hcs, hplus, hminus, hspan]

theorem isSome_read?_floatText (x : Binary64) : (read? (floatText x)).isSome = true := by
  obtain ⟨negative, down, m, e, htext⟩ := exists_floatText_eq x
  obtain ⟨i, hexponent⟩ := exists_readExponent? down e
  rw [htext, read?_signed, readUnsigned?_toDigits negative m (noDigitAhead_cons rfl) (by simp), hexponent]
  rfl

/-! ## Values -/

theorem toInt?_ofInt (n : Int) :
    (ofInt n).toInt? = if -0x8000000000000000 ≤ n ∧ n ≤ 0xFFFFFFFFFFFFFFFF then some n else none := by
  have hvalue : natOf (digitsOf (Nat.toDigits 10 n.natAbs)) = n.natAbs := by
    rw [natOf_digitsOf, Nat.ofDigitChars_ten_toDigits]
  unfold toInt? ofInt
  dsimp only
  rw [hvalue, if_neg (by simp)]
  by_cases hn : n < 0
  · have habs : -(n.natAbs : Int) = n := by omega
    rw [if_pos (decide_eq_true hn), habs]
    exact if_congr (by omega) rfl rfl
  · have habs : (n.natAbs : Int) = n := by omega
    rw [if_neg (by simpa using hn), habs]
    exact if_congr (by omega) rfl rfl

theorem toJson?_ofInt {n : Int} (hlow : -0x8000000000000000 ≤ n) (hhigh : n ≤ 0xFFFFFFFFFFFFFFFF) :
    (ofInt n).toJson? = some (.int n) := by
  rw [toJson?, toInt?_ofInt, if_pos ⟨hlow, hhigh⟩]

end Numeral

/-! ## Bare tokens -/

namespace Lexer

theorem many_append {cs rest : List Char} (h : ∀ c ∈ cs, c.isDigit = true) (hrest : NoDigitAhead rest) :
    Text.Scan.many Char.isDigit (cs ++ rest) = some (cs, rest) := by
  have htail : rest.takeWhile Char.isDigit = [] ∧ rest.dropWhile Char.isDigit = rest := by
    cases rest with
    | nil => exact ⟨rfl, rfl⟩
    | cons c rest => simp [hrest c rfl]
  rw [Text.Scan.many, List.takeWhile_append_of_pos h, List.dropWhile_append_of_pos h, htail.1, htail.2, List.append_nil]

open Text.Scan in
/-- Reads the exponent that ends a number, if there is one. -/
def exponent : Text.Scan Unit := do
  let next ← get
  if next ≠ [] then
    let _ ← either 'e' 'E'
    if !(← skip "+") then let _ ← skip "-"
    let _ ← oneOrMore Char.isDigit

theorem number_signed (negative : Bool) (n : Nat) {rest : List Char} (hrest : NoDigitAhead rest)
    (hpoint : rest.head? ≠ some '.') : number (signed negative (Nat.toDigits 10 n ++ rest)) = exponent rest := by
  obtain ⟨c, cs, hcs, _, hminus, _⟩ := exists_toDigits_eq_cons n
  have hmany : Text.Scan.many Char.isDigit (c :: (cs ++ rest)) = some (c :: cs, rest) := by
    have h := many_append (@isDigit_of_mem_toDigits n) hrest
    rwa [hcs] at h
  have hskip : Text.Scan.skip "." rest = some (false, rest) := by
    cases rest with
    | nil => rfl
    | cons d rest =>
      have hd : '.' ≠ d := fun h => hpoint (congrArg some h.symm)
      simp [Text.Scan.skip, hd]
  have hsign : Text.Scan.skip "-" (signed negative (c :: (cs ++ rest))) = some (negative, c :: (cs ++ rest)) := by
    cases negative <;> simp [Text.Scan.skip, signed, hminus.symm]
  rw [hcs, List.cons_append]
  simp [number, exponent, Text.Scan.bind_apply, hsign, hmany, hskip, guard]

theorem exponent_nil : exponent [] = some ((), []) := rfl

theorem exponent_signed (down : Bool) (e : Nat) :
    exponent ('e' :: signed down (Nat.toDigits 10 e)) = some ((), []) := by
  obtain ⟨c, cs, hcs, hplus, hminus, _⟩ := exists_toDigits_eq_cons e
  have hmany : Text.Scan.many Char.isDigit (c :: cs) = some (c :: cs, []) := by
    have h := many_append (@isDigit_of_mem_toDigits e) noDigitAhead_nil
    rwa [List.append_nil, hcs] at h
  rw [hcs]
  cases down <;>
    simp [exponent, Text.Scan.bind_apply, Text.Scan.pure_apply, Text.Scan.get_apply, Text.Scan.either, Text.Scan.one,
      Text.Scan.skip, Text.Scan.oneOrMore, signed, hplus.symm, hminus.symm, hmany, guard]

theorem isNumber_signed (negative : Bool) (n : Nat) {rest : List Char} (hrest : NoDigitAhead rest)
    (hpoint : rest.head? ≠ some '.') (hexponent : exponent rest = some ((), [])) :
    isNumber (signed negative (Nat.toDigits 10 n ++ rest)) = true := by
  have hhead : (signed negative (Nat.toDigits 10 n ++ rest)).head? ≠ some '.' := by
    obtain ⟨c, cs, hcs, _, _, hpoint⟩ := exists_toDigits_eq_cons n
    rw [hcs]
    cases negative <;> simp [signed, hpoint]
  simp [isNumber, hhead, Text.Scan.whole?, number_signed negative n hrest hpoint, hexponent]

theorem isNumber_intText (n : Int) : isNumber (Text.intText n).toList = true := by
  have h := isNumber_signed (decide (n < 0)) n.natAbs noDigitAhead_nil (by simp) exponent_nil
  rwa [List.append_nil, ← toList_intText_eq] at h

theorem isNumber_floatText (x : Binary64) : isNumber (floatText x) = true := by
  obtain ⟨negative, down, m, e, htext⟩ := exists_floatText_eq x
  rw [htext]
  exact isNumber_signed negative m (noDigitAhead_cons rfl) (by simp) (exponent_signed down e)

theorem ofBare?_of_isNumber {cs : List Char} (h : isNumber cs = true) : ofBare? cs = some (.number cs) := by
  have hname : ∀ name : String, isNumber name.toList = false → cs ≠ name.toList := by
    intro name hname hcs
    rw [← hcs, h] at hname
    cases hname
  unfold ofBare?
  rw [if_neg (hname "null" (by decide +kernel)), if_neg (hname "true" (by decide +kernel)),
    if_neg (hname "false" (by decide +kernel)), if_pos h]

theorem isBare_of_mem_signed {negative : Bool} {cs : List Char} (h : ∀ c ∈ cs, isBare c = true) {c : Char}
    (hc : c ∈ signed negative cs) : isBare c = true := by
  cases negative with
  | true =>
    rcases List.mem_cons.mp hc with rfl | hc
    · rfl
    · exact h c hc
  | false => exact h c hc

theorem isBare_of_mem_toDigits {n : Nat} : ∀ c ∈ Nat.toDigits 10 n, isBare c = true := by
  intro c hc
  simp [isBare, Char.isAlphanum, isDigit_of_mem_toDigits c hc]

theorem isBare_of_mem_intText {n : Int} {c : Char} (h : c ∈ (Text.intText n).toList) : isBare c = true := by
  rw [toList_intText_eq] at h
  exact isBare_of_mem_signed isBare_of_mem_toDigits h

theorem isBare_of_mem_floatText {x : Binary64} {c : Char} (h : c ∈ floatText x) : isBare c = true := by
  obtain ⟨negative, down, m, e, htext⟩ := exists_floatText_eq x
  rw [htext] at h
  refine isBare_of_mem_signed (fun d hd => ?_) h
  rcases List.mem_append.mp hd with hd | hd
  · exact isBare_of_mem_toDigits d hd
  · rcases List.mem_cons.mp hd with rfl | hd
    · rfl
    · exact isBare_of_mem_signed isBare_of_mem_toDigits hd

theorem floatText_ne_nil (x : Binary64) : floatText x ≠ [] := by
  obtain ⟨negative, down, m, e, htext⟩ := exists_floatText_eq x
  cases negative <;> simp [htext, signed]

end Lexer

end DeadLetter.Json

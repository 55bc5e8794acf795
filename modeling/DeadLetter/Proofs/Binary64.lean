import DeadLetter.Binary64
import Mathlib.Data.Nat.Dist
import Mathlib.Tactic.Positivity

/-!
# The floating point number of an integer

`units` is the value of a finite number in multiples of `2 ^ -1074`, the least positive one. `isNearest_ofInt` : no
finite number is nearer to an integer of at most 1023 bits than `ofInt` of it, and of two that are as near it is the even
one. Let `2 ^ e` be the greatest power of two that is not above the integer. From `2 ^ e` on, all numbers are multiples
of `2 ^ (e - 52)`, and `leading` picks the nearest of these (`dist_roundShift_le`). Those below are farther away than
`2 ^ e` itself.
-/

namespace DeadLetter.Binary64

set_option autoImplicit false

/-! ## Values -/

def exponent (x : Binary64) : Nat := x.bits.toNat / 2 ^ 52 % 2 ^ 11

def significand (x : Binary64) : Nat := (if x.exponent = 0 then 0 else 2 ^ 52) + x.bits.toNat % 2 ^ 52

/-- Neither infinite nor undefined. -/
def IsFinite (x : Binary64) : Prop := x.exponent ≠ 2047

/-- The absolute value, in multiples of `2 ^ -1074`. -/
def magnitude (x : Binary64) : Nat := x.significand * 2 ^ (x.exponent - 1)

/-- The value, in multiples of `2 ^ -1074`. -/
def units (x : Binary64) : Int := if 2 ^ 63 ≤ x.bits.toNat then -x.magnitude else x.magnitude

/-- The number 1, in multiples of `2 ^ -1074`. -/
def unitsOfOne : Nat := 2 ^ 1074

/-- How far a number is from an integer, in multiples of `2 ^ -1074`. -/
def distance (x : Binary64) (n : Int) : Nat := (x.units - n * unitsOfOne).natAbs

/-- What an integer is rounded to: the nearest number, and the even one if two are as near. -/
structure IsNearest (x : Binary64) (n : Int) : Prop where
  finite : x.IsFinite
  nearest : ∀ y : Binary64, y.IsFinite → x.distance n ≤ y.distance n
  even : ∀ y : Binary64, y.IsFinite → y.distance n = x.distance n → y.units = x.units ∨ x.significand % 2 = 0

theorem significand_lt (x : Binary64) : x.significand < 2 ^ 53 := by
  unfold significand
  split <;> omega

/-- All numbers from `2 ^ (e - 1022)` on, and only these, are multiples of `2 ^ (e - 1074)`. -/
theorem magnitude_cases (x : Binary64) (e : Nat) :
    (∃ i, x.magnitude = i * 2 ^ e) ∨ x.magnitude < 2 ^ 52 * 2 ^ e := by
  unfold magnitude
  by_cases he : e ≤ x.exponent - 1
  · refine Or.inl ⟨x.significand * 2 ^ (x.exponent - 1 - e), ?_⟩
    rw [Nat.mul_assoc, ← Nat.pow_add, Nat.sub_add_cancel he]
  · right
    calc x.significand * 2 ^ (x.exponent - 1)
      _ < 2 ^ 53 * 2 ^ (x.exponent - 1) := Nat.mul_lt_mul_of_pos_right x.significand_lt (Nat.two_pow_pos _)
      _ ≤ 2 ^ 53 * 2 ^ (e - 1) := Nat.mul_le_mul_left _ (Nat.pow_le_pow_right Nat.two_pos (by omega))
      _ = 2 ^ 52 * 2 ^ e := by rw [← Nat.pow_add, ← Nat.pow_add]; congr 1; omega

/-- Digits that round up to `2 ^ 53` carry into the exponent. -/
theorem magnitude_ofBits {x : Binary64} {s e m : Nat} (hbits : x.bits.toNat = s * 2 ^ 63 + ((1022 + e) * 2 ^ 52 + m))
    (he : e ≤ 1022) (hm : 2 ^ 52 ≤ m ∧ m ≤ 2 ^ 53) :
    x.IsFinite ∧ x.magnitude = m * 2 ^ (1022 + e) ∧ (m % 2 = 0 → x.significand % 2 = 0) := by
  rcases Nat.lt_or_eq_of_le hm.2 with hlt | rfl
  · have hexponent : x.exponent = 1023 + e := by unfold exponent; omega
    have hsignificand : x.significand = m := by unfold significand; rw [hexponent, if_neg (by omega)]; omega
    refine ⟨by unfold IsFinite; omega, ?_, fun h => hsignificand ▸ h⟩
    rw [magnitude, hsignificand, hexponent, show 1023 + e - 1 = 1022 + e by omega]
  · have hexponent : x.exponent = 1024 + e := by unfold exponent; omega
    have hsignificand : x.significand = 2 ^ 52 := by unfold significand; rw [hexponent, if_neg (by omega)]; omega
    refine ⟨by unfold IsFinite; omega, ?_, fun _ => hsignificand ▸ rfl⟩
    rw [magnitude, hsignificand, hexponent, ← Nat.pow_add, ← Nat.pow_add]
    congr 1
    omega

/-! ## Rounding -/

theorem roundShift_cases (n k : Nat) : ∃ q r, n = q * 2 ^ k + r ∧ r < 2 ^ k ∧
    (2 * r + q % 2 ≤ 2 ^ k ∧ roundShift n k = q ∨ 2 ^ k < 2 * r + q % 2 ∧ roundShift n k = q + 1) := by
  refine ⟨n / 2 ^ k, n % 2 ^ k, (Nat.div_add_mod' n _).symm, Nat.mod_lt n (Nat.two_pow_pos k), ?_⟩
  dsimp only [roundShift]
  rw [Nat.shiftRight_eq_div_pow, Nat.one_shiftLeft]
  by_cases h : 2 * (n % 2 ^ k) + n / 2 ^ k % 2 ≤ 2 ^ k
  · exact Or.inl ⟨h, if_pos h⟩
  · exact Or.inr ⟨Nat.lt_of_not_le h, if_neg h⟩

/-- No other multiple is nearer, and another is as near only to an even one. -/
theorem dist_roundShift_le (n k i : Nat) :
    Nat.dist (roundShift n k * 2 ^ k) n ≤ Nat.dist (i * 2 ^ k) n ∧
    (Nat.dist (i * 2 ^ k) n = Nat.dist (roundShift n k * 2 ^ k) n → i = roundShift n k ∨ roundShift n k % 2 = 0) := by
  obtain ⟨q, r, hn, hr, hround⟩ := roundShift_cases n k
  generalize 2 ^ k = w, roundShift n k = m at *
  have hm : m * w = q * w ∧ m = q ∧ 2 * r + q % 2 ≤ w ∨ m * w = q * w + w ∧ m = q + 1 ∧ w < 2 * r + q % 2 := by
    rcases hround with ⟨hle, rfl⟩ | ⟨hlt, rfl⟩
    · exact Or.inl ⟨rfl, rfl, hle⟩
    · exact Or.inr ⟨Nat.succ_mul q w, rfl, hlt⟩
  -- only the multiples on both sides of `n` are nearer than `w`, and one of these two is picked
  have hi : i * w + w ≤ q * w ∨ i = q ∧ i * w = q * w ∨ i = q + 1 ∧ i * w = q * w + w ∨ q * w + w + w ≤ i * w := by
    rcases Nat.lt_trichotomy i q with hbelow | rfl | habove
    · exact Or.inl (Nat.succ_mul i w ▸ Nat.mul_le_mul_right w hbelow)
    · exact Or.inr (Or.inl ⟨rfl, rfl⟩)
    · rcases Nat.eq_or_lt_of_le (show q + 1 ≤ i from habove) with rfl | hbeyond
      · exact Or.inr (Or.inr (Or.inl ⟨rfl, Nat.succ_mul q w⟩))
      · exact Or.inr (Or.inr (Or.inr (Nat.succ_mul q w ▸ Nat.succ_mul (q + 1) w ▸ Nat.mul_le_mul_right w hbeyond)))
  unfold Nat.dist
  omega

theorem roundShift_bounds {n k lo hi : Nat} (hlo : lo * 2 ^ k ≤ n) (hhi : n < hi * 2 ^ k) :
    lo ≤ roundShift n k ∧ roundShift n k ≤ hi := by
  obtain ⟨q, r, hn, hr, hround⟩ := roundShift_cases n k
  have hq : lo ≤ q := by
    refine Nat.le_of_lt_succ (Nat.lt_of_mul_lt_mul_right (a := 2 ^ k) ?_)
    rw [Nat.succ_mul]
    omega
  have hq' : q < hi := Nat.lt_of_mul_lt_mul_right (a := 2 ^ k) (by omega)
  omega

/-- The digits that are rounded have at least 53 places, of which the ones beyond are cut off. -/
theorem shifted_bounds {n : Nat} (hn : n ≠ 0) :
    2 ^ 52 * 2 ^ (n.log2 - 52) ≤ n * 2 ^ (52 - n.log2) ∧ n * 2 ^ (52 - n.log2) < 2 ^ 53 * 2 ^ (n.log2 - 52) := by
  obtain ⟨hlo, hhi⟩ := (Nat.log2_eq_iff hn).mp rfl
  generalize n.log2 = e at *
  rw [← Nat.pow_add, ← Nat.pow_add, show 52 + (e - 52) = e + (52 - e) by omega,
    show 53 + (e - 52) = e + 1 + (52 - e) by omega, Nat.pow_add 2 e, Nat.pow_add 2 (e + 1)]
  exact ⟨Nat.mul_le_mul_right _ hlo, Nat.mul_lt_mul_of_pos_right hhi (Nat.two_pow_pos _)⟩

theorem leading_eq (n : Nat) : leading n = roundShift (n * 2 ^ (52 - n.log2)) (n.log2 - 52) := by
  rw [leading, Nat.shiftLeft_eq]

theorem leading_bounds {n : Nat} (hn : n ≠ 0) : 2 ^ 52 ≤ leading n ∧ leading n ≤ 2 ^ 53 :=
  leading_eq n ▸ roundShift_bounds (shifted_bounds hn).1 (shifted_bounds hn).2

/-- No number is nearer than the leading digits, and another is as near only if the last of these is 0. -/
theorem dist_leading_le {n : Nat} (hn : n ≠ 0) (y : Binary64) :
    Nat.dist (leading n * 2 ^ (1022 + n.log2)) (n * unitsOfOne) ≤ Nat.dist y.magnitude (n * unitsOfOne) ∧
    (Nat.dist y.magnitude (n * unitsOfOne) = Nat.dist (leading n * 2 ^ (1022 + n.log2)) (n * unitsOfOne) →
      y.magnitude = leading n * 2 ^ (1022 + n.log2) ∨ leading n % 2 = 0) := by
  -- in multiples of `2 ^ p` the digits before rounding are the integer
  obtain ⟨p, hp, hp'⟩ : ∃ p, 1022 + n.log2 = n.log2 - 52 + p ∧ 52 - n.log2 + p = 1074 :=
    ⟨1022 + n.log2 - (n.log2 - 52), by omega, by omega⟩
  have hround := dist_roundShift_le (n * 2 ^ (52 - n.log2)) (n.log2 - 52)
  have hlow := (shifted_bounds hn).1
  have hy := y.magnitude_cases (1022 + n.log2)
  rw [← leading_eq] at hround
  rw [hp, Nat.pow_add] at hy ⊢
  rw [unitsOfOne, ← hp', Nat.pow_add, ← Nat.mul_assoc, ← Nat.mul_assoc]
  generalize n * 2 ^ (52 - n.log2) = shifted, 2 ^ (n.log2 - 52) = w, leading n = m, y.magnitude = magnitude at *
  have hpos : 0 < 2 ^ p := Nat.two_pow_pos p
  rcases hy with ⟨i, rfl⟩ | hbelow
  · rw [← Nat.mul_assoc, Nat.dist_mul_right, Nat.dist_mul_right]
    refine ⟨Nat.mul_le_mul_right _ (hround i).1, fun heq => ?_⟩
    exact ((hround i).2 (Nat.eq_of_mul_eq_mul_right hpos heq)).imp_left fun hi => by rw [hi]
  · have hpower : Nat.dist (m * w * 2 ^ p) (shifted * 2 ^ p) ≤ Nat.dist (2 ^ 52 * w * 2 ^ p) (shifted * 2 ^ p) := by
      rw [Nat.dist_mul_right, Nat.dist_mul_right]
      exact Nat.mul_le_mul_right _ (hround _).1
    have hlow' : 2 ^ 52 * w * 2 ^ p ≤ shifted * 2 ^ p := Nat.mul_le_mul_right _ hlow
    rw [← Nat.mul_assoc] at hbelow
    rw [Nat.dist_eq_sub_of_le hlow'] at hpower
    rw [Nat.dist_eq_sub_of_le (Nat.le_of_lt (Nat.lt_of_lt_of_le hbelow hlow'))]
    exact ⟨by omega, fun heq => absurd heq (by omega)⟩

/-! ## Signs -/

/-- The sign is that of an integer other than 0. -/
def SharesSign (x : Binary64) (n : Int) : Prop :=
  n < 0 ∧ x.units = -x.magnitude ∨ 0 < n ∧ x.units = x.magnitude

theorem unitsOfOne_pos : 0 < unitsOfOne := by
  unfold unitsOfOne
  positivity

theorem units_cases (x : Binary64) : x.units = x.magnitude ∨ x.units = -x.magnitude := by
  unfold units
  split
  · exact Or.inr rfl
  · exact Or.inl rfl

theorem dist_magnitude_le_distance (x : Binary64) (n : Int) :
    Nat.dist x.magnitude (n.natAbs * unitsOfOne) ≤ x.distance n := by
  have hone : n.natAbs * unitsOfOne = (n * unitsOfOne).natAbs := (Int.natAbs_mul n unitsOfOne).symm
  have hunits := x.units_cases
  rw [hone]
  unfold distance Nat.dist
  generalize n * unitsOfOne = target
  omega

theorem distance_of_sign {x : Binary64} {n : Int} (hsign : x.SharesSign n) :
    x.distance n = Nat.dist x.magnitude (n.natAbs * unitsOfOne) := by
  have habs : ((n.natAbs * unitsOfOne : Nat) : Int) = n.natAbs * unitsOfOne := Int.natCast_mul _ _
  unfold distance Nat.dist
  rcases hsign with ⟨hn, hunits⟩ | ⟨hn, hunits⟩
  · have htarget : n * unitsOfOne = -(n.natAbs * unitsOfOne : Nat) := by
      rw [habs, ← Int.neg_mul]; congr 1; omega
    omega
  · have htarget : n * unitsOfOne = (n.natAbs * unitsOfOne : Nat) := by
      rw [habs]; congr 1; omega
    omega

/-- Of two numbers of one magnitude that is not 0, that with the sign of an integer is nearer to it. -/
theorem units_eq_of_distance {x y : Binary64} {n : Int} (hsign : x.SharesSign n) (hpos : 0 < x.magnitude)
    (hsame : y.magnitude = x.magnitude) (hdistance : y.distance n = x.distance n) : y.units = x.units := by
  have hone : 0 < (unitsOfOne : Int) := Int.natCast_pos.mpr unitsOfOne_pos
  have hy := y.units_cases
  unfold distance at hdistance
  rcases hsign with ⟨hn, hunits⟩ | ⟨hn, hunits⟩
  · have htarget : n * unitsOfOne < 0 := Int.mul_neg_of_neg_of_pos hn hone
    omega
  · have htarget : 0 < n * unitsOfOne := Int.mul_pos hn hone
    omega

theorem toNat_bits_ofInt {n : Int} (hn : n ≠ 0) (hlog : n.natAbs.log2 ≤ 1022) :
    (ofInt n).bits.toNat =
      (if n < 0 then 1 else 0) * 2 ^ 63 + ((1022 + n.natAbs.log2) * 2 ^ 52 + leading n.natAbs) := by
  have hbounds := leading_bounds (Int.natAbs_ne_zero.mpr hn)
  rw [ofInt, bitsOfNat, if_neg (Int.natAbs_ne_zero.mpr hn), UInt64.toNat_ofNat', Nat.shiftLeft_eq]
  split <;> omega

/-- An integer is rounded to the nearest number. -/
theorem isNearest_ofInt {n : Int} (hlog : n.natAbs.log2 ≤ 1022) : (ofInt n).IsNearest n := by
  by_cases hn : n = 0
  · subst hn
    have hunits : (ofInt 0).units = 0 := by decide +kernel
    have hzero : (ofInt 0).distance 0 = 0 := by rw [distance, hunits, Int.zero_mul, Int.sub_zero, Int.natAbs_zero]
    exact {
      finite := by unfold IsFinite; decide +kernel
      nearest := fun y _ => hzero.trans_le (Nat.zero_le _)
      even := fun y _ _ => Or.inr (by decide +kernel) }
  have hbits := toNat_bits_ofInt hn hlog
  have hbounds := leading_bounds (Int.natAbs_ne_zero.mpr hn)
  obtain ⟨hfinite, hmagnitude, heven⟩ := magnitude_ofBits hbits hlog hbounds
  have hpos : 0 < (ofInt n).magnitude := by
    rw [hmagnitude]
    exact Nat.mul_pos (by omega) (Nat.two_pow_pos _)
  have hsign : (ofInt n).SharesSign n := by
    unfold SharesSign units
    split at hbits <;> split <;> omega
  have hleading := dist_leading_le (Int.natAbs_ne_zero.mpr hn)
  rw [← hmagnitude, ← distance_of_sign hsign] at hleading
  refine ⟨hfinite, fun y _ => (hleading y).1.trans (y.dist_magnitude_le_distance n), fun y _ heq => ?_⟩
  -- the distance without the sign lies between the two that are equal
  have hmagnitudes := le_antisymm (heq ▸ y.dist_magnitude_le_distance n) (hleading y).1
  refine ((hleading y).2 hmagnitudes).imp (fun hsame => ?_) heven
  exact units_eq_of_distance hsign hpos hsame heq

end DeadLetter.Binary64

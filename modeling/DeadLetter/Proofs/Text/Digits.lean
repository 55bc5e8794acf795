import DeadLetter.Text.Numeral
import Mathlib.Data.String.Basic

/-!
# Numerals that are read back

`readNat?_natText` : the decimal numeral of a number is read as that number by every bound that admits it, and by no
other (`readNat?_natText_of_lt`), and that of a negative integer by none (`readNat?_intText`). Different numbers have
different numerals (`natText_inj`). `toDigits_head` : a numeral that begins with a zero is zero.
-/

namespace DeadLetter.Text

set_option autoImplicit false

theorem digit?_of_isDigit {c : Char} (h : c.isDigit = true) : digit? c = some (c.toNat - '0'.toNat) := by
  simp only [Char.isDigit, Bool.and_eq_true, decide_eq_true_eq] at h
  exact if_pos h

theorem isDigit_of_mem_natText {n : Nat} {c : Char} (h : c ∈ (natText n).toList) : c.isDigit = true := by
  rw [natText, String.toList_ofList] at h
  exact Nat.isDigit_of_mem_toDigits (by decide) (by decide) h

theorem natText_inj {n k : Nat} (h : natText n = natText k) : n = k := by
  have hd : Nat.toDigits 10 n = Nat.toDigits 10 k := String.ofList_injective h
  have hn := @Nat.ofDigitChars_ten_toDigits n
  rw [hd, Nat.ofDigitChars_ten_toDigits] at hn
  exact hn.symm

theorem dash_notMem_natText (n : Nat) : '-' ∉ (natText n).toList := fun h => by
  have := isDigit_of_mem_natText h
  revert this
  decide

/-- Digits only make a value larger. -/
theorem le_ofDigitChars (cs : List Char) (n : Nat) : n ≤ Nat.ofDigitChars 10 cs n := by
  induction cs generalizing n with
  | nil => exact Nat.le_refl n
  | cons c cs ih =>
    rw [Nat.ofDigitChars_cons]
    exact le_trans (by omega) (ih _)

theorem readDigits_of_isDigit {bound : Nat} (beyond : NumeralError) {cs : List Char} (h : ∀ c ∈ cs, c.isDigit = true)
    (n : Nat) (hbound : Nat.ofDigitChars 10 cs n ≤ bound) :
    readDigits bound beyond cs n = .ok (Nat.ofDigitChars 10 cs n) := by
  induction cs generalizing n with
  | nil => rfl
  | cons c cs ih =>
    rw [Nat.ofDigitChars_cons] at hbound ⊢
    rw [readDigits, digit?_of_isDigit (h c List.mem_cons_self)]
    dsimp only
    rw [if_pos (le_trans (le_ofDigitChars cs _) hbound)]
    exact ih (fun c hc => h c (List.mem_cons_of_mem _ hc)) _ hbound

/-- What digits are read as is their value, and within the bound. -/
theorem eq_of_readDigits {bound : Nat} {beyond : NumeralError} {cs : List Char} (h : ∀ c ∈ cs, c.isDigit = true)
    {n m : Nat} (hn : n ≤ bound) (hread : readDigits bound beyond cs n = .ok m) :
    m = Nat.ofDigitChars 10 cs n ∧ m ≤ bound := by
  induction cs generalizing n with
  | nil =>
    cases hread
    exact ⟨rfl, hn⟩
  | cons c cs ih =>
    rw [readDigits, digit?_of_isDigit (h c List.mem_cons_self)] at hread
    dsimp only at hread
    rw [Nat.ofDigitChars_cons]
    split at hread
    · next hle => exact ih (fun c hc => h c (List.mem_cons_of_mem _ hc)) hle hread
    · cases hread

theorem readInt_of_isDigit (below above : Nat) {s : String} (hne : s.toList ≠ [])
    (h : ∀ c ∈ s.toList, c.isDigit = true) :
    readInt below above s = (readDigits above .tooLarge s.toList 0).map Int.ofNat := by
  have notSign : ∀ c cs, s.toList = c :: cs → c ≠ '+' ∧ c ≠ '-' := by
    intro c cs hs
    have hc := h c (hs ▸ List.mem_cons_self)
    constructor <;> rintro rfl <;> exact absurd hc (by decide)
  unfold readInt
  split
  · next hs => exact absurd hs hne
  · next hs => exact absurd rfl (notSign _ _ hs).1
  · next hs => exact absurd rfl (notSign _ _ hs).2
  · next hs => exact absurd rfl (notSign _ _ hs).1
  · next hs => exact absurd rfl (notSign _ _ hs).2
  · rfl

theorem ofDigitChars_natText (n : Nat) : Nat.ofDigitChars 10 (natText n).toList 0 = n := by
  rw [natText, String.toList_ofList, Nat.ofDigitChars_ten_toDigits]

theorem natText_ne_nil (n : Nat) : (natText n).toList ≠ [] := by
  rw [natText, String.toList_ofList]
  exact Nat.toDigits_ne_nil

theorem readInt_natText (below : Nat) {n above : Nat} (h : n ≤ above) : readInt below above (natText n) = .ok n := by
  have hbound : Nat.ofDigitChars 10 (natText n).toList 0 ≤ above := (ofDigitChars_natText n).trans_le h
  rw [readInt_of_isDigit below above (natText_ne_nil n) (fun c => isDigit_of_mem_natText),
    readDigits_of_isDigit .tooLarge (fun c => isDigit_of_mem_natText) 0 hbound, ofDigitChars_natText]
  rfl

theorem readNat?_natText {n bound : Nat} (h : n ≤ bound) : readNat? bound (natText n) = some n := by
  rw [readNat?, readInt_natText 0 h]
  rfl

theorem readNat?_natText_of_lt {n bound : Nat} (h : bound < n) : readNat? bound (natText n) = none := by
  rw [readNat?, readInt_of_isDigit 0 bound (natText_ne_nil n) fun c => isDigit_of_mem_natText]
  cases hread : readDigits bound .tooLarge (natText n).toList 0 with
  | error e => rfl
  | ok m =>
    obtain ⟨hvalue, hle⟩ := eq_of_readDigits (fun c => isDigit_of_mem_natText) (Nat.zero_le bound) hread
    rw [ofDigitChars_natText] at hvalue
    omega

/-- A number with a minus sign is no natural number. -/
theorem readNat?_dash {bound : Nat} {s : String} {cs : List Char} (h : s.toList = '-' :: cs) :
    readNat? bound s = none := by
  unfold readNat? readInt
  rw [h]
  cases cs <;> rfl

theorem readNat?_intText (bound : Nat) (n : Int) :
    readNat? bound (intText n) = if 0 ≤ n ∧ n ≤ bound then some n.toNat else none := by
  cases n with
  | ofNat n =>
    by_cases h : n ≤ bound
    · rw [if_pos ⟨Int.natCast_nonneg n, Int.ofNat_le.mpr h⟩]
      exact readNat?_natText h
    · rw [if_neg fun hn => h (Int.ofNat_le.mp hn.2)]
      exact readNat?_natText_of_lt (Nat.lt_of_not_le h)
  | negSucc n =>
    rw [if_neg fun hn => absurd hn.1 (by omega)]
    exact readNat?_dash (by rw [intText, String.toList_append]; rfl)

theorem toList_intText (n : Int) :
    (intText n).toList = if n < 0 then '-' :: Nat.toDigits 10 n.natAbs else Nat.toDigits 10 n.natAbs := by
  cases n with
  | ofNat n => simp [intText, natText]
  | negSucc n => simp [intText, natText, Int.negSucc_lt_zero]

theorem intText_ne_nil (n : Int) : (intText n).toList ≠ [] := by
  rw [toList_intText]
  split
  · exact List.cons_ne_nil _ _
  · exact Nat.toDigits_ne_nil

/-- Only zero has a numeral that begins with a zero. -/
theorem toDigits_head {n : Nat} {cs : List Char} (h : Nat.toDigits 10 n = '0' :: cs) : cs = [] := by
  induction n using Nat.strongRecOn generalizing cs with
  | _ n ih =>
    by_cases hn : n < 10
    · rw [Nat.toDigits_of_lt_base hn, List.cons.injEq] at h
      exact h.2.symm
    · rw [Nat.toDigits_of_base_le (by decide) (by omega)] at h
      cases hdigits : Nat.toDigits 10 (n / 10) with
      | nil => exact absurd hdigits Nat.toDigits_ne_nil
      | cons c ds =>
        rw [hdigits, List.cons_append, List.cons.injEq] at h
        obtain ⟨rfl, _⟩ := h
        -- a number that is not zero would begin with a zero
        have hds := ih (n / 10) (by omega) hdigits
        rw [hds] at hdigits
        have hzero := @Nat.ofDigitChars_ten_toDigits (n / 10)
        rw [hdigits] at hzero
        have : n / 10 = 0 := hzero.symm
        omega

end DeadLetter.Text

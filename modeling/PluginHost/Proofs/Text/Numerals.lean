import Mathlib.Tactic.IntervalCases
import PluginHost.Text.Numeral

/-!
# Numbers in decimal read back

The digits of a number stand for that number (`digitsValue_toDigits`), and the first of them is no
zero unless the number is zero (`head_toDigits_ne_zero`).  What is read is exactly what spells a
number (`IsNumeral`, `readNat_eq_some_iff`), so a number that is written is read back within every
bound that it keeps (`readNat_toDigits`).
-/

namespace PluginHost.Text

theorem isDigit_iff {c : Char} : isDigit c = true ↔ c.isDigit = true := by
  simp [isDigit, Char.isDigit, Char.le_def]

theorem digitsValue_eq_ofDigitChars (ds : List Char) (acc : Nat) :
    digitsValue acc ds = Nat.ofDigitChars 10 ds acc := by
  induction ds generalizing acc with
  | nil => simp
  | cons d ds ih =>
      rw [digitsValue_cons, ih, Nat.ofDigitChars_cons, Nat.mul_comm]
      rfl

theorem digitsValue_toDigits (n : Nat) : digitsValue 0 (Nat.toDigits 10 n) = n := by
  rw [digitsValue_eq_ofDigitChars, Nat.ofDigitChars_ten_toDigits]

theorem isDigit_of_mem_toDigits {n : Nat} {c : Char} (h : c ∈ Nat.toDigits 10 n) :
    isDigit c = true :=
  isDigit_iff.2 (Nat.isDigit_of_mem_toDigits (by decide) (by decide) h)

/-- Only the number zero starts with the digit zero. -/
theorem head_toDigits_ne_zero {n : Nat} (h : n ≠ 0) {d : Char} {ds : List Char}
    (hd : Nat.toDigits 10 n = d :: ds) : d ≠ '0' := by
  induction n using Nat.strongRecOn generalizing d ds with
  | ind n ih =>
      by_cases hsmall : n < 10
      · rw [Nat.toDigits_of_lt_base hsmall] at hd
        obtain ⟨rfl, -⟩ := List.cons.inj hd
        revert h
        interval_cases n <;> decide
      · rw [Nat.toDigits_of_base_le (by decide) (by omega)] at hd
        cases hq : Nat.toDigits 10 (n / 10) with
        | nil => exact absurd hq Nat.toDigits_ne_nil
        | cons e es =>
            rw [hq, List.cons_append] at hd
            obtain ⟨rfl, -⟩ := List.cons.inj hd
            exact ih (n / 10) (by omega) (by omega) hq

theorem ne_of_isDigit {c d : Char} (hc : isDigit c = true) (hd : isDigit d = false) : c ≠ d := by
  rintro rfl
  rw [hc] at hd
  contradiction

theorem notMem_toDigits {c : Char} (h : isDigit c = false) (n : Nat) : c ∉ Nat.toDigits 10 n :=
  fun hmem => ne_of_isDigit (isDigit_of_mem_toDigits hmem) h rfl

theorem toList_toString (n : Nat) : (toString n).toList = Nat.toDigits 10 n := by
  simp [toString]

/-! ## What is read -/

theorem readDigits_eq_some_iff {bound n : Nat} {cs : List Char} :
    readDigits bound cs = some n ↔
      cs ≠ [] ∧ (∀ d ∈ cs, d.isDigit = true) ∧ Nat.ofDigitChars 10 cs 0 = n ∧ n ≤ bound := by
  simp only [readDigits, digitsValue_eq_ofDigitChars, ← isDigit_iff]
  split
  · rename_i hbad
    refine iff_of_false (by simp) ?_
    rintro ⟨hne, hdigits, -⟩
    simp only [Bool.or_eq_true, List.isEmpty_iff, hne, false_or, Bool.not_eq_true'] at hbad
    rw [List.all_eq_true.2 hdigits] at hbad
    contradiction
  · rename_i hgood
    simp only [Bool.or_eq_true, List.isEmpty_iff, Bool.not_eq_true', not_or, Bool.not_eq_false,
      List.all_eq_true] at hgood
    split
    · rename_i hbound
      constructor
      · rintro ⟨⟩
        exact ⟨hgood.1, hgood.2, rfl, hbound⟩
      · rintro ⟨-, -, rfl, -⟩
        rfl
    · rename_i hbound
      refine iff_of_false (by simp) ?_
      rintro ⟨-, -, rfl, hle⟩
      exact hbound hle

/-- The characters spell a number: they are digits, with an optional plus sign in front. -/
def IsNumeral (cs : List Char) (n : Nat) : Prop :=
  ∃ digits, (cs = digits ∨ cs = '+' :: digits) ∧ digits ≠ [] ∧
    (∀ d ∈ digits, d.isDigit = true) ∧ Nat.ofDigitChars 10 digits 0 = n

/-- A number is read exactly if it is spelled, and keeps the bound. -/
theorem readNat_eq_some_iff {bound n : Nat} {cs : List Char} :
    readNat bound cs = some n ↔ IsNumeral cs n ∧ n ≤ bound := by
  rw [readNat.eq_def]
  split
  · rename_i rest
    rw [readDigits_eq_some_iff]
    constructor
    · rintro ⟨hne, hdigits, hvalue, hbound⟩
      exact ⟨⟨rest, .inr rfl, hne, hdigits, hvalue⟩, hbound⟩
    · rintro ⟨⟨digits, heq | heq, hne, hdigits, hvalue⟩, hbound⟩
      · have hplus : '+'.isDigit = true := hdigits '+' (by simp [← heq])
        exact absurd hplus (by decide)
      · obtain ⟨-, rfl⟩ := List.cons.inj heq
        exact ⟨hne, hdigits, hvalue, hbound⟩
  · rename_i hplus
    rw [readDigits_eq_some_iff]
    constructor
    · rintro ⟨hne, hdigits, hvalue, hbound⟩
      exact ⟨⟨cs, .inl rfl, hne, hdigits, hvalue⟩, hbound⟩
    · rintro ⟨⟨digits, rfl | rfl, hne, hdigits, hvalue⟩, hbound⟩
      · exact ⟨hne, hdigits, hvalue, hbound⟩
      · exact absurd rfl (hplus digits)

/-- Characters spell one number. -/
theorem IsNumeral.unique {cs : List Char} {m n : Nat} (hm : IsNumeral cs m) (hn : IsNumeral cs n) :
    m = n := by
  have hleft : readNat (max m n) cs = some m := readNat_eq_some_iff.2 ⟨hm, Nat.le_max_left ..⟩
  have hright : readNat (max m n) cs = some n := readNat_eq_some_iff.2 ⟨hn, Nat.le_max_right ..⟩
  exact Option.some.inj (hleft.symm.trans hright)

/-- What spells a number has a digit. -/
theorem IsNumeral.exists_digit {cs : List Char} {n : Nat} (h : IsNumeral cs n) :
    ∃ d ∈ cs, d.isDigit = true := by
  obtain ⟨digits, hcs, hne, hdigits, -⟩ := h
  obtain ⟨d, rest, rfl⟩ := List.exists_cons_of_ne_nil hne
  refine ⟨d, ?_, hdigits d (by simp)⟩
  rcases hcs with rfl | rfl <;> simp

theorem isNumeral_toDigits (n : Nat) : IsNumeral (Nat.toDigits 10 n) n := by
  refine ⟨_, .inl rfl, Nat.toDigits_ne_nil, fun d hd => ?_, ?_⟩
  · exact isDigit_iff.1 (isDigit_of_mem_toDigits hd)
  · rw [← digitsValue_eq_ofDigitChars, digitsValue_toDigits]

theorem readNat_toDigits {bound n : Nat} (h : n ≤ bound) :
    readNat bound (Nat.toDigits 10 n) = some n :=
  readNat_eq_some_iff.2 ⟨isNumeral_toDigits n, h⟩

end PluginHost.Text

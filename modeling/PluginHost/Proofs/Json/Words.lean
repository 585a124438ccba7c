import Mathlib.Tactic.SplitIfs
import PluginHost.Json.Reader
import PluginHost.Proofs.Text.Numerals

/-!
# The words of a JSON text read back

A text in quotation marks and a whole number are read back as they were written, whatever stands
behind them.

* Texts.  `readStringFrom_escapedChar` undoes one escaped character, `readString_flatMap` a whole
  text.
* Numbers.  `takeDigits_append` says that the digits of a number of 64 bits are taken to their end.
  What follows must not go on with the number: `EndsNumber`.
* Nothing that is written holds a newline (`newline_notMem_stringChars`).
-/

namespace PluginHost.Json

open PluginHost.Text

/-! ## Texts -/

theorem hexValue?_hexDigit : ∀ n, n < 16 → hexValue? (hexDigit n) = some n := by decide

theorem readHexFour_low {n : Nat} (h : n < 256) (rest : List Char) :
    readHexFour ('0' :: '0' :: hexDigit (n / 16) :: hexDigit (n % 16) :: rest) = .ok (n, rest) := by
  have hzero : hexValue? '0' = some 0 := by decide
  have hhigh := hexValue?_hexDigit (n / 16) (by omega)
  have hlow := hexValue?_hexDigit (n % 16) (by omega)
  simp only [readHexFour, hzero, hhigh, hlow]
  rw [show ((0 * 16 + 0) * 16 + n / 16) * 16 + n % 16 = n by omega]

/-- A control character, written by its code point, is read back. -/
theorem readCodePoint_low {c : Char} (h : c.toNat < 0x20) (rest : List Char) :
    readCodePoint ('0' :: '0' :: hexDigit (c.toNat / 16) :: hexDigit (c.toNat % 16) :: rest) =
      .ok (c, rest) := by
  have hfour := readHexFour_low (n := c.toNat) (by omega) rest
  have hhigh : (0xDC00 ≤ c.toNat && c.toNat ≤ 0xDFFF) = false := by
    rw [Bool.and_eq_false_iff]; left; simp; omega
  have hlow : (decide (c.toNat < 0xD800) || decide (0xDBFF < c.toNat)) = true := by
    rw [Bool.or_eq_true]; left; simp; omega
  simp [readCodePoint, hfour, hhigh, hlow, bind, Except.bind, pure, Except.pure]

/-- A character that is not escaped is no quotation mark, no backslash and no control character. -/
theorem escapedChar_cases (c : Char) :
    (∃ e, escapedChar c = ['\\', e] ∧ e ≠ 'u' ∧ simpleEscape? e = some c) ∨
      (escapedChar c = ['\\', 'u', '0', '0', hexDigit (c.toNat / 16), hexDigit (c.toNat % 16)] ∧
        c.toNat < 0x20) ∨
      (escapedChar c = [c] ∧ c ≠ '"' ∧ c ≠ '\\' ∧ ¬c.toNat < 0x20) := by
  unfold escapedChar
  split_ifs with hquote hback hbs hff hnl hcr htab hlow
  · exact .inl ⟨'"', rfl, by decide, by rw [beq_iff_eq.1 hquote]; rfl⟩
  · exact .inl ⟨'\\', rfl, by decide, by rw [beq_iff_eq.1 hback]; rfl⟩
  · exact .inl ⟨'b', rfl, by decide, by rw [beq_iff_eq.1 hbs]; rfl⟩
  · exact .inl ⟨'f', rfl, by decide, by rw [beq_iff_eq.1 hff]; rfl⟩
  · exact .inl ⟨'n', rfl, by decide, by rw [beq_iff_eq.1 hnl]; rfl⟩
  · exact .inl ⟨'r', rfl, by decide, by rw [beq_iff_eq.1 hcr]; rfl⟩
  · exact .inl ⟨'t', rfl, by decide, by rw [beq_iff_eq.1 htab]; rfl⟩
  · exact .inr (.inl ⟨rfl, hlow⟩)
  · exact .inr (.inr ⟨rfl, by simpa using hquote, by simpa using hback, hlow⟩)

theorem readStringFrom_escapedChar (c : Char) (fuel : Nat) (rest : List Char) :
    readStringFrom (fuel + 1) (escapedChar c ++ rest) =
      (readStringFrom fuel rest).map fun p => (c :: p.1, p.2) := by
  rcases escapedChar_cases c with ⟨e, he, hu, hsimple⟩ | ⟨he, hlow⟩ | ⟨he, hquote, hback, hlow⟩
  · have hescape : readEscape (e :: rest) = .ok (c, rest) := by
      rw [readEscape.eq_def]
      split
      · contradiction
      · rename_i heq; exact absurd (List.cons.inj heq).1 hu
      · rename_i heq
        obtain ⟨rfl, rfl⟩ := List.cons.inj heq
        rw [hsimple]
    rw [he]
    simp only [List.cons_append, List.nil_append, readStringFrom, hescape, bind, Except.bind, pure,
      Except.pure]
    cases readStringFrom fuel rest <;> rfl
  · rw [he]
    simp only [List.cons_append, List.nil_append, readStringFrom, readEscape,
      readCodePoint_low hlow, bind, Except.bind, pure, Except.pure]
    cases readStringFrom fuel rest <;> rfl
  · rw [he, List.cons_append, List.nil_append, readStringFrom.eq_def]
    split
    · contradiction
    · contradiction
    · rename_i heq; exact absurd (List.cons.inj heq).1 hquote
    · rename_i heq; exact absurd (List.cons.inj heq).1 hback
    · rename_i hfuel heq
      obtain ⟨rfl, rfl⟩ := List.cons.inj heq
      obtain rfl := Nat.succ.inj hfuel
      rw [if_neg hlow]
      simp only [bind, Except.bind, pure, Except.pure]
      cases readStringFrom fuel rest <;> rfl

theorem readStringFrom_flatMap (cs : List Char) {fuel : Nat} (hfuel : cs.length < fuel)
    (rest : List Char) :
    readStringFrom fuel (cs.flatMap escapedChar ++ '"' :: rest) = .ok (cs, rest) := by
  induction cs generalizing fuel with
  | nil =>
      obtain ⟨fuel, rfl⟩ : ∃ n, fuel = n + 1 := ⟨fuel - 1, by simp at hfuel; omega⟩
      rfl
  | cons c cs ih =>
      obtain ⟨fuel, rfl⟩ : ∃ n, fuel = n + 1 := ⟨fuel - 1, by omega⟩
      rw [List.flatMap_cons, List.append_assoc, readStringFrom_escapedChar,
        ih (by simpa using hfuel)]
      rfl

theorem length_le_length_flatMap_escapedChar (cs : List Char) :
    cs.length ≤ (cs.flatMap escapedChar).length := by
  induction cs with
  | nil => simp
  | cons c cs ih =>
      have hone : 1 ≤ (escapedChar c).length := by
        rcases escapedChar_cases c with ⟨e, he, -⟩ | ⟨he, -⟩ | ⟨he, -⟩ <;> simp [he]
      simp only [List.flatMap_cons, List.length_append, List.length_cons]
      omega

/-- A text is read back behind its opening quotation mark. -/
theorem readString_flatMap (s : String) (rest : List Char) :
    readString (s.toList.flatMap escapedChar ++ '"' :: rest) = .ok (s, rest) := by
  have hlength := length_le_length_flatMap_escapedChar s.toList
  have hfuel : s.toList.length < (s.toList.flatMap escapedChar ++ '"' :: rest).length + 1 := by
    simp only [List.length_append]
    omega
  have hread := readStringFrom_flatMap s.toList hfuel rest
  simp only [readString, hread, bind, Except.bind, pure, Except.pure, String.ofList_toList]

theorem stringChars_append (s : String) (rest : List Char) :
    stringChars s ++ rest = '"' :: (s.toList.flatMap escapedChar ++ '"' :: rest) := by
  simp [stringChars]

/-! ## Numbers -/

/-- What may stand behind a number: no character that the number would go on with. -/
def EndsNumber : List Char → Prop
  | [] => True
  | c :: _ => isDigit c = false ∧ c ≠ '.' ∧ c ≠ 'e' ∧ c ≠ 'E'

theorem le_digitsValue (acc : Nat) (ds : List Char) : acc ≤ digitsValue acc ds := by
  induction ds generalizing acc with
  | nil => exact Nat.le_refl _
  | cons d ds ih =>
      have := ih (acc * 10 + digitValue d)
      rw [digitsValue_cons]
      omega

/-- Digits are taken to their end as long as their number has 64 bits. -/
theorem takeDigits_append {acc : Nat} {ds rest : List Char} (hdigits : ∀ d ∈ ds, isDigit d = true)
    (hvalue : digitsValue acc ds ≤ maxUInt64) (hrest : EndsNumber rest) :
    takeDigits acc (ds ++ rest) = (digitsValue acc ds, ds.length, rest) := by
  induction ds generalizing acc with
  | nil =>
      cases rest with
      | nil => rfl
      | cons c rest => simp [takeDigits, hrest.1]
  | cons d ds ih =>
      rw [digitsValue_cons] at hvalue
      have hle := le_digitsValue (acc * 10 + digitValue d) ds
      have htake : (isDigit d && acc * 10 + digitValue d ≤ maxUInt64) = true := by
        simp only [Bool.and_eq_true, decide_eq_true_eq]
        exact ⟨hdigits d (by simp), by omega⟩
      rw [List.cons_append, takeDigits, if_pos htake,
        ih (fun x hx => hdigits x (by simp [hx])) hvalue]
      rfl

theorem dropDigits_of_endsNumber {rest : List Char} (h : EndsNumber rest) :
    dropDigits rest = (0, rest) := by
  cases rest with
  | nil => rfl
  | cons c rest => simp [dropDigits, h.1]

theorem readAfterWhole_of_endsNumber (negative : Bool) (n : Nat) {rest : List Char}
    (h : EndsNumber rest) : readAfterWhole negative n rest = .ok (wholeNumber negative n, rest) := by
  rw [readAfterWhole.eq_def]
  cases rest with
  | nil => rfl
  | cons c rest =>
      obtain ⟨-, hpoint, he, hE⟩ := h
      split <;> simp_all

/-- The digits of a number that starts with another digit than zero are read as a whole. -/
theorem readNumber_cons (negative : Bool) {d : Char} {ds rest : List Char} {n : Nat}
    (hzero : d ≠ '0') (hdigit : isDigit d = true)
    (htake : takeDigits 0 (d :: ds ++ rest) = (n, (d :: ds).length, rest)) (hrest : EndsNumber rest) :
    readNumber negative (d :: ds ++ rest) = .ok (wholeNumber negative n, rest) := by
  rw [List.cons_append] at htake ⊢
  rw [readNumber.eq_def]
  split
  · contradiction
  · rename_i heq; exact absurd (List.cons.inj heq).1 hzero
  · rename_i heq
    obtain ⟨rfl, rfl⟩ := List.cons.inj heq
    simp only [hdigit, Bool.not_true, Bool.false_eq_true, if_false, htake,
      dropDigits_of_endsNumber hrest, beq_self_eq_true, if_true,
      readAfterWhole_of_endsNumber negative n hrest]

theorem readNumber_toDigits (negative : Bool) {n : Nat} (hn : n ≤ maxUInt64) {rest : List Char}
    (hrest : EndsNumber rest) :
    readNumber negative (Nat.toDigits 10 n ++ rest) = .ok (wholeNumber negative n, rest) := by
  by_cases hzero : n = 0
  · subst hzero
    cases rest with
    | nil => rfl
    | cons c rest =>
        rw [Nat.toDigits_zero, List.cons_append, List.nil_append, readNumber]
        simp only [hrest.1, Bool.false_eq_true, if_false]
        exact readAfterWhole_of_endsNumber negative 0 hrest
  · cases hd : Nat.toDigits 10 n with
    | nil => exact absurd hd Nat.toDigits_ne_nil
    | cons d ds =>
        have hdigit : isDigit d = true := isDigit_of_mem_toDigits (n := n) (by simp [hd])
        have hvalue : digitsValue 0 (Nat.toDigits 10 n) ≤ maxUInt64 := by
          rw [digitsValue_toDigits]
          exact hn
        have htake := takeDigits_append (fun x hx => isDigit_of_mem_toDigits hx) hvalue hrest
        rw [digitsValue_toDigits, hd] at htake
        exact readNumber_cons negative (head_toDigits_ne_zero hzero hd) hdigit htake hrest

/-! ## No newline is written -/

theorem newline_notMem_escapedChar (c : Char) : '\n' ∉ escapedChar c := by
  have hdigit : ∀ n, n < 16 → hexDigit n ≠ '\n' := by decide
  rcases escapedChar_cases c with ⟨e, he, -, hsimple⟩ | ⟨he, hlow⟩ | ⟨he, -, -, hlow⟩
  · have hne : e ≠ '\n' := by rintro rfl; simp [simpleEscape?] at hsimple
    simp [he, Ne.symm hne]
  · have h1 := hdigit (c.toNat / 16) (by omega)
    have h2 := hdigit (c.toNat % 16) (by omega)
    simp [he, Ne.symm h1, Ne.symm h2]
  · have hne : c ≠ '\n' := by rintro rfl; exact hlow (by decide)
    simp [he, Ne.symm hne]

theorem newline_notMem_stringChars (s : String) : '\n' ∉ stringChars s := by
  have hnone : '\n' ∉ s.toList.flatMap escapedChar := by
    simp only [List.mem_flatMap, not_exists, not_and]
    exact fun c _ => newline_notMem_escapedChar c
  simp only [stringChars, List.cons_append, List.mem_cons, List.mem_append, List.not_mem_nil,
    or_false, not_or]
  exact ⟨by decide, hnone, by decide⟩

end PluginHost.Json

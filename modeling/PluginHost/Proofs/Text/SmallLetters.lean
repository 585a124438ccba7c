import PluginHost.Proofs.Encoding
import PluginHost.Text.Lowercase

/-!
# Dots and endings in small letters

A text in small letters starts with a dot exactly if the text does (`head?_lowercase`): no other
character has a dot for its small letter (`smallLetter_eq_dot_iff`).  The same is true of bytes and
the text that is read of them (`head?_lossyText`), since what is longer than one byte is no dot.

An ending that is in small letters already stays what it is, whatever stands in front of it
(`suffix_lowercase`).
-/

namespace PluginHost

namespace Text

/-- No capital letter of the table has a small letter as low as the dot. -/
theorem lowercaseRuns_above :
    ∀ r ∈ lowercaseRuns, ('.'.toNat : Int) < (r.1 : Int) + r.2.2.2 := by
  decide +kernel

theorem toLower_eq_dot_iff {c : Char} (h : c.toNat < 0x80) : c.toLower = '.' ↔ c = '.' := by
  have hall : ∀ n < 0x80, (Char.ofNat n).toLower = '.' ↔ Char.ofNat n = '.' := by decide
  have hc := hall c.toNat h
  rwa [Char.ofNat_toNat] at hc

theorem ofNat_ne_dot {n : Nat} (h : n ≠ '.'.toNat) : Char.ofNat n ≠ '.' := by
  by_cases hvalid : n.isValidChar
  · intro heq
    have hn := val_ofNat hvalid
    rw [heq] at hn
    exact h hn.symm
  · rw [Char.ofNat, dif_neg hvalid]
    decide

theorem smallLetter_eq_dot_iff {c : Char} : smallLetter c = '.' ↔ c = '.' := by
  unfold smallLetter
  split
  · rename_i hascii
    exact toLower_eq_dot_iff hascii
  · rename_i hlarge
    have hc : c ≠ '.' := by
      rintro rfl
      exact hlarge (by decide)
    split
    · rename_i first last step distance hrun
      have hfound := List.find?_some hrun
      have habove := lowercaseRuns_above _ (List.mem_of_find?_eq_some hrun)
      simp only [Bool.and_eq_true, decide_eq_true_eq] at hfound habove
      have hsmall : ((c.toNat : Int) + distance).toNat ≠ '.'.toNat := by omega
      simp only [ofNat_ne_dot hsmall, hc]
    · rfl

/-- In small letters, a text starts with a dot exactly if it does. -/
theorem head?_lowercase (s : String) :
    (lowercase s).toList.head? = some '.' ↔ s.toList.head? = some '.' := by
  rw [lowercase, String.toList_ofList]
  cases s.toList with
  | nil => rfl
  | cons c rest =>
      simp only [lowercaseFrom, List.head?_cons, Option.some.injEq]
      split
      · rename_i hdotted
        have hc : c ≠ '.' := by
          rintro rfl
          exact absurd hdotted (by decide)
        simp [hc]
      · split
        · rename_i hsigma
          have hc : c ≠ '.' := by
            rintro rfl
            exact absurd hsigma (by decide)
          split <;> simp [hc]
        · simp [smallLetter_eq_dot_iff]

/-- The characters are ASCII and in small letters. -/
def AreSmall (cs : List Char) : Prop := ∀ c ∈ cs, c.toNat < 0x80 ∧ c.toLower = c

instance (cs : List Char) : Decidable (AreSmall cs) := List.decidableBAll _ cs

theorem lowercaseFrom_of_areSmall {cs : List Char} (h : AreSmall cs) (before : List Char) :
    lowercaseFrom before cs = cs := by
  induction cs generalizing before with
  | nil => rfl
  | cons c cs ih =>
      obtain ⟨hascii, hsmall⟩ := h c (by simp)
      have hdotted : (c.toNat == 0x130) = false := by
        rw [beq_eq_false_iff_ne]
        omega
      have hsigma : (c.toNat == 0x3A3) = false := by
        rw [beq_eq_false_iff_ne]
        omega
      simp only [lowercaseFrom, hdotted, hsigma, Bool.false_eq_true, if_false]
      rw [ih fun d hd => h d (by simp [hd]), smallLetter, if_pos hascii, hsmall]
      rfl

theorem suffix_lowercaseFrom {ending : List Char} (h : AreSmall ending) (before cs : List Char) :
    ending <:+ lowercaseFrom before (cs ++ ending) := by
  induction cs generalizing before with
  | nil => exact ⟨[], (lowercaseFrom_of_areSmall h before).symm⟩
  | cons c cs ih => exact (ih (c :: before)).trans (List.suffix_append ..)

/-- An ending in small letters is kept. -/
theorem suffix_lowercase {ending : String} (h : AreSmall ending.toList) (s : String) :
    ending.toList <:+ (lowercase (s ++ ending)).toList := by
  rw [lowercase, String.toList_ofList, String.toList_append]
  exact suffix_lowercaseFrom h [] s.toList

end Text

/-- A character that is written in more bytes than one is no dot. -/
theorem ne_dot_of_encodeChar {c : Char} {b0 b1 : UInt8} {rest : Bytes}
    (h : String.utf8EncodeChar c = b0 :: b1 :: rest) : c ≠ '.' := by
  rintro rfl
  have hdot : String.utf8EncodeChar '.' = [46] := by decide
  rw [hdot] at h
  cases h

/-- Bytes that start with a dot are read as a text that does, and no others are. -/
theorem head?_utf8Units (bytes : Bytes) :
    (utf8Units bytes).head? = some (some '.') ↔ bytes.head? = some 46 := by
  have hlead : ∀ {b0 : UInt8}, ¬b0 < 0x80 → b0 ≠ 46 := by
    rintro b0 hlarge rfl
    exact hlarge (by decide)
  fun_cases utf8Units bytes with
  | case1 => simp
  | case2 b0 rest hone =>
      have hb0 := encodeChar_one (UInt8.lt_iff_toNat_lt.1 hone)
      simp only [List.head?_cons, Option.some.injEq]
      constructor
      · intro hdot
        rw [hdot] at hb0
        exact (List.cons.inj hb0).1.symm
      · rintro rfl
        rfl
  | case3 b0 hone hlead2 b1 rest h1 =>
      simp only [Bool.and_eq_true, decide_eq_true_eq, UInt8.le_iff_toNat_le] at hlead2
      simp [hlead hone, ne_dot_of_encodeChar (encodeChar_two hlead2.1 hlead2.2 h1)]
  | case6 b0 hone _ hlead3 b1 h1 b2 rest h2 =>
      simp only [Bool.and_eq_true, decide_eq_true_eq, UInt8.le_iff_toNat_le] at hlead3
      simp [hlead hone, ne_dot_of_encodeChar (encodeChar_three hlead3.1 hlead3.2 h1 h2)]
  | case11 b0 hone _ _ hlead4 b1 h1 b2 h2 b3 rest h3 =>
      simp only [Bool.and_eq_true, decide_eq_true_eq, UInt8.le_iff_toNat_le] at hlead4
      simp [hlead hone, ne_dot_of_encodeChar (encodeChar_four hlead4.1 hlead4.2 h1 h2 h3)]
  -- in all other cases the bytes start with an ill-formed part
  | _ => simp_all

theorem head?_lossyText (bytes : Bytes) :
    (lossyText bytes).toList.head? = some '.' ↔ bytes.head? = some 46 := by
  rw [lossyText, String.toList_ofList, List.head?_map, ← head?_utf8Units]
  cases (utf8Units bytes).head? with
  | none => simp
  | some unit =>
      cases unit with
      | none => decide
      | some c => simp

end PluginHost

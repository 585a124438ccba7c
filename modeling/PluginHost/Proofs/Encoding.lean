import Mathlib.Tactic.SplitIfs
import PluginHost.Serve

/-!
# Text in UTF-8 and lines of bytes

What `utf8` writes, `text?` reads back (`text?_utf8`).  The four lemmas `utf8Units_one` to
`utf8Units_four` say what the leading bytes of a well-formed character are cut into, by the length
of the character; `utf8Units_encodeChar_append` puts them together.

The second group is the other direction: bytes that can be read are those of the text that is read
(`utf8OfChars_of_chars?`).  Again there is a lemma for each length, from `encodeChar_one` to
`encodeChar_four`.

The third group is about lines.  A newline byte only ever comes from a newline character
(`newline_mem_utf8OfChars`), so a text without newlines, written with one behind it, is one line of
whatever stream it stands in (`linesOf_line_append`).  A stream is cut into its first line and what
stands behind it (`linesOf_cases`).
-/

namespace PluginHost

/-! ## One character -/

theorem utf8Units_one {b : UInt8} (h : b.toNat < 0x80) (rest : Bytes) :
    utf8Units (b :: rest) = some (Char.ofNat b.toNat) :: utf8Units rest := by
  have hb : b < 0x80 := UInt8.lt_iff_toNat_lt.2 h
  rw [utf8Units.eq_def]
  simp only [if_pos hb]

theorem utf8Units_two {b0 b1 : UInt8} (hlow : 0xC2 ≤ b0.toNat) (hhigh : b0.toNat ≤ 0xDF)
    (h1 : isContinuation 0x80 0xBF b1 = true) (rest : Bytes) :
    utf8Units (b0 :: b1 :: rest) =
      some (Char.ofNat (b0.toNat % 32 * 64 + continuationBits b1)) :: utf8Units rest := by
  have hone : ¬b0 < 0x80 := by
    rw [UInt8.lt_iff_toNat_lt]; simp; omega
  have htwo : (0xC2 ≤ b0 && b0 ≤ 0xDF) = true := by
    simp only [Bool.and_eq_true, decide_eq_true_eq, UInt8.le_iff_toNat_le]
    exact ⟨hlow, hhigh⟩
  rw [utf8Units.eq_def]
  simp only [if_neg hone, if_pos htwo, h1, if_true]

theorem utf8Units_three {b0 b1 b2 : UInt8} (hlow : 0xE0 ≤ b0.toNat) (hhigh : b0.toNat ≤ 0xEF)
    (h1 : isContinuation (secondOfThree b0).1 (secondOfThree b0).2 b1 = true)
    (h2 : isContinuation 0x80 0xBF b2 = true) (rest : Bytes) :
    utf8Units (b0 :: b1 :: b2 :: rest) =
      some (Char.ofNat (b0.toNat % 16 * 4096 + continuationBits b1 * 64 + continuationBits b2))
        :: utf8Units rest := by
  have hone : ¬b0 < 0x80 := by
    rw [UInt8.lt_iff_toNat_lt]; simp; omega
  have htwo : ¬(0xC2 ≤ b0 && b0 ≤ 0xDF) = true := by
    simp only [Bool.and_eq_true, decide_eq_true_eq, UInt8.le_iff_toNat_le]
    simp; omega
  have hthree : (0xE0 ≤ b0 && b0 ≤ 0xEF) = true := by
    simp only [Bool.and_eq_true, decide_eq_true_eq, UInt8.le_iff_toNat_le]
    exact ⟨hlow, hhigh⟩
  rw [utf8Units.eq_def]
  simp only [if_neg hone, if_neg htwo, if_pos hthree, h1, h2, if_true]

theorem utf8Units_four {b0 b1 b2 b3 : UInt8} (hlow : 0xF0 ≤ b0.toNat) (hhigh : b0.toNat ≤ 0xF4)
    (h1 : isContinuation (secondOfFour b0).1 (secondOfFour b0).2 b1 = true)
    (h2 : isContinuation 0x80 0xBF b2 = true) (h3 : isContinuation 0x80 0xBF b3 = true)
    (rest : Bytes) :
    utf8Units (b0 :: b1 :: b2 :: b3 :: rest) =
      some (Char.ofNat (b0.toNat % 8 * 262144 + continuationBits b1 * 4096
        + continuationBits b2 * 64 + continuationBits b3)) :: utf8Units rest := by
  have hone : ¬b0 < 0x80 := by
    rw [UInt8.lt_iff_toNat_lt]; simp; omega
  have htwo : ¬(0xC2 ≤ b0 && b0 ≤ 0xDF) = true := by
    simp only [Bool.and_eq_true, decide_eq_true_eq, UInt8.le_iff_toNat_le]
    simp; omega
  have hthree : ¬(0xE0 ≤ b0 && b0 ≤ 0xEF) = true := by
    simp only [Bool.and_eq_true, decide_eq_true_eq, UInt8.le_iff_toNat_le]
    simp; omega
  have hfour : (0xF0 ≤ b0 && b0 ≤ 0xF4) = true := by
    simp only [Bool.and_eq_true, decide_eq_true_eq, UInt8.le_iff_toNat_le]
    exact ⟨hlow, hhigh⟩
  rw [utf8Units.eq_def]
  simp only [if_neg hone, if_neg htwo, if_neg hthree, if_pos hfour, h1, h2, h3, if_true]

theorem isContinuation_ofNat {low high n : Nat} (hlow : low ≤ n) (hhigh : n ≤ high)
    (hbyte : n < 256) : isContinuation low high (UInt8.ofNat n) = true := by
  simp [isContinuation, Nat.mod_eq_of_lt hbyte, hlow, hhigh]

theorem continuationBits_ofNat {n : Nat} (h : n < 64) :
    continuationBits (UInt8.ofNat (n + 0x80)) = n := by
  simp only [continuationBits, UInt8.toNat_ofNat']
  omega

/-- A character in UTF-8, in front of whatever follows, is read as that character. -/
theorem utf8Units_encodeChar_append (c : Char) (rest : Bytes) :
    utf8Units (String.utf8EncodeChar c ++ rest) = some c :: utf8Units rest := by
  have hchar : Char.ofNat c.val.toNat = c := Char.ofNat_toNat c
  have hvalid : c.val.toNat < 0xD800 ∨ 0xDFFF < c.val.toNat ∧ c.val.toNat < 0x110000 := c.valid
  simp only [String.utf8EncodeChar]
  generalize c.val.toNat = v at hchar hvalid ⊢
  split
  · rename_i h
    rw [List.cons_append, List.nil_append, utf8Units_one (by simp; omega)]
    simp only [UInt8.toNat_ofNat']
    rw [Nat.mod_eq_of_lt (by omega), hchar]
  · split
    · rw [List.cons_append, List.cons_append, List.nil_append,
        utf8Units_two (by simp only [UInt8.toNat_ofNat']; omega)
          (by simp only [UInt8.toNat_ofNat']; omega)
          (isContinuation_ofNat (by omega) (by omega) (by omega)),
        continuationBits_ofNat (by omega), UInt8.toNat_ofNat']
      rw [show (v / 64 % 0x20 + 0xc0) % 2 ^ 8 % 32 * 64 + v % 0x40 = v by omega, hchar]
    · split
      · have hsecond : isContinuation (secondOfThree (UInt8.ofNat (v / 4096 % 0x10 + 0xe0))).1
            (secondOfThree (UInt8.ofNat (v / 4096 % 0x10 + 0xe0))).2
            (UInt8.ofNat (v / 64 % 0x40 + 0x80)) = true := by
          simp only [secondOfThree, beq_iff_eq, ← UInt8.toNat_inj, UInt8.toNat_ofNat']
          split
          · exact isContinuation_ofNat (by simp at *; omega) (by omega) (by omega)
          · split
            · exact isContinuation_ofNat (by omega) (by simp at *; omega) (by omega)
            · exact isContinuation_ofNat (by omega) (by omega) (by omega)
        rw [List.cons_append, List.cons_append, List.cons_append, List.nil_append,
          utf8Units_three (by simp only [UInt8.toNat_ofNat']; omega)
            (by simp only [UInt8.toNat_ofNat']; omega) hsecond
            (isContinuation_ofNat (by omega) (by omega) (by omega)),
          continuationBits_ofNat (by omega), continuationBits_ofNat (by omega),
          UInt8.toNat_ofNat']
        rw [show (v / 4096 % 0x10 + 0xe0) % 2 ^ 8 % 16 * 4096 + v / 64 % 0x40 * 64 + v % 0x40 = v
          by omega, hchar]
      · have hsecond : isContinuation (secondOfFour (UInt8.ofNat (v / 262144 % 0x08 + 0xf0))).1
            (secondOfFour (UInt8.ofNat (v / 262144 % 0x08 + 0xf0))).2
            (UInt8.ofNat (v / 4096 % 0x40 + 0x80)) = true := by
          simp only [secondOfFour, beq_iff_eq, ← UInt8.toNat_inj, UInt8.toNat_ofNat']
          split
          · exact isContinuation_ofNat (by simp at *; omega) (by omega) (by omega)
          · split
            · exact isContinuation_ofNat (by omega) (by simp at *; omega) (by omega)
            · exact isContinuation_ofNat (by omega) (by omega) (by omega)
        rw [List.cons_append, List.cons_append, List.cons_append, List.cons_append,
          List.nil_append,
          utf8Units_four (by simp only [UInt8.toNat_ofNat']; omega)
            (by simp only [UInt8.toNat_ofNat']; omega) hsecond
            (isContinuation_ofNat (by omega) (by omega) (by omega))
            (isContinuation_ofNat (by omega) (by omega) (by omega)),
          continuationBits_ofNat (by omega), continuationBits_ofNat (by omega),
          continuationBits_ofNat (by omega), UInt8.toNat_ofNat']
        rw [show (v / 262144 % 0x08 + 0xf0) % 2 ^ 8 % 8 * 262144 + v / 4096 % 0x40 * 4096
          + v / 64 % 0x40 * 64 + v % 0x40 = v by omega, hchar]

/-! ## Whole texts -/

theorem utf8Units_utf8OfChars (cs : List Char) : utf8Units (utf8OfChars cs) = cs.map some := by
  induction cs with
  | nil => rfl
  | cons c cs ih =>
      simp only [utf8OfChars, List.flatMap_cons] at ih ⊢
      rw [utf8Units_encodeChar_append, ih, List.map_cons]

theorem allPresent_map_some {α : Type} (as : List α) : allPresent (as.map some) = some as := by
  induction as with
  | nil => rfl
  | cons a as ih => simp [allPresent, ih]

theorem chars?_utf8OfChars (cs : List Char) : chars? (utf8OfChars cs) = some cs := by
  rw [chars?, utf8Units_utf8OfChars, allPresent_map_some]

/-- Reading the bytes of a text in UTF-8 gives the text back. -/
theorem text?_utf8 (s : String) : text? (utf8 s) = some s := by
  simp [text?, utf8, chars?_utf8OfChars]

theorem lossyText_utf8 (s : String) : lossyText (utf8 s) = s := by
  rw [lossyText, utf8, utf8Units_utf8OfChars, List.map_map]
  exact (congrArg String.ofList (List.map_id s.toList)).trans String.ofList_toList

theorem utf8_append (s t : String) : utf8 (s ++ t) = utf8 s ++ utf8 t := by
  simp [utf8, utf8OfChars]

/-! ## Nothing else is read -/

theorem val_ofNat {n : Nat} (h : n < 0xD800 ∨ 0xDFFF < n ∧ n < 0x110000) :
    (Char.ofNat n).val.toNat = n := by
  have hvalid : n.isValidChar := h
  rw [Char.ofNat, dif_pos hvalid]
  exact UInt32.toNat_ofNatLT

theorem isContinuation_iff {low high : Nat} {b : UInt8} :
    isContinuation low high b = true ↔ low ≤ b.toNat ∧ b.toNat ≤ high := by
  simp [isContinuation]

/-- The character of one byte is written as that byte. -/
theorem encodeChar_one {b : UInt8} (h : b.toNat < 0x80) :
    String.utf8EncodeChar (Char.ofNat b.toNat) = [b] := by
  simp only [String.utf8EncodeChar, val_ofNat (n := b.toNat) (.inl (by omega))]
  rw [if_pos (by omega)]
  simp

theorem encodeChar_two {b0 b1 : UInt8} (hlow : 0xC2 ≤ b0.toNat) (hhigh : b0.toNat ≤ 0xDF)
    (h1 : isContinuation 0x80 0xBF b1 = true) :
    String.utf8EncodeChar (Char.ofNat (b0.toNat % 32 * 64 + continuationBits b1)) = [b0, b1] := by
  obtain ⟨h1low, h1high⟩ := isContinuation_iff.1 h1
  unfold continuationBits
  generalize hv : b0.toNat % 32 * 64 + b1.toNat % 64 = v
  simp only [String.utf8EncodeChar, val_ofNat (n := v) (.inl (by omega))]
  rw [if_neg (by omega), if_pos (by omega)]
  simp only [List.cons.injEq, and_true, ← UInt8.toNat_inj, UInt8.toNat_ofNat']
  omega

/-- The second byte behind a leading byte of three makes the character neither too small nor a
surrogate. -/
theorem secondOfThree_bounds {b0 b1 : UInt8}
    (h1 : isContinuation (secondOfThree b0).1 (secondOfThree b0).2 b1 = true) :
    0x80 ≤ b1.toNat ∧ b1.toNat ≤ 0xBF ∧ (b0.toNat = 0xE0 → 0xA0 ≤ b1.toNat) ∧
      (b0.toNat = 0xED → b1.toNat ≤ 0x9F) := by
  rw [isContinuation_iff] at h1
  simp only [secondOfThree, beq_iff_eq, ← UInt8.toNat_inj] at h1
  split_ifs at h1 <;> simp_all <;> omega

theorem encodeChar_three {b0 b1 b2 : UInt8} (hlow : 0xE0 ≤ b0.toNat) (hhigh : b0.toNat ≤ 0xEF)
    (h1 : isContinuation (secondOfThree b0).1 (secondOfThree b0).2 b1 = true)
    (h2 : isContinuation 0x80 0xBF b2 = true) :
    String.utf8EncodeChar (Char.ofNat (b0.toNat % 16 * 4096 + continuationBits b1 * 64
      + continuationBits b2)) = [b0, b1, b2] := by
  obtain ⟨h1low, h1high, hshort, hsurrogate⟩ := secondOfThree_bounds h1
  obtain ⟨h2low, h2high⟩ := isContinuation_iff.1 h2
  unfold continuationBits
  generalize hv : b0.toNat % 16 * 4096 + b1.toNat % 64 * 64 + b2.toNat % 64 = v
  simp only [String.utf8EncodeChar, val_ofNat (n := v) (by omega)]
  rw [if_neg (by omega), if_neg (by omega), if_pos (by omega)]
  simp only [List.cons.injEq, and_true, ← UInt8.toNat_inj, UInt8.toNat_ofNat']
  omega

theorem secondOfFour_bounds {b0 b1 : UInt8}
    (h1 : isContinuation (secondOfFour b0).1 (secondOfFour b0).2 b1 = true) :
    0x80 ≤ b1.toNat ∧ b1.toNat ≤ 0xBF ∧ (b0.toNat = 0xF0 → 0x90 ≤ b1.toNat) ∧
      (b0.toNat = 0xF4 → b1.toNat ≤ 0x8F) := by
  rw [isContinuation_iff] at h1
  simp only [secondOfFour, beq_iff_eq, ← UInt8.toNat_inj] at h1
  split_ifs at h1 <;> simp_all <;> omega

theorem encodeChar_four {b0 b1 b2 b3 : UInt8} (hlow : 0xF0 ≤ b0.toNat) (hhigh : b0.toNat ≤ 0xF4)
    (h1 : isContinuation (secondOfFour b0).1 (secondOfFour b0).2 b1 = true)
    (h2 : isContinuation 0x80 0xBF b2 = true) (h3 : isContinuation 0x80 0xBF b3 = true) :
    String.utf8EncodeChar (Char.ofNat (b0.toNat % 8 * 262144 + continuationBits b1 * 4096
      + continuationBits b2 * 64 + continuationBits b3)) = [b0, b1, b2, b3] := by
  obtain ⟨h1low, h1high, hshort, hlarge⟩ := secondOfFour_bounds h1
  obtain ⟨h2low, h2high⟩ := isContinuation_iff.1 h2
  obtain ⟨h3low, h3high⟩ := isContinuation_iff.1 h3
  unfold continuationBits
  generalize hv : b0.toNat % 8 * 262144 + b1.toNat % 64 * 4096 + b2.toNat % 64 * 64
    + b3.toNat % 64 = v
  simp only [String.utf8EncodeChar, val_ofNat (n := v) (by omega)]
  rw [if_neg (by omega), if_neg (by omega), if_neg (by omega)]
  simp only [List.cons.injEq, and_true, ← UInt8.toNat_inj, UInt8.toNat_ofNat']
  omega

theorem allPresent_cons_eq {α : Type} {a : Option α} {as : List (Option α)} {bs : List α}
    (h : allPresent (a :: as) = some bs) :
    ∃ b rest, a = some b ∧ allPresent as = some rest ∧ bs = b :: rest := by
  cases a with
  | none => cases h
  | some b =>
      obtain ⟨rest, hrest, rfl⟩ := Option.map_eq_some_iff.1 h
      exact ⟨b, rest, rfl, hrest, rfl⟩

theorem utf8OfChars_cons (c : Char) (cs : List Char) :
    utf8OfChars (c :: cs) = String.utf8EncodeChar c ++ utf8OfChars cs :=
  List.flatMap_cons

/-- Bytes that can be read are those of the text that is read. -/
theorem utf8OfChars_of_chars? {bytes : Bytes} {cs : List Char} (h : chars? bytes = some cs) :
    utf8OfChars cs = bytes := by
  unfold chars? at h
  fun_induction utf8Units bytes generalizing cs with
  | case1 =>
      cases h
      rfl
  | case2 b0 rest hone ih =>
      obtain ⟨c, cs, hc, hrest, rfl⟩ := allPresent_cons_eq h
      cases hc
      rw [utf8OfChars_cons, ih hrest, encodeChar_one (UInt8.lt_iff_toNat_lt.1 hone)]
      rfl
  | case3 b0 _ hlead b1 rest h1 ih =>
      simp only [Bool.and_eq_true, decide_eq_true_eq, UInt8.le_iff_toNat_le] at hlead
      obtain ⟨c, cs, hc, hrest, rfl⟩ := allPresent_cons_eq h
      cases hc
      rw [utf8OfChars_cons, ih hrest, encodeChar_two hlead.1 hlead.2 h1]
      rfl
  | case6 b0 _ _ hlead b1 h1 b2 rest h2 ih =>
      simp only [Bool.and_eq_true, decide_eq_true_eq, UInt8.le_iff_toNat_le] at hlead
      obtain ⟨c, cs, hc, hrest, rfl⟩ := allPresent_cons_eq h
      cases hc
      rw [utf8OfChars_cons, ih hrest, encodeChar_three hlead.1 hlead.2 h1 h2]
      rfl
  | case11 b0 _ _ _ hlead b1 h1 b2 h2 b3 rest h3 ih =>
      simp only [Bool.and_eq_true, decide_eq_true_eq, UInt8.le_iff_toNat_le] at hlead
      obtain ⟨c, cs, hc, hrest, rfl⟩ := allPresent_cons_eq h
      cases hc
      rw [utf8OfChars_cons, ih hrest, encodeChar_four hlead.1 hlead.2 h1 h2 h3]
      rfl
  -- in all other cases the bytes are cut off, so nothing was read
  | _ => cases h

/-- The bytes of a text are the only ones that are read as that text. -/
theorem text?_eq_some_iff {bytes : Bytes} {s : String} :
    text? bytes = some s ↔ bytes = utf8 s := by
  constructor
  · intro h
    obtain ⟨cs, hcs, rfl⟩ := Option.map_eq_some_iff.1 h
    rw [utf8, String.toList_ofList, utf8OfChars_of_chars? hcs]
  · rintro rfl
    exact text?_utf8 s

/-! ## Lines -/

/-- A byte of one character alone is part of no other character. -/
theorem toNat_of_mem_utf8EncodeChar {b : UInt8} (hb : b.toNat < 128) {c : Char}
    (h : b ∈ String.utf8EncodeChar c) : c.toNat = b.toNat := by
  have hvalid : c.val.toNat < 0xD800 ∨ 0xDFFF < c.val.toNat ∧ c.val.toNat < 0x110000 := c.valid
  show c.val.toNat = b.toNat
  simp only [String.utf8EncodeChar] at h
  generalize c.val.toNat = v at hvalid h
  split at h
  · simp only [List.mem_singleton, ← UInt8.toNat_inj, UInt8.toNat_ofNat'] at h
    omega
  · split at h
    · simp only [List.mem_cons, List.not_mem_nil, or_false, ← UInt8.toNat_inj,
        UInt8.toNat_ofNat'] at h
      omega
    · split at h
      · simp only [List.mem_cons, List.not_mem_nil, or_false, ← UInt8.toNat_inj,
          UInt8.toNat_ofNat'] at h
        omega
      · simp only [List.mem_cons, List.not_mem_nil, or_false, ← UInt8.toNat_inj,
          UInt8.toNat_ofNat'] at h
        omega

/-- A byte of one character alone stands where that character does. -/
theorem mem_of_mem_utf8OfChars {b : UInt8} (hb : b.toNat < 128) {cs : List Char}
    (h : b ∈ utf8OfChars cs) : Char.ofNat b.toNat ∈ cs := by
  simp only [utf8OfChars, List.mem_flatMap] at h
  obtain ⟨c, hc, hmem⟩ := h
  rw [← toNat_of_mem_utf8EncodeChar hb hmem, Char.ofNat_toNat]
  exact hc

theorem newline_mem_utf8OfChars {cs : List Char} (h : (10 : UInt8) ∈ utf8OfChars cs) :
    '\n' ∈ cs :=
  mem_of_mem_utf8OfChars (by decide) h

/-- The bytes of a text with a newline behind it. -/
theorem utf8_line {s : String} (h : '\n' ∉ s.toList) :
    utf8 (s ++ "\n") = utf8 s ++ [10] ∧ (10 : UInt8) ∉ utf8 s := by
  have hnewline : utf8 "\n" = [10] := by decide
  rw [utf8_append, hnewline]
  exact ⟨rfl, fun hmem => h (newline_mem_utf8OfChars hmem)⟩

/-- A line in front of a stream is cut off as its first line. -/
theorem linesOf_line_append {line : Bytes} (h : (10 : UInt8) ∉ line) (rest : Bytes) :
    linesOf (line ++ 10 :: rest) = (line ++ [10]) :: linesOf rest := by
  induction line with
  | nil => simp [linesOf]
  | cons b line ih =>
      simp only [List.mem_cons, not_or] at h
      rw [List.cons_append, linesOf, if_neg (by simpa using Ne.symm h.1), ih h.2]
      rfl

/-- The bytes of a text without newlines, with one behind it, are one line. -/
theorem linesOf_utf8_append {s : String} (h : '\n' ∉ s.toList) (rest : Bytes) :
    linesOf (utf8 (s ++ "\n") ++ rest) = utf8 (s ++ "\n") :: linesOf rest := by
  obtain ⟨hline, hnone⟩ := utf8_line h
  rw [hline, List.append_assoc, List.cons_append, List.nil_append, linesOf_line_append hnone]

theorem linesOf_of_notMem {line : Bytes} (hne : line ≠ []) (h : (10 : UInt8) ∉ line) :
    linesOf line = [line] := by
  induction line with
  | nil => exact absurd rfl hne
  | cons b line ih =>
      simp only [List.mem_cons, not_or] at h
      rw [linesOf, if_neg (by simpa using Ne.symm h.1)]
      cases line with
      | nil => rfl
      | cons b' line => rw [ih (by simp) h.2]

/-- A stream is empty, or a line without its newline, or a line with its newline in front of more. -/
theorem linesOf_cases (input : Bytes) :
    input = [] ∨ (linesOf input = [input] ∧ input.getLast? ≠ some 10) ∨
      ∃ line rest, (10 : UInt8) ∉ line ∧ input = line ++ 10 :: rest ∧
        linesOf input = (line ++ [10]) :: linesOf rest := by
  by_cases hnil : input = []
  · exact .inl hnil
  · by_cases hnewline : (10 : UInt8) ∈ input
    · obtain ⟨line, rest, rfl, hline⟩ := List.eq_append_cons_of_mem hnewline
      exact .inr (.inr ⟨line, rest, hline, rfl, linesOf_line_append hline rest⟩)
    · refine .inr (.inl ⟨linesOf_of_notMem hnil hnewline, fun hlast => ?_⟩)
      exact hnewline (List.mem_of_getLast? hlast)

/-- The lines behind the first one are those of what stands behind it. -/
theorem linesOf_tail (input : Bytes) :
    linesOf (linesOf input).tail.flatten = (linesOf input).tail := by
  rcases linesOf_cases input with rfl | ⟨hone, -⟩ | ⟨line, rest, -, -, hlines⟩
  · rfl
  · rw [hone]
    rfl
  · rw [hlines, List.tail_cons, linesOf_flatten]

/-- More bytes behind a stream leave a first line with its newline as it is. -/
theorem linesOf_append_of_first {input line : Bytes} (hfirst : (linesOf input).head? = some line)
    (hline : line.getLast? = some 10) (more : Bytes) :
    linesOf (input ++ more) = line :: linesOf ((linesOf input).tail.flatten ++ more) := by
  rcases linesOf_cases input with rfl | ⟨hone, hlast⟩ | ⟨front, rest, hfront, rfl, hlines⟩
  · cases hfirst
  · rw [hone] at hfirst
    cases hfirst
    exact absurd hline hlast
  · rw [hlines] at hfirst ⊢
    cases hfirst
    rw [List.append_assoc, List.cons_append, linesOf_line_append hfront, List.tail_cons,
      linesOf_flatten]

end PluginHost

import Mathlib.Tactic.SplitIfs
import PluginHost.Toml.Writer

/-!
# The texts of a TOML document read back

A text is written in one of four forms, and each of them is read back whatever stands behind it, as
long as that does not go on with its quotation marks.

* Characters.  `escapedChar_cases` says that a character is either written as an escape, which is
  read as that character, or stands for itself.
* Quotation marks.  In a text over several lines up to two of them in a row stand for themselves.
  Three or more end it, so what counts is the run at the front of the rest: `closing?_none` and
  `closing?_some` are its two cases.
* Forms.  One lemma for each, and `text?_stringForm` for the form that is chosen.
-/

namespace PluginHost.Toml

/-! ## Characters -/

theorem inText_of_not_needsEscape {c : Char} (h : needsEscape c = false) (hnewline : c ≠ '\n') :
    inText c = true := by
  simp only [needsEscape, Bool.and_eq_false_iff, Bool.or_eq_false_iff, decide_eq_false_iff_not,
    beq_eq_false_iff_ne, bne_eq_false_iff_eq, ne_eq] at h
  simp only [inText, Bool.or_eq_true, Bool.and_eq_true, beq_iff_eq, decide_eq_true_eq, bne_iff_ne,
    ne_eq]
  rcases h with (⟨hlow, hdelete⟩ | htab) | hline
  · exact .inr ⟨by omega, hdelete⟩
  · exact .inl htab
  · exact absurd hline hnewline

theorem codePoint?_low {n : Nat} (h : n < 128) :
    codePoint? ['0', '0', capitalHexDigit (n / 16), capitalHexDigit (n % 16)] =
      some (Char.ofNat n) := by
  revert n
  decide +kernel

/-- The characters that stand for a character behind a backslash. -/
def IsEscape (c e : Char) (es : List Char) : Prop :=
  ∀ rest, escape? (e :: es ++ rest) = some (c, rest) ∧
    newline? (skipBlanks (e :: es ++ rest)) = none

/-- A character, quotation marks apart, is escaped or stands for itself.  One that stands for itself
is no backslash and may stand in the text. -/
theorem escapedChar_cases (lines : Bool) (c : Char) :
    (∃ e es, escapedChar lines c = '\\' :: e :: es ∧ IsEscape c e es) ∨
      (escapedChar lines c = [c] ∧ c ≠ '\\' ∧ (inText c = true ∨ c = '\n' ∧ lines = true)) := by
  unfold escapedChar
  split_ifs with hb ht hn hlines hf hr hback hlow
  · exact .inl ⟨'b', [], rfl, fun _ => ⟨by rw [beq_iff_eq.1 hb]; rfl, rfl⟩⟩
  · exact .inl ⟨'t', [], rfl, fun _ => ⟨by rw [beq_iff_eq.1 ht]; rfl, rfl⟩⟩
  · refine .inr ⟨by rw [beq_iff_eq.1 hn], ?_, .inr ⟨beq_iff_eq.1 hn, hlines⟩⟩
    rw [beq_iff_eq.1 hn]
    decide
  · exact .inl ⟨'n', [], rfl, fun _ => ⟨by rw [beq_iff_eq.1 hn]; rfl, rfl⟩⟩
  · exact .inl ⟨'f', [], rfl, fun _ => ⟨by rw [beq_iff_eq.1 hf]; rfl, rfl⟩⟩
  · exact .inl ⟨'r', [], rfl, fun _ => ⟨by rw [beq_iff_eq.1 hr]; rfl, rfl⟩⟩
  · exact .inl ⟨'\\', [], rfl, fun _ => ⟨by rw [beq_iff_eq.1 hback]; rfl, rfl⟩⟩
  · refine .inl ⟨'u', _, rfl, fun rest => ⟨?_, rfl⟩⟩
    have hsmall : c.toNat < 128 := by
      simp only [Bool.or_eq_true, decide_eq_true_eq, beq_iff_eq] at hlow
      omega
    have hcode := codePoint?_low hsmall
    rw [Char.ofNat_toNat] at hcode
    simp [escape?, hcode]
  · refine .inr ⟨rfl, by simpa using hback, .inl ?_⟩
    simp only [Bool.or_eq_true, decide_eq_true_eq, beq_iff_eq, not_or] at hlow
    simp only [inText, Bool.or_eq_true, Bool.and_eq_true, decide_eq_true_eq, bne_iff_ne]
    exact .inr ⟨by omega, hlow.2⟩

/-! ## Texts within a line -/

/-- A character that stands for itself between quotation marks. -/
theorem basic_plain {c : Char} (hquote : c ≠ '"') (hback : c ≠ '\\') (htext : inText c = true)
    (fuel : Nat) (cs : List Char) :
    basic (fuel + 1) (c :: cs) = (basic fuel cs).map fun p => (c :: p.1, p.2) := by
  rw [basic.eq_def]
  split
  · contradiction
  · contradiction
  · rename_i heq; exact absurd (List.cons.inj heq).1 hquote
  · rename_i heq; exact absurd (List.cons.inj heq).1 hback
  · rename_i hfuel heq
    obtain ⟨rfl, rfl⟩ := List.cons.inj heq
    obtain rfl := Nat.succ.inj hfuel
    rw [if_pos htext]
    cases basic fuel cs <;> rfl

/-- An escaped character. -/
theorem basic_escape {c e : Char} {es : List Char} (h : IsEscape c e es) (fuel : Nat)
    (cs : List Char) :
    basic (fuel + 1) ('\\' :: e :: es ++ cs) = (basic fuel cs).map fun p => (c :: p.1, p.2) := by
  have hescape := (h cs).1
  rw [List.cons_append] at hescape
  simp only [List.cons_append, basic, hescape, bind, Option.bind]
  cases basic fuel cs <;> rfl

theorem isEscape_quote : IsEscape '"' '"' [] := fun _ => ⟨rfl, rfl⟩

theorem basic_escapedChars (run : Nat) (cs rest : List Char) {fuel : Nat}
    (hfuel : cs.length < fuel) :
    basic fuel (escapedChars false run cs ++ '"' :: rest) = some (cs, rest) := by
  induction cs generalizing run fuel with
  | nil =>
      obtain ⟨fuel, rfl⟩ : ∃ n, fuel = n + 1 := ⟨fuel - 1, by simp at hfuel; omega⟩
      rfl
  | cons c cs ih =>
      obtain ⟨fuel, rfl⟩ : ∃ n, fuel = n + 1 := ⟨fuel - 1, by omega⟩
      have hmore := fun run => ih run (show cs.length < fuel by simpa using hfuel)
      rw [escapedChars]
      by_cases hquote : c = '"'
      · subst hquote
        rw [if_pos (by decide), Bool.false_and, if_neg Bool.false_ne_true]
        have hread := basic_escape isEscape_quote fuel (escapedChars false 0 cs ++ '"' :: rest)
        rw [hmore] at hread
        exact hread
      · rw [if_neg (by simpa using hquote), List.append_assoc]
        rcases escapedChar_cases false c with ⟨e, es, he, hescape⟩ | ⟨he, hback, htext⟩
        · rw [he, basic_escape hescape, hmore]
          rfl
        · have htext : inText c = true := htext.resolve_right (by simp)
          rw [he, List.singleton_append, basic_plain hquote hback htext, hmore]
          rfl

theorem length_le_escapedChars (lines : Bool) (run : Nat) (cs : List Char) :
    cs.length ≤ (escapedChars lines run cs).length := by
  induction cs generalizing run with
  | nil => simp
  | cons c cs ih =>
      have hone : 1 ≤ (escapedChar lines c).length := by
        rcases escapedChar_cases lines c with ⟨e, es, he, -⟩ | ⟨he, -⟩ <;> simp [he]
      have hmore := ih 0
      have hnext := ih (run + 1)
      rw [escapedChars]
      split_ifs <;> simp only [List.length_cons, List.length_append] <;> omega

theorem basicForm_append (cs rest : List Char) :
    basicForm cs ++ rest = '"' :: (escapedChars false 0 cs ++ '"' :: rest) := by
  simp [basicForm]

/-- What is behind the opening quote is read within its length. -/
theorem basic_written (cs rest : List Char) :
    basic ((escapedChars false 0 cs ++ '"' :: rest).length + 1)
      (escapedChars false 0 cs ++ '"' :: rest) = some (cs, rest) := by
  have hlength := length_le_escapedChars false 0 cs
  refine basic_escapedChars 0 cs rest ?_
  rw [List.length_append]
  omega

theorem literal_append {cs : List Char} (h : ∀ c ∈ cs, inText c = true ∧ c ≠ '\'')
    (rest : List Char) : literal (cs ++ '\'' :: rest) = some (cs, rest) := by
  induction cs with
  | nil => rfl
  | cons c cs ih =>
      obtain ⟨htext, hquote⟩ := h c (by simp)
      have hmore := ih fun d hd => h d (by simp [hd])
      rw [List.cons_append, literal.eq_def]
      split
      · contradiction
      · rename_i heq; exact absurd (List.cons.inj heq).1 hquote
      · rename_i heq
        obtain ⟨rfl, rfl⟩ := List.cons.inj heq
        rw [if_pos htext, hmore]
        rfl

/-! ## Runs of quotation marks -/

/-- The run of a character at the front, and what stands behind it. -/
theorem exists_run (quote : Char) (cs : List Char) :
    ∃ count tail, cs = List.replicate count quote ++ tail ∧ tail.head? ≠ some quote := by
  induction cs with
  | nil => exact ⟨0, [], rfl, by simp⟩
  | cons c cs ih =>
      by_cases hc : c = quote
      · obtain ⟨count, tail, rfl, htail⟩ := ih
        exact ⟨count + 1, tail, by rw [hc, List.replicate_succ, List.cons_append], htail⟩
      · exact ⟨0, c :: cs, rfl, by simpa using hc⟩

theorem takeWhile_run {quote : Char} {tail : List Char} (htail : tail.head? ≠ some quote)
    (count : Nat) :
    (List.replicate count quote ++ tail).takeWhile (· == quote) = List.replicate count quote := by
  induction count with
  | zero =>
      cases tail with
      | nil => rfl
      | cons c tail =>
          have hc : ¬(c == quote) = true := by simpa using htail
          exact List.takeWhile_cons_of_neg hc
  | succ count ih =>
      simp only [List.replicate_succ, List.cons_append, List.takeWhile_cons, beq_self_eq_true,
        if_true, ih]

/-- One or two quotation marks do not end a text over several lines. -/
theorem closing?_none {quote : Char} {tail : List Char} (htail : tail.head? ≠ some quote)
    {count : Nat} (hcount : count < 3) :
    closing? quote (List.replicate count quote ++ tail) = none := by
  simp only [closing?, takeWhile_run htail, List.length_replicate, if_pos hcount]

/-- Three quotation marks end it, and up to two in front of them belong to it. -/
theorem closing?_some {quote : Char} {tail : List Char} (htail : tail.head? ≠ some quote)
    {count : Nat} (hcount : count ≤ 2) :
    closing? quote (List.replicate count quote ++ quote :: quote :: quote :: tail) =
      some (List.replicate count quote, tail) := by
  have hall : List.replicate count quote ++ quote :: quote :: quote :: tail =
      List.replicate (count + 3) quote ++ tail := by
    rw [← List.replicate_append_replicate, List.append_assoc]
    rfl
  have hthree : ¬count + 3 < 3 := by omega
  have hdrop : (List.replicate (count + 3) quote ++ tail).drop (count + 3) = tail :=
    List.drop_left' (by rw [List.length_replicate])
  simp only [hall, closing?, takeWhile_run htail, List.length_replicate, if_neg hthree,
    Nat.add_sub_cancel, Nat.min_eq_left hcount, hdrop]

/-! ## Texts over several lines -/

/-- A text with quotation marks in front ends there or goes on behind them. -/
theorem basicLines_quote (fuel : Nat) (cs : List Char) :
    basicLines (fuel + 1) ('"' :: cs) =
      match closing? '"' ('"' :: cs) with
      | some p => some p
      | none => (basicLines fuel cs).map fun p => ('"' :: p.1, p.2) := by
  simp only [basicLines]
  cases closing? '"' ('"' :: cs) with
  | some p => rfl
  | none => cases basicLines fuel cs <;> rfl

theorem basicLines_plain {c : Char} (hquote : c ≠ '"') (hback : c ≠ '\\')
    (htext : inText c = true ∨ c = '\n') (fuel : Nat) (cs : List Char) :
    basicLines (fuel + 1) (c :: cs) = (basicLines fuel cs).map fun p => (c :: p.1, p.2) := by
  have hreturn : c ≠ '\r' := by
    rintro rfl
    rcases htext with htext | htext <;> exact absurd htext (by decide)
  have hmay : (c == '\n' || inText c) = true := by
    rcases htext with htext | htext <;> simp [htext]
  rw [basicLines.eq_def]
  split
  · contradiction
  · contradiction
  · rename_i heq; exact absurd (List.cons.inj heq).1 hquote
  · rename_i heq; exact absurd (List.cons.inj heq).1 hback
  · rename_i heq; exact absurd (List.cons.inj heq).1 hreturn
  · rename_i hfuel heq
    obtain ⟨rfl, rfl⟩ := List.cons.inj heq
    obtain rfl := Nat.succ.inj hfuel
    rw [if_pos hmay]
    cases basicLines fuel cs <;> rfl

theorem basicLines_escape {c e : Char} {es : List Char} (h : IsEscape c e es) (fuel : Nat)
    (cs : List Char) :
    basicLines (fuel + 1) ('\\' :: e :: es ++ cs) =
      (basicLines fuel cs).map fun p => (c :: p.1, p.2) := by
  obtain ⟨hescape, hline⟩ := h cs
  rw [List.cons_append] at hescape hline
  simp only [List.cons_append, basicLines, hescape, hline, bind, Option.bind]
  cases basicLines fuel cs <;> rfl

/-- What is written for a text starts with at most two quotation marks that stand for themselves,
less those that have just been written; and it goes on behind them, unless the text ends there. -/
theorem escapedChars_run (run : Nat) (cs : List Char) :
    ∃ count written, escapedChars true run cs = List.replicate count '"' ++ written ∧
      count ≤ 2 - run ∧ written.head? ≠ some '"' ∧
      (written = [] → cs = List.replicate count '"') := by
  induction cs generalizing run with
  | nil => exact ⟨0, [], rfl, by omega, by simp, fun _ => rfl⟩
  | cons c cs ih =>
      rw [escapedChars]
      by_cases hquote : c = '"'
      · subst hquote
        rw [if_pos (by decide), Bool.true_and]
        by_cases hrun : run < 2
        · obtain ⟨count, written, hwritten, hcount, hhead, hend⟩ := ih (run + 1)
          rw [if_pos (by simpa using hrun), hwritten]
          refine ⟨count + 1, written, rfl, by omega, hhead, fun hnil => ?_⟩
          rw [hend hnil, List.replicate_succ]
        · rw [if_neg (by simpa using hrun)]
          exact ⟨0, _, rfl, by omega, by simp, fun hnil => absurd hnil (by simp)⟩
      · rw [if_neg (by simpa using hquote)]
        rcases escapedChar_cases true c with ⟨e, es, he, -⟩ | ⟨he, -, -⟩
        · exact ⟨0, _, rfl, by omega, by simp [he], by simp [he]⟩
        · exact ⟨0, _, rfl, by omega, by simpa [he] using hquote, by simp [he]⟩

theorem basicLines_escapedChars (run : Nat) (cs : List Char) {rest : List Char}
    (hrest : rest.head? ≠ some '"') {fuel : Nat} (hfuel : cs.length < fuel) :
    basicLines fuel (escapedChars true run cs ++ '"' :: '"' :: '"' :: rest) = some (cs, rest) := by
  induction cs generalizing run fuel with
  | nil =>
      obtain ⟨fuel, rfl⟩ : ∃ n, fuel = n + 1 := ⟨fuel - 1, by simp at hfuel; omega⟩
      have hclose := closing?_some hrest (Nat.zero_le 2)
      rw [List.replicate_zero, List.nil_append] at hclose
      rw [escapedChars, List.nil_append, basicLines_quote, hclose]
  | cons c cs ih =>
      obtain ⟨fuel, rfl⟩ : ∃ n, fuel = n + 1 := ⟨fuel - 1, by omega⟩
      have hmore := fun run => ih run (show cs.length < fuel by simpa using hfuel)
      by_cases hquote : c = '"'
      · subst hquote
        by_cases hrun : run < 2
        · -- the run of quotation marks is that of the text, and of its end if nothing else is left
          obtain ⟨count, written, hwritten, hcount, hhead, hend⟩ := escapedChars_run run ('"' :: cs)
          have hsplit : escapedChars true run ('"' :: cs) =
              '"' :: escapedChars true (run + 1) cs := by
            rw [escapedChars, if_pos (by decide), Bool.true_and, if_pos (by simpa using hrun)]
          have hclose : closing? '"'
              (escapedChars true run ('"' :: cs) ++ '"' :: '"' :: '"' :: rest) =
              if written = [] then some ('"' :: cs, rest) else none := by
            rw [hwritten, List.append_assoc]
            by_cases hnil : written = []
            · rw [if_pos hnil, hend hnil, hnil, List.nil_append]
              exact closing?_some hrest (by omega)
            · rw [if_neg hnil]
              apply closing?_none _ (by omega)
              obtain ⟨d, ds, rfl⟩ := List.exists_cons_of_ne_nil hnil
              exact hhead
          rw [hsplit, List.cons_append] at hclose ⊢
          rw [basicLines_quote, hclose]
          split_ifs with hnil
          · rfl
          · rw [hmore]
            rfl
        · rw [escapedChars, if_pos (by decide), Bool.true_and, if_neg (by simpa using hrun)]
          have hread := basicLines_escape isEscape_quote fuel
            (escapedChars true 0 cs ++ '"' :: '"' :: '"' :: rest)
          rw [hmore] at hread
          exact hread
      · rw [escapedChars, if_neg (by simpa using hquote), List.append_assoc]
        rcases escapedChar_cases true c with ⟨e, es, he, hescape⟩ | ⟨he, hback, htext⟩
        · rw [he, basicLines_escape hescape, hmore]
          rfl
        · rw [he, List.singleton_append, basicLines_plain hquote hback (htext.imp_right And.left),
            hmore]
          rfl

/-! ## Literal texts over several lines -/

theorem longestRun_mono (c : Char) (cs : List Char) {run longer : Nat} (h : run ≤ longer) :
    longestRun c run cs ≤ longestRun c longer cs := by
  induction cs generalizing run longer with
  | nil => simp [longestRun]
  | cons d cs ih =>
      have hmore := ih (show run + 1 ≤ longer + 1 by omega)
      rw [longestRun, longestRun]
      split_ifs
      · omega
      · exact Nat.le_refl _

theorem longestRun_tail (c d : Char) (cs : List Char) :
    longestRun c 0 cs ≤ longestRun c 0 (d :: cs) := by
  have hmono := longestRun_mono c cs (Nat.zero_le (0 + 1))
  rw [longestRun]
  split_ifs <;> omega

theorem le_longestRun (c : Char) (run count : Nat) (tail : List Char) (h : 0 < count) :
    run + count ≤ longestRun c run (List.replicate count c ++ tail) := by
  induction count generalizing run with
  | zero => omega
  | succ count ih =>
      rw [List.replicate_succ, List.cons_append, longestRun, if_pos (beq_self_eq_true c)]
      cases count with
      | zero => omega
      | succ count =>
          have hmore := ih (run + 1) (by omega)
          omega

theorem literalLines_quote (cs : List Char) :
    literalLines ('\'' :: cs) =
      match closing? '\'' ('\'' :: cs) with
      | some p => some p
      | none => (literalLines cs).map fun p => ('\'' :: p.1, p.2) := by
  simp only [literalLines]
  cases closing? '\'' ('\'' :: cs) with
  | some p => rfl
  | none => cases literalLines cs <;> rfl

theorem literalLines_plain {c : Char} (hquote : c ≠ '\'') (htext : inText c = true ∨ c = '\n')
    (cs : List Char) :
    literalLines (c :: cs) = (literalLines cs).map fun p => (c :: p.1, p.2) := by
  have hreturn : c ≠ '\r' := by
    rintro rfl
    rcases htext with htext | htext <;> exact absurd htext (by decide)
  have hmay : (c == '\n' || inText c) = true := by
    rcases htext with htext | htext <;> simp [htext]
  rw [literalLines.eq_def]
  split
  · contradiction
  · rename_i heq; exact absurd (List.cons.inj heq).1 hquote
  · rename_i heq; exact absurd (List.cons.inj heq).1 hreturn
  · rename_i heq
    obtain ⟨rfl, rfl⟩ := List.cons.inj heq
    rw [if_pos hmay]
    cases literalLines cs <;> rfl

theorem literalLines_append {cs rest : List Char} (htext : ∀ c ∈ cs, inText c = true ∨ c = '\n')
    (hruns : longestRun '\'' 0 cs ≤ 2) (hrest : rest.head? ≠ some '\'') :
    literalLines (cs ++ '\'' :: '\'' :: '\'' :: rest) = some (cs, rest) := by
  induction cs with
  | nil =>
      have hclose := closing?_some hrest (Nat.zero_le 2)
      rw [List.replicate_zero, List.nil_append] at hclose
      rw [List.nil_append, literalLines_quote, hclose]
  | cons c cs ih =>
      have hmore := ih (fun d hd => htext d (by simp [hd]))
        (Nat.le_trans (longestRun_tail _ c cs) hruns)
      by_cases hquote : c = '\''
      · subst hquote
        obtain ⟨count, tail, hsplit, htail⟩ := exists_run '\'' ('\'' :: cs)
        have hpositive : 0 < count := by
          cases count with
          | zero =>
              rw [List.replicate_zero, List.nil_append] at hsplit
              rw [← hsplit] at htail
              exact absurd rfl htail
          | succ count => omega
        have hcount : count ≤ 2 := by
          have hle := le_longestRun '\'' 0 count tail hpositive
          rw [← hsplit] at hle
          omega
        have hclose : closing? '\'' ('\'' :: cs ++ '\'' :: '\'' :: '\'' :: rest) =
            if tail = [] then some ('\'' :: cs, rest) else none := by
          rw [hsplit, List.append_assoc]
          by_cases hnil : tail = []
          · rw [if_pos hnil, hnil, List.append_nil, List.nil_append]
            exact closing?_some hrest hcount
          · rw [if_neg hnil]
            apply closing?_none _ (by omega)
            obtain ⟨d, ds, rfl⟩ := List.exists_cons_of_ne_nil hnil
            exact htail
        rw [List.cons_append] at hclose ⊢
        rw [literalLines_quote, hclose]
        split_ifs with hnil
        · rfl
        · rw [hmore]
          rfl
      · rw [List.cons_append, literalLines_plain hquote (htext c (by simp)), hmore]
        rfl

/-! ## Forms -/

theorem skipNewline_of_head {cs : List Char} (hnewline : cs.head? ≠ some '\n')
    (hreturn : cs.head? ≠ some '\r') : skipNewline cs = cs := by
  have hnone : newline? cs = none := by
    rw [newline?.eq_def]
    split
    · exact absurd rfl hnewline
    · exact absurd rfl hreturn
    · rfl
  rw [skipNewline, hnone]
  rfl

theorem head?_escapedChars (cs : List Char) : (escapedChars false 0 cs).head? ≠ some '"' := by
  cases cs with
  | nil => simp [escapedChars]
  | cons c cs =>
      rw [escapedChars]
      by_cases hquote : c = '"'
      · rw [if_pos (by simpa using hquote), Bool.false_and, if_neg Bool.false_ne_true]
        simp
      · rw [if_neg (by simpa using hquote)]
        rcases escapedChar_cases false c with ⟨e, es, he, -⟩ | ⟨he, -, -⟩
        · simp [he]
        · simpa [he] using hquote

/-- What a text without line ends starts with over several lines is no end of a line either. -/
theorem head?_escapedChars_lines {cs rest : List Char} (h : '\n' ∉ cs)
    (hnewline : rest.head? ≠ some '\n') (hreturn : rest.head? ≠ some '\r') :
    (escapedChars true 0 cs ++ rest).head? ≠ some '\n' ∧
      (escapedChars true 0 cs ++ rest).head? ≠ some '\r' := by
  cases cs with
  | nil => exact ⟨hnewline, hreturn⟩
  | cons c cs =>
      rw [escapedChars]
      by_cases hquote : c = '"'
      · rw [if_pos (by simpa using hquote)]
        split_ifs <;> simp
      · rw [if_neg (by simpa using hquote)]
        rcases escapedChar_cases true c with ⟨e, es, he, -⟩ | ⟨he, -, htext | ⟨hline, -⟩⟩
        · simp [he]
        · have hline : c ≠ '\n' := by
            rintro rfl
            exact h (by simp)
          have hreturn : c ≠ '\r' := by
            rintro rfl
            exact absurd htext (by decide)
          simp [he, hline, hreturn]
        · rw [hline] at h
          exact absurd (by simp) h

/-- A line end in front is put there when the text has line ends, and is left out by the reader. -/
theorem skipNewline_leadingLine {cs written : List Char}
    (h : '\n' ∉ cs → written.head? ≠ some '\n' ∧ written.head? ≠ some '\r') :
    skipNewline (leadingLine cs ++ written) = written := by
  unfold leadingLine
  by_cases hlines : cs.contains '\n' = true
  · rw [if_pos hlines]
    rfl
  · rw [if_neg hlines, List.nil_append]
    have hnone := h (by simpa using hlines)
    exact skipNewline_of_head hnone.1 hnone.2

theorem text?_basicForm (cs : List Char) {rest : List Char} (hrest : rest.head? ≠ some '"') :
    text? (basicForm cs ++ rest) = some (String.ofList cs, rest) := by
  have hread := basic_written cs rest
  have hthree : ∀ tail, escapedChars false 0 cs ++ '"' :: rest ≠ '"' :: '"' :: tail := by
    intro tail heq
    cases hwritten : escapedChars false 0 cs with
    | nil =>
        rw [hwritten, List.nil_append] at heq
        rw [(List.cons.inj heq).2] at hrest
        exact hrest rfl
    | cons c written =>
        rw [hwritten, List.cons_append] at heq
        have hhead := head?_escapedChars cs
        rw [hwritten, (List.cons.inj heq).1] at hhead
        exact hhead rfl
  rw [basicForm_append, text?.eq_def]
  split
  · rename_i heq; exact absurd (List.cons.inj heq).2 (hthree _)
  · rename_i heq
    obtain ⟨-, rfl⟩ := List.cons.inj heq
    rw [hread]
    rfl
  · rename_i heq; exact absurd (List.cons.inj heq).1 (by decide)
  · rename_i heq; exact absurd (List.cons.inj heq).1 (by decide)
  · rename_i hno _ _; exact absurd rfl (hno _)

theorem text?_literalForm {cs rest : List Char} (h : ∀ c ∈ cs, inText c = true ∧ c ≠ '\'')
    (hrest : rest.head? ≠ some '\'') :
    text? (literalForm cs ++ rest) = some (String.ofList cs, rest) := by
  have hform : literalForm cs ++ rest = '\'' :: (cs ++ '\'' :: rest) := by
    simp [literalForm]
  have hthree : ∀ tail, cs ++ '\'' :: rest ≠ '\'' :: '\'' :: tail := by
    intro tail heq
    cases cs with
    | nil =>
        rw [(List.cons.inj heq).2] at hrest
        exact hrest rfl
    | cons c cs => exact (h c (by simp)).2 (List.cons.inj heq).1
  rw [hform, text?.eq_def]
  split
  · rename_i heq; exact absurd (List.cons.inj heq).1 (by decide)
  · rename_i heq; exact absurd (List.cons.inj heq).1 (by decide)
  · rename_i heq; exact absurd (List.cons.inj heq).2 (hthree _)
  · rename_i heq
    obtain ⟨-, rfl⟩ := List.cons.inj heq
    rw [literal_append h]
    rfl
  · rename_i hno; exact absurd rfl (hno _)

theorem text?_basicLinesForm (cs : List Char) {rest : List Char} (hrest : rest.head? ≠ some '"') :
    text? (basicLinesForm cs ++ rest) = some (String.ofList cs, rest) := by
  have hform : basicLinesForm cs ++ rest = '"' :: '"' :: '"' ::
      (leadingLine cs ++ (escapedChars true 0 cs ++ '"' :: '"' :: '"' :: rest)) := by
    simp [basicLinesForm]
  have hskip : skipNewline
      (leadingLine cs ++ (escapedChars true 0 cs ++ '"' :: '"' :: '"' :: rest)) =
      escapedChars true 0 cs ++ '"' :: '"' :: '"' :: rest :=
    skipNewline_leadingLine fun h => head?_escapedChars_lines h (by simp) (by simp)
  have hlength := length_le_escapedChars true 0 cs
  have hfuel : cs.length <
      (leadingLine cs ++ (escapedChars true 0 cs ++ '"' :: '"' :: '"' :: rest)).length + 1 := by
    simp only [List.length_append]
    omega
  have hread := basicLines_escapedChars 0 cs hrest hfuel
  rw [hform]
  simp only [text?, hskip, hread, bind, Option.bind]

theorem text?_literalLinesForm {cs rest : List Char} (htext : ∀ c ∈ cs, inText c = true ∨ c = '\n')
    (hruns : longestRun '\'' 0 cs ≤ 2) (hrest : rest.head? ≠ some '\'') :
    text? (literalLinesForm cs ++ rest) = some (String.ofList cs, rest) := by
  have hform : literalLinesForm cs ++ rest = '\'' :: '\'' :: '\'' ::
      (leadingLine cs ++ (cs ++ '\'' :: '\'' :: '\'' :: rest)) := by
    simp [literalLinesForm]
  have hskip : skipNewline (leadingLine cs ++ (cs ++ '\'' :: '\'' :: '\'' :: rest)) =
      cs ++ '\'' :: '\'' :: '\'' :: rest := by
    apply skipNewline_leadingLine
    intro h
    cases cs with
    | nil => simp
    | cons c cs =>
        have hline : c ≠ '\n' := by
          rintro rfl
          exact h (by simp)
        have hreturn : c ≠ '\r' := by
          rintro rfl
          rcases htext '\r' (by simp) with hc | hc <;> exact absurd hc (by decide)
        simp [hline, hreturn]
  rw [hform]
  simp only [text?, hskip, literalLines_append htext hruns hrest, bind, Option.bind]

theorem notMem_of_longestRun {c : Char} {cs : List Char} (h : longestRun c 0 cs = 0) : c ∉ cs := by
  induction cs with
  | nil => simp
  | cons d cs ih =>
      have htail := longestRun_tail c d cs
      rw [List.mem_cons, not_or]
      refine ⟨?_, ih (by omega)⟩
      rintro rfl
      rw [longestRun, if_pos (beq_self_eq_true c)] at h
      omega

/-- A text is read back in the form that is chosen for it. -/
theorem text?_stringForm (cs : List Char) {rest : List Char} (hquote : rest.head? ≠ some '"')
    (hapostrophe : rest.head? ≠ some '\'') :
    text? (stringForm cs ++ rest) = some (String.ofList cs, rest) := by
  have htext : cs.any needsEscape = false → ∀ c ∈ cs, inText c = true ∨ c = '\n' := by
    intro hcontrols c hc
    rw [List.any_eq_false] at hcontrols
    by_cases hline : c = '\n'
    · exact .inr hline
    · exact .inl (inText_of_not_needsEscape (by simpa using hcontrols c hc) hline)
  unfold stringForm
  dsimp only
  split_ifs with hbasic hliteral hbasicLines hliteralLines
  · exact text?_basicForm cs hquote
  · simp only [Bool.and_eq_true, Bool.not_eq_true', beq_iff_eq] at hliteral
    obtain ⟨⟨hcontrols, hruns⟩, hlines⟩ := hliteral
    refine text?_literalForm (fun c hc => ⟨?_, ?_⟩) hapostrophe
    · refine (htext hcontrols c hc).resolve_right ?_
      rintro rfl
      simp [hc] at hlines
    · rintro rfl
      exact notMem_of_longestRun hruns hc
  · exact text?_basicLinesForm cs hquote
  · simp only [Bool.and_eq_true, Bool.not_eq_true', decide_eq_true_eq] at hliteralLines
    exact text?_literalLinesForm (htext hliteralLines.1) hliteralLines.2 hapostrophe
  · exact text?_basicLinesForm cs hquote
  · exact text?_basicForm cs hquote

end PluginHost.Toml

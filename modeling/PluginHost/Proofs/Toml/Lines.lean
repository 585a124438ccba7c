import PluginHost.Proofs.Text.Numerals
import PluginHost.Proofs.Toml.Texts

/-!
# The lines of a TOML document read back

A document is written line by line: headers, settings and empty lines.  `ReadsAs doc cs final` says
that the lines `cs` lead from one state of reading to another, and `readsAs_line` puts a line in
front.

* Keys and headers.  A key is read back in its plainest form (`keyPart?_keyForm`), and the header
  of a table opens it (`readLines_headerLine`).
* Values.  `WritesValue` says that a value is read back in front of the end of its line;
  texts and whole numbers of 63 bits are (`writesValue_string`, `writesValue_nat`).
* Settings.  The settings of one table, with different keys, are put behind each other into that
  table (`readsAs_settings`, `readsAs_group`).  Where the table stands in the document is a
  parameter: the function that builds the root from the members of the table.
-/

namespace PluginHost.Toml

open Text

/-! ## Keys -/

theorem skipBlanks_of_head {cs : List Char} (h : ∀ c ∈ cs.head?, isBlank c = false) :
    skipBlanks cs = cs := by
  cases cs with
  | nil => rfl
  | cons c cs => exact List.dropWhile_cons_of_neg (by simp [h c rfl])

theorem not_isBlank_of_isBare {c : Char} (h : isBare c = true) : isBlank c = false := by
  rw [Bool.eq_false_iff]
  intro hblank
  simp only [isBlank, Bool.or_eq_true, beq_iff_eq] at hblank
  rcases hblank with rfl | rfl <;> exact absurd h (by decide)

/-- What a key starts with: a character of a bare key or a quotation mark. -/
theorem head?_keyForm (cs rest : List Char) :
    ∃ c tail, keyForm cs ++ rest = c :: tail ∧ (isBare c = true ∨ c = '"' ∨ c = '\'') := by
  unfold keyForm
  dsimp only
  split_ifs with hbare
  · simp only [Bool.and_eq_true, Bool.not_eq_true', List.isEmpty_eq_false_iff] at hbare
    obtain ⟨c, cs, rfl⟩ := List.exists_cons_of_ne_nil hbare.1
    exact ⟨c, cs ++ rest, rfl, .inl (by simpa using (List.all_eq_true.1 hbare.2) c (by simp))⟩
  · exact ⟨'"', _, rfl, .inr (.inl rfl)⟩
  · exact ⟨'\'', _, rfl, .inr (.inr rfl)⟩
  · exact ⟨'"', _, rfl, .inr (.inl rfl)⟩

theorem skipBlanks_keyForm (cs rest : List Char) :
    skipBlanks (keyForm cs ++ rest) = keyForm cs ++ rest := by
  apply skipBlanks_of_head
  obtain ⟨c, tail, hc, hhead⟩ := head?_keyForm cs rest
  rw [hc]
  rintro d ⟨⟩
  rcases hhead with hbare | rfl | rfl
  · exact not_isBlank_of_isBare hbare
  · rfl
  · rfl

theorem keyPart?_basicForm (cs rest : List Char) :
    keyPart? (basicForm cs ++ rest) = some (String.ofList cs, skipBlanks rest) := by
  have hread := basic_written cs rest
  rw [basicForm_append, keyPart?, skipBlanks_of_head (by simp [isBlank])]
  simp only [hread, bind, Option.bind]

theorem keyPart?_literalForm {cs : List Char} (h : ∀ c ∈ cs, inText c = true ∧ c ≠ '\'')
    (rest : List Char) :
    keyPart? (literalForm cs ++ rest) = some (String.ofList cs, skipBlanks rest) := by
  have hform : literalForm cs ++ rest = '\'' :: (cs ++ '\'' :: rest) := by
    simp [literalForm]
  rw [hform, keyPart?, skipBlanks_of_head (by simp [isBlank])]
  simp only [literal_append h, bind, Option.bind]

theorem keyPart?_bare {cs rest : List Char} (hne : cs ≠ []) (hbare : ∀ c ∈ cs, isBare c = true)
    (hrest : ∀ c ∈ rest.head?, isBare c = false) :
    keyPart? (cs ++ rest) = some (String.ofList cs, skipBlanks rest) := by
  have htake : (cs ++ rest).takeWhile isBare = cs := by
    rw [List.takeWhile_append_of_pos hbare]
    cases rest with
    | nil => simp
    | cons c rest => simp [hrest c rfl]
  have hdrop : (cs ++ rest).dropWhile isBare = rest := by
    rw [List.dropWhile_append_of_pos hbare]
    cases rest with
    | nil => rfl
    | cons c rest => simp [hrest c rfl]
  have hempty : cs.isEmpty = false := by simpa using hne
  obtain ⟨c, tail, rfl⟩ := List.exists_cons_of_ne_nil hne
  have hc : isBare c = true := hbare c (by simp)
  have hblanks : skipBlanks (c :: tail ++ rest) = c :: tail ++ rest := by
    apply skipBlanks_of_head
    rintro d ⟨⟩
    exact not_isBlank_of_isBare hc
  rw [keyPart?, hblanks]
  split
  · rename_i heq
    rw [(List.cons.inj heq).1] at hc
    exact absurd hc (by decide)
  · rename_i heq
    rw [(List.cons.inj heq).1] at hc
    exact absurd hc (by decide)
  · simp only [htake, hdrop, hempty, Bool.false_eq_true, if_false]

/-- A key is read back in the form that is chosen for it. -/
theorem keyPart?_keyForm (cs : List Char) {rest : List Char}
    (hrest : ∀ c ∈ rest.head?, isBare c = false) :
    keyPart? (keyForm cs ++ rest) = some (String.ofList cs, skipBlanks rest) := by
  unfold keyForm
  dsimp only
  split_ifs with hbare hbasic hliteral
  · simp only [Bool.and_eq_true, Bool.not_eq_true', List.isEmpty_eq_false_iff,
      List.all_eq_true] at hbare
    exact keyPart?_bare hbare.1 hbare.2 hrest
  · exact keyPart?_basicForm cs rest
  · simp only [Bool.and_eq_true, Bool.not_eq_true', List.any_eq_false, Bool.or_eq_true, not_or,
      beq_iff_eq, Bool.not_eq_true] at hliteral
    refine keyPart?_literalForm (fun c hc => ⟨?_, ?_⟩) rest
    · exact inText_of_not_needsEscape (hliteral.1 c hc).1 (hliteral.1 c hc).2
    · rintro rfl
      simp [hc] at hliteral
  · exact keyPart?_basicForm cs rest

/-! ## Values -/

/-- A value is read back in front of the end of its line. -/
structure WritesValue (form : List Char) (v : Value) : Prop where
  starts : ∀ c ∈ form.head?, isBlank c = false
  nonempty : form ≠ []
  read : ∀ levels rest, readValue levels (form ++ '\n' :: rest) = some (v, '\n' :: rest)

theorem head?_stringForm (cs : List Char) :
    ∃ tail, stringForm cs = '"' :: tail ∨ stringForm cs = '\'' :: tail := by
  unfold stringForm
  dsimp only
  split_ifs
  · exact ⟨_, .inl rfl⟩
  · exact ⟨_, .inr rfl⟩
  · exact ⟨_, .inl rfl⟩
  · exact ⟨_, .inr rfl⟩
  · exact ⟨_, .inl rfl⟩
  · exact ⟨_, .inl rfl⟩

theorem writesValue_string (s : String) : WritesValue (stringForm s.toList) (.string s) := by
  obtain ⟨tail, hhead⟩ := head?_stringForm s.toList
  refine ⟨?_, ?_, fun levels rest => ?_⟩
  · rcases hhead with hform | hform <;> rw [hform] <;> rintro c ⟨⟩ <;> rfl
  · rcases hhead with hform | hform <;> rw [hform] <;> simp
  · have htext : text? (stringForm s.toList ++ '\n' :: rest) = some (s, '\n' :: rest) := by
      rw [text?_stringForm s.toList (by simp) (by simp), String.ofList_toList]
    rcases hhead with hform | hform
    · rw [hform] at htext ⊢
      rw [List.cons_append] at htext ⊢
      rw [readValue.eq_def]
      simp only [htext, bind, Option.bind]
    · rw [hform] at htext ⊢
      rw [List.cons_append] at htext ⊢
      rw [readValue.eq_def]
      simp only [htext, bind, Option.bind]

theorem digitOf_of_isDigit {c : Char} (h : isDigit c = true) :
    digitOf 10 c = some (digitValue c) := by
  have hvalue : digitValue c < 10 := by
    simp only [isDigit, Bool.and_eq_true, decide_eq_true_eq, Char.le_def,
      UInt32.le_iff_toNat_le] at h
    have hlow : 48 ≤ c.toNat := h.1
    have hhigh : c.toNat ≤ 57 := h.2
    unfold digitValue
    omega
  simp [digitOf, h, Option.filter, hvalue]

/-- A run of digits stands for its number. -/
theorem digitRun?_digits {ds : List Char} (hne : ds ≠ []) (h : ∀ d ∈ ds, isDigit d = true)
    (acc : Nat) : digitRun? 10 acc ds = some (digitsValue acc ds) := by
  induction ds generalizing acc with
  | nil => exact absurd rfl hne
  | cons d ds ih =>
      have hd := digitOf_of_isDigit (h d (by simp))
      cases ds with
      | nil => simp [digitRun?, hd, digitsValue_cons]
      | cons e ds =>
          have hmore := ih (by simp) (fun x hx => h x (by simp [hx])) (acc * 10 + digitValue d)
          have he : e ≠ '_' := by
            rintro rfl
            exact absurd (h '_' (by simp)) (by decide)
          rw [digitsValue_cons, ← hmore, digitRun?.eq_def]
          split
          · contradiction
          · rename_i heq; exact absurd (List.cons.inj heq).2 (by simp)
          · rename_i heq; exact absurd (List.cons.inj (List.cons.inj heq).2).1 he
          · rename_i heq
            obtain ⟨rfl, rfl⟩ := List.cons.inj heq
            rw [hd]
            rfl

theorem decimal?_toDigits (n : Nat) : decimal? (Nat.toDigits 10 n) = some n := by
  by_cases hzero : n = 0
  · subst hzero
    rfl
  · have hrun := digitRun?_digits Nat.toDigits_ne_nil
      (fun d hd => isDigit_of_mem_toDigits (n := n) hd) 0
    rw [digitsValue_toDigits] at hrun
    rw [decimal?.eq_def]
    split
    · rename_i heq; exact absurd rfl (head_toDigits_ne_zero hzero heq)
    · rename_i heq; exact absurd rfl (head_toDigits_ne_zero hzero heq)
    · exact hrun

theorem inRange_of_le {n : Nat} (h : n ≤ maxInt64) : inRange n = some (n : Int) := by
  unfold inRange
  rw [if_pos]
  simp only [Bool.and_eq_true, decide_eq_true_eq]
  omega

/-- Digits have no sign and no letter that announces another base. -/
theorem integer?_digits {ds : List Char} (h : ∀ d ∈ ds, isDigit d = true) :
    integer? ds = decimal? ds >>= fun n => inRange n := by
  have hno : ∀ c ∈ ds, isDigit c = false → False := fun c hc hother =>
    ne_of_isDigit (h c hc) hother rfl
  rw [integer?.eq_def]
  split
  · exact (hno 'x' (by simp) (by decide)).elim
  · exact (hno 'o' (by simp) (by decide)).elim
  · exact (hno 'b' (by simp) (by decide)).elim
  · exact (hno '+' (by simp) (by decide)).elim
  · exact (hno '-' (by simp) (by decide)).elim
  · rfl

theorem scalar?_toDigits {n : Nat} (h : n ≤ maxInt64) :
    scalar? (Nat.toDigits 10 n) = some (.integer n) := by
  have hdigits : ∀ d ∈ Nat.toDigits 10 n, isDigit d = true := fun d hd => isDigit_of_mem_toDigits hd
  have hinteger : integer? (Nat.toDigits 10 n) = some (n : Int) := by
    rw [integer?_digits hdigits, decimal?_toDigits]
    exact inRange_of_le h
  have hword : ∀ word : List Char, 't' ∈ word ∨ 'f' ∈ word →
      (Nat.toDigits 10 n == word) = false := by
    intro word hletter
    rw [beq_eq_false_iff_ne]
    rintro rfl
    rcases hletter with hletter | hletter <;> exact absurd (hdigits _ hletter) (by decide)
  unfold scalar?
  rw [hword _ (.inl (by decide)), hword _ (.inr (by decide)), hinteger]
  rfl

theorem endsScalar_of_isDigit {c : Char} (h : isDigit c = true) : endsScalar c = false := by
  have hother : ∀ d ∈ [' ', '\t', '\n', '\r', '#', ',', ']', '\x7d'], isDigit d = false := by
    simp only [List.forall_mem_cons, List.not_mem_nil, false_implies, implies_true]
    decide
  rw [endsScalar, List.contains_eq_mem, decide_eq_false_iff_not]
  exact fun hmem => ne_of_isDigit h (hother c hmem) rfl

/-- What does not open a text, an array or an inline table is a number, a truth value or a date. -/
theorem readValue_scalar (levels : Nat) {c : Char} (h : c ∉ ['"', '\'', '[', '\x7b'])
    (cs : List Char) : readValue levels (c :: cs) = readScalar (c :: cs) := by
  simp only [List.mem_cons, List.not_mem_nil, or_false, not_or] at h
  unfold readValue
  split <;> simp_all

theorem writesValue_nat {n : Nat} (h : n ≤ maxInt64) :
    WritesValue (Nat.toDigits 10 n) (.integer n) := by
  obtain ⟨d, ds, hd⟩ := List.exists_cons_of_ne_nil (Nat.toDigits_ne_nil (b := 10) (n := n))
  have hdigits : ∀ c ∈ Nat.toDigits 10 n, isDigit c = true := fun c hc => isDigit_of_mem_toDigits hc
  have hfirst : isDigit d = true := hdigits d (by simp [hd])
  refine ⟨?_, Nat.toDigits_ne_nil, fun levels rest => ?_⟩
  · rw [hd]
    rintro c ⟨⟩
    apply not_isBlank_of_isBare
    simp [isBare, hfirst]
  · have htake : (Nat.toDigits 10 n ++ '\n' :: rest).takeWhile (!endsScalar ·) =
        Nat.toDigits 10 n := by
      rw [List.takeWhile_append_of_pos fun c hc => by simp [endsScalar_of_isDigit (hdigits c hc)]]
      simp [endsScalar]
    have hdrop : (Nat.toDigits 10 n ++ '\n' :: rest).dropWhile (!endsScalar ·) = '\n' :: rest := by
      rw [List.dropWhile_append_of_pos fun c hc => by simp [endsScalar_of_isDigit (hdigits c hc)]]
      simp [endsScalar]
    have hscalar : readScalar (Nat.toDigits 10 n ++ '\n' :: rest) =
        some (.integer n, '\n' :: rest) := by
      simp only [readScalar, htake, hdrop, scalar?_toDigits h]
      rfl
    have hother : ∀ e ∈ ['"', '\'', '[', '\x7b'], isDigit e = false := by
      simp only [List.forall_mem_cons, List.not_mem_nil, false_implies, implies_true]
      decide
    rw [← hscalar, hd, List.cons_append]
    exact readValue_scalar levels (fun hmem => ne_of_isDigit hfirst (hother d hmem) rfl) _

/-! ## Lines -/

/-- The lines lead from one state of reading to another, as long as enough of them may be read. -/
def ReadsAs (doc : Document) (cs : List Char) (final : Document) : Prop :=
  ∀ fuel, cs.length < fuel → readLines fuel doc cs = some final

theorem readsAs_nil (doc : Document) : ReadsAs doc [] doc := by
  intro fuel hfuel
  obtain ⟨fuel, rfl⟩ : ∃ n, fuel = n + 1 := ⟨fuel - 1, by simp at hfuel; omega⟩
  rfl

/-- A line in front of others. -/
theorem readsAs_line {doc next final : Document} {line rest : List Char} (hne : line ≠ [])
    (hline : ∀ fuel, readLines (fuel + 1) doc (line ++ rest) = readLines fuel next rest)
    (hrest : ReadsAs next rest final) : ReadsAs doc (line ++ rest) final := by
  intro fuel hfuel
  have hpositive : 0 < line.length := List.length_pos_iff.2 hne
  rw [List.length_append] at hfuel
  obtain ⟨fuel, rfl⟩ : ∃ n, fuel = n + 1 := ⟨fuel - 1, by omega⟩
  rw [hline]
  exact hrest fuel (by omega)

theorem readsAs_newline {doc final : Document} {rest : List Char}
    (hrest : ReadsAs doc rest final) : ReadsAs doc ('\n' :: rest) final := by
  show ReadsAs doc (['\n'] ++ rest) final
  exact readsAs_line (by simp) (fun _ => rfl) hrest

theorem endLine_newline (rest : List Char) : endLine ('\n' :: rest) = some rest := rfl

/-- What a line of a document starts with says what it is; a key makes it a setting. -/
theorem readLines_keyForm (fuel : Nat) (doc : Document) (key rest : List Char) :
    readLines (fuel + 1) doc (keyForm key ++ rest) =
      assignment doc (keyForm key ++ rest) >>= fun p => readLines fuel p.1 p.2 := by
  obtain ⟨c, tail, hc, hhead⟩ := head?_keyForm key rest
  have hno : ∀ d ∈ ['#', '\n', '\r', '['], c ≠ d := by
    intro d hd
    have hother : ∀ d ∈ ['#', '\n', '\r', '['], isBare d = false ∧ d ≠ '"' ∧ d ≠ '\'' := by
      simp only [List.forall_mem_cons, List.not_mem_nil, false_implies, implies_true]
      decide
    obtain ⟨hbare, hquote, hapostrophe⟩ := hother d hd
    rintro rfl
    rcases hhead with hc | hc | hc
    · rw [hbare] at hc
      exact Bool.false_ne_true hc
    · exact hquote hc
    · exact hapostrophe hc
  rw [readLines.eq_def]
  simp only [skipBlanks_keyForm]
  rw [hc]
  split
  · contradiction
  · rename_i heq; exact absurd (List.cons.inj heq).1 (hno _ (by simp))
  · rename_i heq; exact absurd (List.cons.inj heq).1 (hno _ (by simp))
  · rename_i heq; exact absurd (List.cons.inj heq).1 (hno _ (by simp))
  · rename_i heq; exact absurd (List.cons.inj heq).1 (hno _ (by simp))
  · rfl

/-- The parts of a key, with points between them. -/
def dottedForm (path : List String) : List Char :=
  ((path.map fun part => keyForm part.toList).intersperse ['.']).flatten

theorem keyParts?_dottedForm {path : List String} (hne : path ≠ []) {fuel : Nat}
    (hfuel : path.length ≤ fuel) {c : Char} {rest : List Char} (hbare : isBare c = false)
    (hpoint : c ≠ '.') (hblank : isBlank c = false) :
    keyParts? fuel (dottedForm path ++ c :: rest) = some (path, c :: rest) := by
  have hrest : skipBlanks (c :: rest) = c :: rest :=
    skipBlanks_of_head (by rintro d ⟨⟩; exact hblank)
  induction path generalizing fuel with
  | nil => exact absurd rfl hne
  | cons part path ih =>
      obtain ⟨fuel, rfl⟩ : ∃ n, fuel = n + 1 := ⟨fuel - 1, by simp at hfuel; omega⟩
      cases path with
      | nil =>
          have hpart : keyPart? (keyForm part.toList ++ c :: rest) = some (part, c :: rest) := by
            rw [keyPart?_keyForm _ (by rintro d ⟨⟩; exact hbare), hrest, String.ofList_toList]
          have hform : dottedForm [part] ++ c :: rest = keyForm part.toList ++ c :: rest := by
            simp [dottedForm]
          rw [hform, keyParts?.eq_def]
          simp only [hpart, bind, Option.bind]
          split
          · rename_i heq; exact absurd (List.cons.inj heq).1 hpoint
          · rfl
      | cons next path =>
          have hpart : keyPart? (keyForm part.toList ++ '.' :: (dottedForm (next :: path) ++
              c :: rest)) = some (part, '.' :: (dottedForm (next :: path) ++ c :: rest)) := by
            rw [keyPart?_keyForm _ (by rintro d ⟨⟩; decide),
              skipBlanks_of_head (by rintro d ⟨⟩; decide), String.ofList_toList]
          have hform : dottedForm (part :: next :: path) ++ c :: rest =
              keyForm part.toList ++ '.' :: (dottedForm (next :: path) ++ c :: rest) := by
            simp [dottedForm]
          have hmore := ih (by simp) (show (next :: path).length ≤ fuel by simpa using hfuel)
          rw [hform, keyParts?]
          simp only [hpart, hmore, bind, Option.bind]

theorem key?_dottedForm (path : List String) (last : String)
    (hlength : path.length < maxKeyParts - 1) {c : Char} {rest : List Char}
    (hbare : isBare c = false) (hpoint : c ≠ '.') (hblank : isBlank c = false) :
    key? (dottedForm (path ++ [last]) ++ c :: rest) = some ((path, last), c :: rest) := by
  have hfuel : (path ++ [last]).length ≤ maxKeyParts - 1 := by
    rw [List.length_append, List.length_singleton]
    omega
  have hparts : keyParts? (maxKeyParts - 1) (dottedForm (path ++ [last]) ++ c :: rest) =
      some (path ++ [last], c :: rest) :=
    keyParts?_dottedForm (by simp) hfuel hbare hpoint hblank
  simp [key?, hparts, bind, Option.bind]

/-- The parts of a key start like its first part. -/
theorem head?_dottedForm {path : List String} (hne : path ≠ []) (rest : List Char) :
    ∃ c tail, dottedForm path ++ rest = c :: tail ∧ (isBare c = true ∨ c = '"' ∨ c = '\'') := by
  obtain ⟨part, path, rfl⟩ := List.exists_cons_of_ne_nil hne
  cases path with
  | nil => simpa [dottedForm] using head?_keyForm part.toList rest
  | cons next path =>
      have hform : dottedForm (part :: next :: path) ++ rest =
          keyForm part.toList ++ '.' :: (dottedForm (next :: path) ++ rest) := by
        simp [dottedForm]
      rw [hform]
      exact head?_keyForm part.toList _

/-- What stands between the brackets of a header names the table that it opens. -/
theorem header_dottedForm {doc : Document} {root : Members} (path : List String) (last : String)
    (hlength : path.length < maxKeyParts - 1)
    (hopen : changeAt (openTable last) path doc.root = some root) (rest : List Char) :
    header doc (dottedForm (path ++ [last]) ++ ']' :: '\n' :: rest) =
      some (⟨root, path ++ [last]⟩, rest) := by
  have hkey : key? (dottedForm (path ++ [last]) ++ ']' :: '\n' :: rest) =
      some ((path, last), ']' :: '\n' :: rest) :=
    key?_dottedForm path last hlength (by decide) (by decide) (by decide)
  have hne : path ++ [last] ≠ [] := by simp
  obtain ⟨c, tail, hc, hhead⟩ := head?_dottedForm hne (']' :: '\n' :: rest)
  have hbracket : c ≠ '[' := by
    rintro rfl
    revert hhead
    decide
  rw [header.eq_def]
  split
  · rename_i heq
    rw [hc] at heq
    exact absurd (List.cons.inj heq).1 hbracket
  · simp only [hkey, hopen, endLine_newline, bind, Option.bind]

/-- A header opens its table, and settings go there from then on. -/
theorem readLines_headerLine {doc : Document} {root : Members} (path : List String) (last : String)
    (hlength : path.length < maxKeyParts - 1)
    (hopen : changeAt (openTable last) path doc.root = some root) (fuel : Nat) (rest : List Char) :
    readLines (fuel + 1) doc (headerLine (path ++ [last]) ++ rest) =
      readLines fuel ⟨root, path ++ [last]⟩ rest := by
  have hheader := header_dottedForm path last hlength hopen rest
  have hform : headerLine (path ++ [last]) ++ rest =
      '[' :: (dottedForm (path ++ [last]) ++ ']' :: '\n' :: rest) := by
    simp [headerLine, dottedForm]
  have hblanks : skipBlanks ('[' :: (dottedForm (path ++ [last]) ++ ']' :: '\n' :: rest)) =
      '[' :: (dottedForm (path ++ [last]) ++ ']' :: '\n' :: rest) := rfl
  rw [hform, readLines, hblanks]
  simp only [hheader, bind, Option.bind]

/-! ## Settings -/

/-- A line with a value that is read back sets its key. -/
theorem readLines_assignmentLine {doc : Document} {root : Members} (key : String)
    {form : List Char} {v : Value} (hform : WritesValue form v)
    (hset : changeAt (setNew key v) doc.current doc.root = some root) (fuel : Nat)
    (rest : List Char) :
    readLines (fuel + 1) doc (assignmentLine key form ++ rest) =
      readLines fuel ⟨root, doc.current⟩ rest := by
  have hline : assignmentLine key form ++ rest =
      keyForm key.toList ++ ' ' :: '=' :: ' ' :: (form ++ '\n' :: rest) := by
    simp [assignmentLine]
  have hpart : keyPart? (keyForm key.toList ++ ' ' :: '=' :: ' ' :: (form ++ '\n' :: rest)) =
      some (key, '=' :: ' ' :: (form ++ '\n' :: rest)) := by
    rw [keyPart?_keyForm _ (by rintro c ⟨⟩; decide), String.ofList_toList]
    rfl
  have hkey : key? (keyForm key.toList ++ ' ' :: '=' :: ' ' :: (form ++ '\n' :: rest)) =
      some (([], key), '=' :: ' ' :: (form ++ '\n' :: rest)) := by
    have hparts : keyParts? (maxKeyParts - 1) (keyForm key.toList ++ ' ' :: '=' :: ' ' ::
        (form ++ '\n' :: rest)) = some ([key], '=' :: ' ' :: (form ++ '\n' :: rest)) := by
      show keyParts? (78 + 1) _ = _
      rw [keyParts?, hpart]
      rfl
    rw [key?, hparts]
    rfl
  have hvalue : skipBlanks (' ' :: (form ++ '\n' :: rest)) = form ++ '\n' :: rest := by
    obtain ⟨c, tail, hc⟩ := List.exists_cons_of_ne_nil hform.nonempty
    have hstarts := hform.starts c (by rw [hc]; rfl)
    rw [hc]
    show skipBlanks (c :: tail ++ '\n' :: rest) = _
    exact skipBlanks_of_head (by rintro d ⟨⟩; exact hstarts)
  have hassignment : assignment doc (keyForm key.toList ++ ' ' :: '=' :: ' ' ::
      (form ++ '\n' :: rest)) = some (⟨root, doc.current⟩, rest) := by
    have hassign : changeAt (assign key v []) doc.current doc.root = some root := hset
    simp only [assignment, hkey, hvalue, hform.read, endLine_newline, hassign, bind, Option.bind]
  rw [hline, readLines_keyForm, hassignment]
  rfl

theorem put_of_find?_none {key : String} {members : Members} (h : find? key members = none)
    (node : Node) : put key node members = members ++ [(key, node)] := by
  induction members with
  | nil => rfl
  | cons m members ih =>
      obtain ⟨k, n⟩ := m
      rw [find?] at h
      split_ifs at h with hk
      rw [put, if_neg hk, ih h, List.cons_append]

theorem find?_append_none {key : String} {members : Members} {k : String} {n : Node}
    (h : find? key members = none) (hne : k ≠ key) : find? key (members ++ [(k, n)]) = none := by
  induction members with
  | nil => simp [find?, hne]
  | cons m members ih =>
      obtain ⟨l, m⟩ := m
      rw [find?] at h
      split_ifs at h with hl
      rw [List.cons_append, find?, if_neg hl, ih h]

/-- A setting as it is written: its key, its form and what the form stands for. -/
structure Setting where
  key : String
  form : List Char
  value : Value

/-- The lines of the settings. -/
def settingLines (settings : List Setting) : List Char :=
  settings.flatMap fun s => assignmentLine s.key s.form

/-- The members of a table that the settings make. -/
def settingMembers (settings : List Setting) : Members :=
  settings.map fun s => (s.key, .value s.value)

/-- Settings with different keys go behind each other into the table that is open.  `place` says
where that table stands in the document. -/
theorem readsAs_settings {path : List String} (place : Members → Members)
    (hplace : ∀ change members, changeAt change path (place members) = (change members).map place)
    {settings : List Setting} (hforms : ∀ s ∈ settings, WritesValue s.form s.value)
    (hkeys : (settings.map (·.key)).Pairwise (· ≠ ·)) {members : Members}
    (hnew : ∀ s ∈ settings, find? s.key members = none) {rest : List Char} {final : Document}
    (hrest : ReadsAs ⟨place (members ++ settingMembers settings), path⟩ rest final) :
    ReadsAs ⟨place members, path⟩ (settingLines settings ++ rest) final := by
  induction settings generalizing members with
  | nil => simpa [settingMembers, settingLines] using hrest
  | cons s settings ih =>
      rw [List.map_cons, List.pairwise_cons] at hkeys
      have hset : changeAt (setNew s.key s.value) path (place members) =
          some (place (members ++ [(s.key, .value s.value)])) := by
        have hnone := hnew s (by simp)
        rw [hplace, setNew, hnone]
        show (some (put s.key (.value s.value) members)).map place = _
        rw [put_of_find?_none hnone, Option.map_some]
      have hlines : settingLines (s :: settings) ++ rest =
          assignmentLine s.key s.form ++ (settingLines settings ++ rest) := by
        simp [settingLines]
      rw [hlines]
      refine readsAs_line (by simp [assignmentLine]) (fun fuel => readLines_assignmentLine s.key
        (hforms s (by simp)) hset fuel _) (ih (fun t ht => hforms t (by simp [ht])) hkeys.2 ?_ ?_)
      · intro t ht
        exact find?_append_none (hnew t (by simp [ht])) (hkeys.1 t.key (List.mem_map_of_mem ht))
      · simpa [settingMembers] using hrest

/-- A header and the settings of its table. -/
theorem readsAs_group (path : List String) (last : String)
    (hlength : path.length < maxKeyParts - 1) (place : Members → Members) {doc : Document}
    (hopen : changeAt (openTable last) path doc.root = some (place []))
    (hplace : ∀ change members,
      changeAt change (path ++ [last]) (place members) = (change members).map place)
    {settings : List Setting} (hforms : ∀ s ∈ settings, WritesValue s.form s.value)
    (hkeys : (settings.map (·.key)).Pairwise (· ≠ ·)) {rest : List Char} {final : Document}
    (hrest : ReadsAs ⟨place (settingMembers settings), path ++ [last]⟩ rest final) :
    ReadsAs doc (headerLine (path ++ [last]) ++ (settingLines settings ++ rest)) final := by
  refine readsAs_line (by simp [headerLine])
    (fun fuel => readLines_headerLine path last hlength hopen fuel _) ?_
  exact readsAs_settings place hplace hforms hkeys (fun _ _ => rfl) hrest

end PluginHost.Toml

import PluginHost.Proofs.Json.Members
import PluginHost.Proofs.Json.Words

/-!
# JSON values read back

`ReadsBack levels v` says which values survive being written and read: whole numbers of 64 bits,
objects with their keys in order, nested at most `levels` deep.  `readValue_chars` is the result.

Two lemmas carry the induction, and both are about any reader.  `readItems_flatMap` reads a list
whose items are written one by one, and `readMembers_of_folds` folds the members of an object.  The
relation `Folds` is the run of that fold: one state for each member that has been read.
-/

namespace PluginHost.Json

open PluginHost.Text

/-! ## What stands at the edges of a value -/

theorem skipSpace_cons {c : Char} (h : isSpace c = false) (cs : List Char) :
    skipSpace (c :: cs) = c :: cs := by
  simp [skipSpace, h]

/-- The first character of a value: no blank, and no closing bracket or brace. -/
def StartsValue (c : Char) : Prop := isSpace c = false ∧ c ≠ ']' ∧ c ≠ '\x7d'

theorem endsNumber_comma (cs : List Char) : EndsNumber (',' :: cs) := by
  refine ⟨by decide, by decide, by decide, by decide⟩

theorem endsNumber_bracket (cs : List Char) : EndsNumber (']' :: cs) := by
  refine ⟨by decide, by decide, by decide, by decide⟩

theorem endsNumber_brace (cs : List Char) : EndsNumber ('\x7d' :: cs) := by
  refine ⟨by decide, by decide, by decide, by decide⟩

/-! ## Lists -/

theorem nextItem_first {c : Char} (h : StartsValue c) (cs : List Char) :
    nextItem true (c :: cs) = .ok (some (c :: cs)) := by
  rw [nextItem, skipSpace_cons h.1]
  split
  · contradiction
  · rename_i heq; exact absurd (List.cons.inj heq).1 h.2.1
  · rename_i heq; rw [← heq, if_pos rfl]

theorem nextItem_comma {c : Char} (h : StartsValue c) (cs : List Char) :
    nextItem false (',' :: c :: cs) = .ok (some (c :: cs)) := by
  rw [nextItem, skipSpace_cons (by decide)]
  split
  · contradiction
  · rename_i heq; exact absurd (List.cons.inj heq).1 (by decide)
  · rename_i heq
    obtain ⟨rfl, rfl⟩ := List.cons.inj heq
    rw [if_neg Bool.false_ne_true, if_pos (beq_self_eq_true ','), skipSpace_cons h.1]
    split
    · contradiction
    · rename_i heq; exact absurd (List.cons.inj heq).1 h.2.1
    · rfl

theorem nextItem_bracket (first : Bool) (cs : List Char) :
    nextItem first (']' :: cs) = .ok none := by
  rw [nextItem, skipSpace_cons (by decide)]
  rfl

theorem endList_bracket (cs : List Char) : endList (']' :: cs) = .ok cs := by
  rw [endList, skipSpace_cons (by decide)]
  rfl

/-- The items of a list, each with a comma in front. -/
def behindCommas {α : Type} (write : α → List Char) (as : List α) : List Char :=
  as.flatMap fun a => ',' :: write a

theorem endsNumber_behindCommas {α : Type} (write : α → List Char) (as : List α) {rest : List Char}
    (hrest : EndsNumber rest) : EndsNumber (behindCommas write as ++ rest) := by
  cases as with
  | nil => exact hrest
  | cons a as => exact endsNumber_comma _

theorem itemsChars_cons (v : Value) (vs : List Value) :
    itemsChars (v :: vs) = v.chars ++ behindCommas Value.chars vs := by
  induction vs generalizing v with
  | nil => simp [itemsChars, behindCommas]
  | cons w vs ih =>
      rw [itemsChars, ih w, behindCommas, behindCommas, List.flatMap_cons, List.cons_append]
      simp

section Lists

variable {α : Type} {item : Reader α} {write : α → List Char}

/-- The items behind the first one are read one by one. -/
theorem readItems_behindCommas {as : List α}
    (hread : ∀ a ∈ as, ∀ rest, EndsNumber rest → item (write a ++ rest) = .ok (a, rest))
    (hstart : ∀ a ∈ as, ∃ c cs, write a = c :: cs ∧ StartsValue c) (fuel : Nat)
    (hfuel : as.length < fuel) (rest : List Char) :
    readItems item fuel false (behindCommas write as ++ ']' :: rest) = .ok (as, rest) := by
  induction as generalizing fuel with
  | nil =>
      obtain ⟨fuel, rfl⟩ : ∃ n, fuel = n + 1 := ⟨fuel - 1, by simp at hfuel; omega⟩
      simp only [behindCommas, List.flatMap_nil, List.nil_append, readItems, nextItem_bracket,
        endList_bracket, bind, Except.bind, pure, Except.pure]
  | cons a as ih =>
      obtain ⟨fuel, rfl⟩ : ∃ n, fuel = n + 1 := ⟨fuel - 1, by omega⟩
      obtain ⟨c, cs, hwrite, hc⟩ := hstart a (by simp)
      have hends := endsNumber_behindCommas write as (endsNumber_bracket rest)
      have hitem := hread a (by simp) _ hends
      have hmore := ih (fun b hb => hread b (by simp [hb])) (fun b hb => hstart b (by simp [hb]))
        fuel (by simpa using hfuel)
      have hnext : nextItem false (behindCommas write (a :: as) ++ ']' :: rest) =
          .ok (some (write a ++ (behindCommas write as ++ ']' :: rest))) := by
        have hcomma := nextItem_comma hc (cs ++ (behindCommas write as ++ ']' :: rest))
        rw [← List.cons_append, ← hwrite] at hcomma
        simpa [behindCommas] using hcomma
      simp only [readItems, hnext, hitem, hmore, bind, Except.bind, pure, Except.pure]

/-- A list is read behind its opening bracket. -/
theorem readItems_first {a : α} {as : List α}
    (hread : ∀ b ∈ a :: as, ∀ rest, EndsNumber rest → item (write b ++ rest) = .ok (b, rest))
    (hstart : ∀ b ∈ a :: as, ∃ c cs, write b = c :: cs ∧ StartsValue c) {fuel : Nat}
    (hfuel : as.length + 1 < fuel) (rest : List Char) :
    readItems item fuel true (write a ++ behindCommas write as ++ ']' :: rest) =
      .ok (a :: as, rest) := by
  obtain ⟨fuel, rfl⟩ : ∃ n, fuel = n + 1 := ⟨fuel - 1, by omega⟩
  obtain ⟨c, cs, hwrite, hc⟩ := hstart a (by simp)
  have hends := endsNumber_behindCommas write as (endsNumber_bracket rest)
  have hitem := hread a (by simp) _ hends
  have hmore : readItems item fuel false (behindCommas write as ++ ']' :: rest) = .ok (as, rest) :=
    readItems_behindCommas (fun b hb => hread b (List.mem_cons_of_mem a hb))
      (fun b hb => hstart b (List.mem_cons_of_mem a hb)) fuel (by omega) rest
  have hnext : nextItem true (write a ++ (behindCommas write as ++ ']' :: rest)) =
      .ok (some (write a ++ (behindCommas write as ++ ']' :: rest))) := by
    rw [hwrite]
    exact nextItem_first hc _
  rw [List.append_assoc]
  simp only [readItems, hnext, hitem, hmore, bind, Except.bind, pure, Except.pure]

theorem length_le_length_behindCommas (write : α → List Char) (as : List α) :
    as.length ≤ (behindCommas write as).length := by
  induction as with
  | nil => simp
  | cons a as ih =>
      simp only [behindCommas, List.flatMap_cons, List.length_append, List.length_cons] at ih ⊢
      omega

end Lists

/-! ## Objects -/

/-- A member of an object as it is written. -/
def memberChars (m : String × List Char) : List Char := stringChars m.1 ++ ':' :: m.2

/-- The members of an object as they are written. -/
def bodyChars : List (String × List Char) → List Char
  | [] => []
  | m :: ms => memberChars m ++ behindCommas memberChars ms

theorem recordChars_eq (fields : List (String × List Char)) :
    recordChars fields = '\x7b' :: (bodyChars fields ++ ['\x7d']) := by
  have hbody : ((fields.map fun m => stringChars m.1 ++ ':' :: m.2).intersperse [',']).flatten =
      bodyChars fields := by
    cases fields with
    | nil => rfl
    | cons m ms =>
        induction ms generalizing m with
        | nil => simp [bodyChars, behindCommas, memberChars]
        | cons n ms ih =>
            have hmore := ih n
            simp only [bodyChars, behindCommas, List.map_cons, List.intersperse_cons_cons,
              List.flatten_cons, List.flatMap_cons] at hmore ⊢
            rw [hmore]
            simp [memberChars]
  rw [recordChars, hbody, List.cons_append]

theorem membersChars_eq (members : List (String × Value)) :
    membersChars members = bodyChars (members.map fun m => (m.1, m.2.chars)) := by
  cases members with
  | nil => rfl
  | cons m ms =>
      induction ms generalizing m with
      | nil => simp [membersChars, bodyChars, behindCommas, memberChars]
      | cons n ms ih =>
          have hmore := ih n
          simp only [bodyChars, behindCommas, List.map_cons, List.flatMap_cons] at hmore ⊢
          rw [membersChars, hmore]
          · simp [memberChars]
          · simp

theorem chars_object (members : List (String × Value)) :
    (Value.object members).chars = recordChars (members.map fun m => (m.1, m.2.chars)) := by
  rw [Value.chars, membersChars_eq, recordChars_eq]

section Objects

variable {σ : Type} {member : σ → String → Reader σ}

/-- Reading members one by one takes one state to another. -/
inductive Folds (member : σ → String → Reader σ) : σ → List (String × List Char) → σ → Prop where
  | nil {s : σ} : Folds member s [] s
  | cons {s s' s'' : σ} {key : String} {text : List Char} {more : List (String × List Char)}
      (hread : ∀ rest, EndsNumber rest → member s key (':' :: (text ++ rest)) = .ok (s', rest))
      (hmore : Folds member s' more s'') : Folds member s ((key, text) :: more) s''

theorem nextKey_first (key : String) (cs : List Char) :
    nextKey true (stringChars key ++ cs) = .ok (some (key, cs)) := by
  have hnext : nextKey true ('"' :: (key.toList.flatMap escapedChar ++ '"' :: cs)) =
      (readString (key.toList.flatMap escapedChar ++ '"' :: cs)).map some := by
    rw [nextKey, skipSpace_cons (by decide)]
    rfl
  rw [stringChars_append, hnext, readString_flatMap]
  rfl

theorem nextKey_comma (key : String) (cs : List Char) :
    nextKey false (',' :: (stringChars key ++ cs)) = .ok (some (key, cs)) := by
  have hnext : nextKey false (',' :: '"' :: (key.toList.flatMap escapedChar ++ '"' :: cs)) =
      (readString (key.toList.flatMap escapedChar ++ '"' :: cs)).map some := by
    rw [nextKey, skipSpace_cons (by decide)]
    rfl
  rw [stringChars_append, hnext, readString_flatMap]
  rfl

theorem nextKey_brace (first : Bool) (cs : List Char) :
    nextKey first ('\x7d' :: cs) = .ok none := by
  rw [nextKey, skipSpace_cons (by decide)]
  rfl

theorem endObject_brace (cs : List Char) : endObject ('\x7d' :: cs) = .ok cs := by
  rw [endObject, skipSpace_cons (by decide)]
  rfl

theorem readColon_colon (cs : List Char) : readColon (':' :: cs) = .ok cs := by
  rw [readColon, skipSpace_cons (by decide)]
  rfl

theorem readMembers_behindCommas {s s' : σ} {fields : List (String × List Char)}
    (h : Folds member s fields s') (fuel : Nat) (hfuel : fields.length < fuel) (rest : List Char) :
    readMembers member fuel false s (behindCommas memberChars fields ++ '\x7d' :: rest) =
      .ok (s', rest) := by
  induction h generalizing fuel with
  | nil =>
      obtain ⟨fuel, rfl⟩ : ∃ n, fuel = n + 1 := ⟨fuel - 1, by simp at hfuel; omega⟩
      simp only [behindCommas, List.flatMap_nil, List.nil_append, readMembers, nextKey_brace,
        endObject_brace, bind, Except.bind, pure, Except.pure]
  | @cons s s' s'' key text more hread hmore ih =>
      obtain ⟨fuel, rfl⟩ : ∃ n, fuel = n + 1 := ⟨fuel - 1, by omega⟩
      have hkey : nextKey false
          (behindCommas memberChars ((key, text) :: more) ++ '\x7d' :: rest) =
            .ok (some (key, ':' :: (text ++ (behindCommas memberChars more ++ '\x7d' :: rest)))) := by
        have hcomma := nextKey_comma key
          (':' :: (text ++ (behindCommas memberChars more ++ '\x7d' :: rest)))
        simpa [behindCommas, memberChars] using hcomma
      have hmember := hread _ (endsNumber_behindCommas memberChars more (endsNumber_brace rest))
      have hrest := ih fuel (by simpa using hfuel)
      simp only [readMembers, hkey, hmember, hrest, bind, Except.bind]

/-- An object is folded behind its opening brace. -/
theorem readMembers_of_folds {s s' : σ} {fields : List (String × List Char)}
    (h : Folds member s fields s') {fuel : Nat} (hfuel : fields.length < fuel) (rest : List Char) :
    readMembers member fuel true s (bodyChars fields ++ '\x7d' :: rest) = .ok (s', rest) := by
  obtain ⟨fuel, rfl⟩ : ∃ n, fuel = n + 1 := ⟨fuel - 1, by omega⟩
  cases h with
  | nil =>
      simp only [bodyChars, List.nil_append, readMembers, nextKey_brace, endObject_brace, bind,
        Except.bind, pure, Except.pure]
  | @cons _ s' _ key text more hread hmore =>
      have hkey : nextKey true (bodyChars ((key, text) :: more) ++ '\x7d' :: rest) =
          .ok (some (key, ':' :: (text ++ (behindCommas memberChars more ++ '\x7d' :: rest)))) := by
        have hfirst := nextKey_first key
          (':' :: (text ++ (behindCommas memberChars more ++ '\x7d' :: rest)))
        simpa [bodyChars, memberChars] using hfirst
      have hmember := hread _ (endsNumber_behindCommas memberChars more (endsNumber_brace rest))
      have hrest := readMembers_behindCommas hmore fuel (by simpa using hfuel) rest
      simp only [readMembers, hkey, hmember, hrest, bind, Except.bind]

theorem length_le_length_bodyChars (fields : List (String × List Char)) :
    fields.length ≤ (bodyChars fields).length := by
  cases fields with
  | nil => simp
  | cons m ms =>
      have hmore := length_le_length_behindCommas memberChars ms
      have hone : 1 ≤ (memberChars m).length := by simp [memberChars, stringChars]
      simp only [bodyChars, List.length_append, List.length_cons]
      omega

end Objects

/-! ## Values -/

/-- The value is given back when it is written and read with so many levels to nest in. -/
inductive ReadsBack : Nat → Value → Prop where
  | null {levels : Nat} : ReadsBack levels .null
  | bool {levels : Nat} (b : Bool) : ReadsBack levels (.bool b)
  | integer {levels : Nat} {i : Int} (hlow : -(maxInt64 + 1 : Int) ≤ i) (hhigh : i ≤ maxUInt64) :
      ReadsBack levels (.number (.integer i))
  | string {levels : Nat} (s : String) : ReadsBack levels (.string s)
  | array {levels : Nat} {items : List Value} (hitems : ∀ v ∈ items, ReadsBack levels v) :
      ReadsBack (levels + 1) (.array items)
  | object {levels : Nat} {members : List (String × Value)}
      (hkeys : (members.map (·.1)).Pairwise (· < ·))
      (hmembers : ∀ m ∈ members, ReadsBack levels m.2) : ReadsBack (levels + 1) (.object members)

theorem toList_toString_int (i : Int) :
    (toString i).toList =
      if 0 ≤ i then Nat.toDigits 10 i.toNat else '-' :: Nat.toDigits 10 (-i).toNat := by
  cases i with
  | ofNat n => simp [toString, Int.repr]
  | negSucc n => simp [toString, Int.repr]

/-- The first character of a whole number is a sign or a digit. -/
theorem toDigits_cons (n : Nat) :
    ∃ d ds, Nat.toDigits 10 n = d :: ds ∧ isDigit d = true := by
  cases hd : Nat.toDigits 10 n with
  | nil => exact absurd hd Nat.toDigits_ne_nil
  | cons d ds => exact ⟨d, ds, rfl, isDigit_of_mem_toDigits (n := n) (by simp [hd])⟩

theorem digit_ne {d c : Char} (h : isDigit d = true) (hc : isDigit c = false) : d ≠ c := by
  rintro rfl
  rw [h] at hc
  contradiction

theorem startsValue_digit {d : Char} (h : isDigit d = true) : StartsValue d := by
  have hne : ∀ c, isDigit c = false → d ≠ c := fun c hc => digit_ne h hc
  refine ⟨?_, hne _ (by decide), hne _ (by decide)⟩
  simp [isSpace, hne ' ' (by decide), hne '\n' (by decide), hne '\t' (by decide),
    hne '\r' (by decide)]

/-- The first character of a value tells that it is one, and whether it is null. -/
theorem ReadsBack.chars_cons {levels : Nat} {v : Value} (h : ReadsBack levels v) :
    ∃ c cs, v.chars = c :: cs ∧ StartsValue c ∧ (c = 'n' → v = .null) := by
  have hstart : ∀ c, isSpace c = false → c ≠ ']' → c ≠ '\x7d' → c ≠ 'n' →
      StartsValue c ∧ (c = 'n' → v = .null) := fun c h1 h2 h3 h4 => ⟨⟨h1, h2, h3⟩, (absurd · h4)⟩
  cases h with
  | null => exact ⟨'n', _, rfl, ⟨by decide, by decide, by decide⟩, fun _ => rfl⟩
  | bool b =>
      cases b with
      | true => exact ⟨'t', _, rfl, hstart _ (by decide) (by decide) (by decide) (by decide)⟩
      | false => exact ⟨'f', _, rfl, hstart _ (by decide) (by decide) (by decide) (by decide)⟩
  | @integer _ i hlow hhigh =>
      simp only [Value.chars, Number.text, toList_toString_int]
      split
      · obtain ⟨d, ds, hd, hdigit⟩ := toDigits_cons i.toNat
        exact ⟨d, ds, hd, startsValue_digit hdigit, (absurd · (digit_ne hdigit (by decide)))⟩
      · exact ⟨'-', _, rfl, hstart _ (by decide) (by decide) (by decide) (by decide)⟩
  | string s => exact ⟨'"', _, rfl, hstart _ (by decide) (by decide) (by decide) (by decide)⟩
  | array hitems =>
      exact ⟨'[', _, by rw [Value.chars], hstart _ (by decide) (by decide) (by decide) (by decide)⟩
  | object hkeys hmembers =>
      exact ⟨'\x7b', _, by rw [Value.chars],
        hstart _ (by decide) (by decide) (by decide) (by decide)⟩

theorem ReadsBack.startsValue {levels : Nat} {v : Value} (h : ReadsBack levels v) :
    ∃ c cs, v.chars = c :: cs ∧ StartsValue c := by
  obtain ⟨c, cs, hchars, hc, -⟩ := h.chars_cons
  exact ⟨c, cs, hchars, hc⟩

theorem readValue_digit (levels : Nat) {d : Char} (h : isDigit d = true) (cs : List Char) :
    readValue levels (d :: cs) =
      (readNumber false (d :: cs)).map fun p => (.number p.1, p.2) := by
  have hne : ∀ c, isDigit c = false → d ≠ c := fun c hc => digit_ne h hc
  rw [readValue, skipSpace_cons (startsValue_digit h).1]
  split
  · contradiction
  · rename_i heq; exact absurd (List.cons.inj heq).1 (hne _ (by decide))
  · rename_i heq; exact absurd (List.cons.inj heq).1 (hne _ (by decide))
  · rename_i heq; exact absurd (List.cons.inj heq).1 (hne _ (by decide))
  · rename_i heq; exact absurd (List.cons.inj heq).1 (hne _ (by decide))
  · rename_i heq; exact absurd (List.cons.inj heq).1 (hne _ (by decide))
  · rename_i heq; exact absurd (List.cons.inj heq).1 (hne _ (by decide))
  · rename_i heq; exact absurd (List.cons.inj heq).1 (hne _ (by decide))
  · rename_i heq
    obtain ⟨rfl, rfl⟩ := List.cons.inj heq
    rw [if_pos h]
    cases readNumber false (d :: cs) <;> rfl

theorem readValue_minus (levels : Nat) (cs : List Char) :
    readValue levels ('-' :: cs) = (readNumber true cs).map fun p => (.number p.1, p.2) := by
  rw [readValue, skipSpace_cons (by decide)]
  simp only [bind, Except.bind, pure, Except.pure]
  cases readNumber true cs <;> rfl

theorem readValue_quote (levels : Nat) (s : String) (rest : List Char) :
    readValue levels (stringChars s ++ rest) = .ok (.string s, rest) := by
  rw [stringChars_append, readValue, skipSpace_cons (by decide)]
  simp only [readString_flatMap]
  rfl

theorem readValue_bracket (levels : Nat) (cs : List Char) :
    readValue (levels + 1) ('[' :: cs) =
      (readItems (readValue levels) (cs.length + 1) true cs).map fun p => (.array p.1, p.2) := by
  rw [readValue, skipSpace_cons (by decide)]
  simp only [bind, Except.bind, pure, Except.pure]
  cases readItems (readValue levels) (cs.length + 1) true cs <;> rfl

/-- Reads the value of a member, with its colon, into an object. -/
def readMemberValue (levels : Nat) (members : List (String × Value)) (key : String) :
    Reader (List (String × Value)) := fun cs => do
  let (v, cs) ← readValue levels (← readColon cs)
  pure (insertMember key v members, cs)

theorem readValue_brace (levels : Nat) (cs : List Char) :
    readValue (levels + 1) ('\x7b' :: cs) =
      (readMembers (readMemberValue levels) (cs.length + 1) true [] cs).map
        fun p => (.object p.1, p.2) := by
  have hread : readValue (levels + 1) ('\x7b' :: cs) =
      (readMembers (readMemberValue levels) (cs.length + 1) true [] cs >>= fun p =>
        pure (.object p.1, p.2)) := by
    rw [readValue, skipSpace_cons (by decide)]
    rfl
  rw [hread]
  cases readMembers (readMemberValue levels) (cs.length + 1) true [] cs <;> rfl

theorem readValue_integer (levels : Nat) {i : Int} (hlow : -(maxInt64 + 1 : Int) ≤ i)
    (hhigh : i ≤ maxUInt64) {rest : List Char} (hrest : EndsNumber rest) :
    readValue levels ((Value.number (.integer i)).chars ++ rest) =
      .ok (.number (.integer i), rest) := by
  simp only [Value.chars, Number.text, toList_toString_int]
  split
  · rename_i hpos
    obtain ⟨d, ds, hd, hdigit⟩ := toDigits_cons i.toNat
    have hread := readNumber_toDigits false (n := i.toNat) (by omega) hrest
    rw [hd, List.cons_append] at hread ⊢
    rw [readValue_digit levels hdigit, hread]
    simp only [wholeNumber, Bool.not_false, if_true, Except.map]
    rw [Int.toNat_of_nonneg hpos]
  · rename_i hneg
    have hread := readNumber_toDigits true (n := (-i).toNat)
      (by simp only [maxInt64, maxUInt64] at *; omega) hrest
    have hbounds : (decide (0 < (-i).toNat) && decide ((-i).toNat ≤ maxInt64 + 1)) = true := by
      simp only [Bool.and_eq_true, decide_eq_true_eq]
      omega
    rw [List.cons_append, readValue_minus, hread]
    simp only [wholeNumber, Bool.not_true, Bool.false_eq_true, if_false, hbounds, if_true,
      Except.map]
    rw [Int.toNat_of_nonneg (by omega), Int.neg_neg]

/-- The text is read as the value, whatever stands behind it. -/
def Reads (levels : Nat) (text : List Char) (v : Value) : Prop :=
  ∀ rest, EndsNumber rest → readValue levels (text ++ rest) = .ok (v, rest)

/-- The members of an object are put into it one after the other. -/
theorem folds_readMemberValue {levels : Nat} {fields : List (String × List Char × Value)}
    (hread : ∀ f ∈ fields, Reads levels f.2.1 f.2.2) (before : List (String × Value)) :
    Folds (readMemberValue levels) before (fields.map fun f => (f.1, f.2.1))
      ((fields.map fun f => (f.1, f.2.2)).foldl (fun acc (k, v) => insertMember k v acc) before) := by
  induction fields generalizing before with
  | nil => exact Folds.nil
  | cons f fields ih =>
      refine Folds.cons ?_ (ih (fun g hg => hread g (by simp [hg])) (insertMember f.1 f.2.2 before))
      intro rest hrest
      simp only [readMemberValue, readColon_colon, hread f (by simp) rest hrest, bind, Except.bind,
        pure, Except.pure]

/-- A record whose fields are read as values is read as the object of these. -/
theorem reads_recordChars {levels : Nat} {fields : List (String × List Char × Value)}
    (hread : ∀ f ∈ fields, Reads levels f.2.1 f.2.2) :
    Reads (levels + 1) (recordChars (fields.map fun f => (f.1, f.2.1)))
      (Value.ofMembers (fields.map fun f => (f.1, f.2.2))) := by
  intro rest hrest
  have hfolds := folds_readMemberValue hread []
  have hlength := length_le_length_bodyChars (fields.map fun f => (f.1, f.2.1))
  rw [List.length_map] at hlength
  rw [recordChars_eq, List.cons_append, List.append_assoc, readValue_brace, List.cons_append,
    List.nil_append, readMembers_of_folds hfolds (by simp; omega) rest]
  rfl

/-- A value that is written is read back, whatever stands behind it. -/
theorem readValue_chars {levels : Nat} {v : Value} (h : ReadsBack levels v) {rest : List Char}
    (hrest : EndsNumber rest) : readValue levels (v.chars ++ rest) = .ok (v, rest) := by
  induction h generalizing rest with
  | null => rw [readValue, Value.chars]; rfl
  | bool b => cases b <;> (rw [readValue, Value.chars]; rfl)
  | integer hlow hhigh => exact readValue_integer _ hlow hhigh hrest
  | string s => rw [Value.chars]; exact readValue_quote _ s rest
  | @array levels items hitems ih =>
      rw [Value.chars, List.cons_append, List.append_assoc, readValue_bracket]
      cases items with
      | nil =>
          simp only [itemsChars, List.nil_append, List.cons_append, readItems, nextItem_bracket,
            endList_bracket, bind, Except.bind, pure, Except.pure, Except.map]
      | cons v vs =>
          have hlength := length_le_length_behindCommas Value.chars vs
          obtain ⟨c, cs, hc, -⟩ := (hitems v (by simp)).startsValue
          rw [itemsChars_cons, List.cons_append, List.nil_append,
            readItems_first (fun w hw rest hrest => ih w hw hrest)
              (fun w hw => (hitems w hw).startsValue) (by simp [hc]; omega) rest]
          rfl
  | @object levels members hkeys hmembers ih =>
      have hfields : ∀ f ∈ members.map fun m => (m.1, m.2.chars, m.2),
          Reads levels f.2.1 f.2.2 := by
        intro f hf rest hrest
        obtain ⟨m, hm, rfl⟩ := List.mem_map.1 hf
        exact ih m hm hrest
      have hreads := reads_recordChars hfields rest hrest
      rw [List.map_map, List.map_map, Value.ofMembers] at hreads
      have hvalues : members.map ((fun f => (f.1, f.2.2)) ∘ fun m => (m.1, m.2.chars, m.2)) =
          members := List.map_id members
      rw [hvalues, membersOf_of_pairwise hkeys] at hreads
      rw [chars_object]
      exact hreads

/-! ## No newline is written -/

theorem newline_notMem_behindCommas {α : Type} {write : α → List Char} {as : List α}
    (h : ∀ a ∈ as, '\n' ∉ write a) : '\n' ∉ behindCommas write as := by
  simp only [behindCommas, List.mem_flatMap, List.mem_cons, not_exists, not_and, not_or]
  exact fun a ha => ⟨by decide, h a ha⟩

theorem newline_notMem_bodyChars {fields : List (String × List Char)}
    (h : ∀ f ∈ fields, '\n' ∉ f.2) : '\n' ∉ bodyChars fields := by
  have hmember : ∀ f ∈ fields, '\n' ∉ memberChars f := by
    intro f hf
    simp only [memberChars, List.mem_append, List.mem_cons, not_or]
    exact ⟨newline_notMem_stringChars f.1, by decide, h f hf⟩
  cases fields with
  | nil => simp [bodyChars]
  | cons m ms =>
      rw [bodyChars, List.mem_append, not_or]
      exact ⟨hmember m (by simp),
        newline_notMem_behindCommas fun f hf => hmember f (by simp [hf])⟩

theorem newline_notMem_recordChars {fields : List (String × List Char)}
    (h : ∀ f ∈ fields, '\n' ∉ f.2) : '\n' ∉ recordChars fields := by
  have hbody := newline_notMem_bodyChars h
  rw [recordChars_eq]
  simp [hbody]

theorem newline_notMem_integer (i : Int) : '\n' ∉ (toString i).toList := by
  have hdigits : ∀ n, '\n' ∉ Nat.toDigits 10 n := fun n hmem =>
    absurd (isDigit_of_mem_toDigits hmem) (by decide)
  rw [toList_toString_int]
  split
  · exact hdigits _
  · simp [hdigits]

theorem newline_notMem_chars {levels : Nat} {v : Value} (h : ReadsBack levels v) :
    '\n' ∉ v.chars := by
  induction h with
  | null => rw [Value.chars]; decide
  | bool b => cases b <;> (rw [Value.chars]; decide)
  | integer hlow hhigh => rw [Value.chars]; exact newline_notMem_integer _
  | string s => rw [Value.chars]; exact newline_notMem_stringChars s
  | @array levels items hitems ih =>
      rw [Value.chars]
      cases items with
      | nil => simp [itemsChars]
      | cons v vs =>
          have hmore : '\n' ∉ behindCommas Value.chars vs :=
            newline_notMem_behindCommas fun w hw => ih w (by simp [hw])
          simp [itemsChars_cons, ih v (by simp), hmore]
  | @object levels members hkeys hmembers ih =>
      rw [chars_object]
      exact newline_notMem_recordChars fun f hf => by
        obtain ⟨m, hm, rfl⟩ := List.mem_map.1 hf
        exact ih m hm

end PluginHost.Json

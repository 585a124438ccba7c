import PluginHost.Text.CodePoints

/-!
# Blank characters

The white space that is cut off at the ends of a line and between words: the characters of the
Unicode property White_Space.
-/

namespace PluginHost.Text

/-- The code points of the property White_Space. -/
def blankRanges : List (Nat × Nat) := [
  (0x9, 0xd), (0x20, 0x20), (0x85, 0x85), (0xa0, 0xa0), (0x1680, 0x1680), (0x2000, 0x200a),
  (0x2028, 0x2029), (0x202f, 0x202f), (0x205f, 0x205f), (0x3000, 0x3000)]

/-- A character of white space. -/
def isBlank (c : Char) : Bool := inRanges blankRanges c.toNat

/-- The characters without the blanks at the start. -/
def trimStart (cs : List Char) : List Char := cs.dropWhile isBlank

/-- The characters without the blanks at the end. -/
def trimEnd (cs : List Char) : List Char := (trimStart cs.reverse).reverse

/-- The characters without the blanks at both ends. -/
def trimChars (cs : List Char) : List Char := trimEnd (trimStart cs)

/-- The text without the blanks at both ends. -/
def trim (s : String) : String := String.ofList (trimChars s.toList)

/-- A text of white space alone. -/
def isAllBlank (cs : List Char) : Bool := cs.all isBlank

/-- The first run of characters that are not blank. -/
def firstWord (cs : List Char) : List Char := (trimStart cs).takeWhile (!isBlank ·)

/-- The parts of a list between the members equal to `sep`; there is one more than separators. -/
def splitOn {α : Type} [BEq α] (sep : α) : List α → List (List α)
  | [] => [[]]
  | c :: rest =>
      if c == sep then [] :: splitOn sep rest
      else
        match splitOn sep rest with
        | part :: parts => (c :: part) :: parts
        | [] => [[c]]

theorem splitOn_ne_nil {α : Type} [BEq α] (sep : α) (cs : List α) : splitOn sep cs ≠ [] := by
  cases cs with
  | nil => simp [splitOn]
  | cons c rest =>
      simp only [splitOn]
      split
      · simp
      · split <;> simp

theorem splitOn_of_notMem {α : Type} [BEq α] [LawfulBEq α] {sep : α} {cs : List α} (h : sep ∉ cs) :
    splitOn sep cs = [cs] := by
  induction cs with
  | nil => rfl
  | cons c cs ih =>
      have hc : ¬(c == sep) = true := by
        rw [beq_iff_eq]
        rintro rfl
        exact h (by simp)
      rw [splitOn, if_neg hc, ih fun hmem => h (by simp [hmem])]

theorem splitOn_append_cons {α : Type} [BEq α] [LawfulBEq α] (sep : α) (front back : List α) :
    splitOn sep (front ++ sep :: back) = splitOn sep front ++ splitOn sep back := by
  induction front with
  | nil =>
      show splitOn sep (sep :: back) = [[]] ++ splitOn sep back
      rw [splitOn, if_pos (beq_self_eq_true sep), List.singleton_append]
  | cons c front ih =>
      rw [List.cons_append, splitOn, splitOn, ih]
      split
      · rfl
      · cases hfront : splitOn sep front with
        | nil => exact absurd hfront (splitOn_ne_nil sep front)
        | cons part parts => rfl

/-- Parts that are put together with separators between them are cut apart again. -/
theorem splitOn_intercalate {α : Type} [BEq α] [LawfulBEq α] {sep : α} {parts : List (List α)}
    (hne : parts ≠ []) (h : ∀ part ∈ parts, sep ∉ part) :
    splitOn sep ([sep].intercalate parts) = parts := by
  induction parts with
  | nil => exact absurd rfl hne
  | cons part parts ih =>
      have hpart : sep ∉ part := h part (by simp)
      cases parts with
      | nil => rw [List.intercalate_singleton, splitOn_of_notMem hpart]
      | cons next parts =>
          rw [List.intercalate_cons_cons, List.append_assoc, List.singleton_append,
            splitOn_append_cons, splitOn_of_notMem hpart,
            ih (by simp) fun p hp => h p (by simp [hp]), List.singleton_append]

theorem notMem_intercalate {α : Type} {sep : List α} {parts : List (List α)} {c : α}
    (hsep : c ∉ sep) (h : ∀ part ∈ parts, c ∉ part) : c ∉ sep.intercalate parts := by
  induction parts with
  | nil => simp
  | cons part parts ih =>
      have hpart : c ∉ part := h part (by simp)
      have hrest := ih fun p hp => h p (by simp [hp])
      cases parts with
      | nil => rwa [List.intercalate_singleton]
      | cons next parts =>
          rw [List.intercalate_cons_cons]
          simp only [List.mem_append, not_or]
          exact ⟨⟨hpart, hsep⟩, hrest⟩

/-- No part contains the separator. -/
theorem notMem_of_mem_splitOn {α : Type} [BEq α] [LawfulBEq α] {sep : α} {cs part : List α}
    (h : part ∈ splitOn sep cs) : sep ∉ part := by
  induction cs generalizing part with
  | nil =>
      have hnil : part = [] := by simpa [splitOn] using h
      rw [hnil]
      exact List.not_mem_nil
  | cons c cs ih =>
      rw [splitOn] at h
      split at h
      · rcases List.mem_cons.1 h with rfl | hrest
        · exact List.not_mem_nil
        · exact ih hrest
      · rename_i hc
        split at h
        · rename_i first parts heq
          rw [heq] at ih
          rcases List.mem_cons.1 h with rfl | hrest
          · have hfirst : sep ∉ first := ih (by simp)
            intro hmem
            rcases List.mem_cons.1 hmem with rfl | hmem
            · exact hc (beq_self_eq_true _)
            · exact hfirst hmem
          · exact ih (by simp [hrest])
        · rename_i heq
          exact absurd heq (splitOn_ne_nil sep cs)

/-- The parts with separators between them are what was cut. -/
theorem intercalate_splitOn {α : Type} [BEq α] [LawfulBEq α] (sep : α) (cs : List α) :
    [sep].intercalate (splitOn sep cs) = cs := by
  induction cs with
  | nil => rfl
  | cons c cs ih =>
      obtain ⟨part, parts, hparts⟩ := List.exists_cons_of_ne_nil (splitOn_ne_nil sep cs)
      rw [hparts] at ih
      rw [splitOn, hparts]
      split
      · rename_i hc
        rw [List.intercalate_cons_cons, ih, eq_of_beq hc]
        rfl
      · cases parts with
        | nil => rw [List.intercalate_singleton] at ih ⊢; rw [ih]
        | cons next parts =>
            rw [List.intercalate_cons_cons] at ih ⊢
            rw [List.cons_append, List.cons_append, ih]

/-- The parts of a list are determined by two things: no part contains the separator, and with
separators between them they are the list. -/
theorem splitOn_eq_iff {α : Type} [BEq α] [LawfulBEq α] {sep : α} {cs : List α}
    {parts : List (List α)} :
    splitOn sep cs = parts ↔
      parts ≠ [] ∧ (∀ part ∈ parts, sep ∉ part) ∧ cs = [sep].intercalate parts := by
  constructor
  · rintro rfl
    exact ⟨splitOn_ne_nil sep cs, fun part hpart => notMem_of_mem_splitOn hpart,
      (intercalate_splitOn sep cs).symm⟩
  · rintro ⟨hne, hnone, rfl⟩
    exact splitOn_intercalate hne hnone

end PluginHost.Text

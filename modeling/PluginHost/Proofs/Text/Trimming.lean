import PluginHost.Text.Blank
import PluginHost.Text.Numeral

/-!
# Texts without the blanks around them

What is left of a text when the blanks around it are cut off is told by `TrimsTo`: the text is its
body with blanks around it, and the body neither starts nor ends with one.  There is one such body
(`trimChars_eq_iff`).  `TrimsEndTo` tells the same of the blanks at the end alone.
-/

namespace PluginHost.Text

theorem trimStart_of_head {cs : List Char} (h : ∀ c ∈ cs.head?, isBlank c = false) :
    trimStart cs = cs := by
  cases cs with
  | nil => rfl
  | cons c cs => rw [trimStart, List.dropWhile_cons_of_neg (by simp [h c rfl])]

theorem head?_trimStart (cs : List Char) : ∀ c ∈ (trimStart cs).head?, isBlank c = false := by
  induction cs with
  | nil => simp [trimStart]
  | cons d cs ih =>
      rw [trimStart, List.dropWhile_cons]
      split
      · exact ih
      · rename_i hd
        rintro c ⟨⟩
        simpa using hd

/-- Blanks in front of a text are cut off at its start. -/
theorem trimStart_append {cs blanks : List Char} (hblanks : ∀ c ∈ blanks, isBlank c = true)
    (hfirst : ∀ c ∈ cs.head?, isBlank c = false) : trimStart (blanks ++ cs) = cs := by
  rw [trimStart, List.dropWhile_append_of_pos hblanks]
  exact trimStart_of_head hfirst

/-- At the start of a text, a run of blanks is cut off. -/
theorem exists_blanks_trimStart (cs : List Char) :
    ∃ blanks, cs = blanks ++ trimStart cs ∧ ∀ c ∈ blanks, isBlank c = true := by
  refine ⟨cs.takeWhile isBlank, (List.takeWhile_append_dropWhile ..).symm, fun c hc => ?_⟩
  exact List.all_eq_true.1 List.all_takeWhile c hc

/-- The text is the body with blanks behind it, and the body does not end with a blank. -/
structure TrimsEndTo (cs body : List Char) : Prop where
  behind : ∃ blanks, cs = body ++ blanks ∧ ∀ c ∈ blanks, isBlank c = true
  last : ∀ c ∈ body.getLast?, isBlank c = false

theorem trimEnd_trimsEndTo (cs : List Char) : TrimsEndTo cs (trimEnd cs) := by
  obtain ⟨blanks, hblanks, hall⟩ := exists_blanks_trimStart cs.reverse
  refine ⟨⟨blanks.reverse, ?_, by simpa using hall⟩, ?_⟩
  · have hcut := congrArg List.reverse hblanks
    rwa [List.reverse_reverse, List.reverse_append] at hcut
  · rw [trimEnd, List.getLast?_reverse]
    exact head?_trimStart _

/-- The text is the body with blanks around it, and the body neither starts nor ends with a
blank. -/
structure TrimsTo (cs body : List Char) : Prop where
  around : ∃ before behind, cs = before ++ body ++ behind ∧ (∀ c ∈ before, isBlank c = true) ∧
    ∀ c ∈ behind, isBlank c = true
  first : ∀ c ∈ body.head?, isBlank c = false
  last : ∀ c ∈ body.getLast?, isBlank c = false

theorem trimChars_trimsTo (cs : List Char) : TrimsTo cs (trimChars cs) := by
  obtain ⟨before, hbefore, hbeforeBlank⟩ := exists_blanks_trimStart cs
  obtain ⟨⟨behind, hbody, hbehindBlank⟩, hlast⟩ := trimEnd_trimsEndTo (trimStart cs)
  have hfirst : ∀ c ∈ (trimChars cs).head?, isBlank c = false := by
    intro c hc
    have hhead : (trimEnd (trimStart cs)).head? = some c := hc
    apply head?_trimStart cs c
    rw [hbody, List.head?_append, hhead, Option.some_or]
    rfl
  refine ⟨⟨before, behind, ?_, hbeforeBlank, hbehindBlank⟩, hfirst, hlast⟩
  rw [List.append_assoc]
  exact hbefore.trans (congrArg (before ++ ·) hbody)

theorem TrimsTo.trimChars_eq {cs body : List Char} (h : TrimsTo cs body) : trimChars cs = body := by
  obtain ⟨⟨before, behind, rfl, hbefore, hbehind⟩, hfirst, hlast⟩ := h
  have hreversed : ∀ c ∈ behind.reverse, isBlank c = true := by simpa using hbehind
  by_cases hnil : body = []
  · subst hnil
    rw [List.append_nil, trimChars, trimStart,
      List.dropWhile_append_of_pos hbefore, ← trimStart, ← List.append_nil behind,
      trimStart_append hbehind (by simp)]
    rfl
  · have hstart : trimStart (before ++ body ++ behind) = body ++ behind := by
      rw [List.append_assoc]
      apply trimStart_append hbefore
      obtain ⟨c, rest, rfl⟩ := List.exists_cons_of_ne_nil hnil
      exact hfirst
    have hend : trimStart (body ++ behind).reverse = body.reverse := by
      rw [List.reverse_append]
      apply trimStart_append hreversed
      rwa [List.head?_reverse]
    rw [trimChars, hstart, trimEnd, hend, List.reverse_reverse]

/-- A text has one body. -/
theorem trimChars_eq_iff {cs body : List Char} : trimChars cs = body ↔ TrimsTo cs body := by
  constructor
  · rintro rfl
    exact trimChars_trimsTo cs
  · exact TrimsTo.trimChars_eq

/-- The visible characters of ASCII are not cut off. -/
theorem isBlank_of_visible {c : Char} (hlow : 33 ≤ c.toNat) (hhigh : c.toNat ≤ 126) :
    isBlank c = false := by
  rw [Bool.eq_false_iff, ne_eq, isBlank, inRanges_iff]
  rintro ⟨r, hr, hfirst, hlast⟩
  simp only [blankRanges, List.mem_cons, List.not_mem_nil, or_false] at hr
  rcases hr with rfl | rfl | rfl | rfl | rfl | rfl | rfl | rfl | rfl | rfl <;> simp at * <;> omega

/-- Digits are not cut off. -/
theorem isBlank_of_isDigit {c : Char} (h : isDigit c = true) : isBlank c = false := by
  simp only [isDigit, Bool.and_eq_true, decide_eq_true_eq, Char.le_def, UInt32.le_iff_toNat_le] at h
  have hlow : 48 ≤ c.toNat := h.1
  have hhigh : c.toNat ≤ 57 := h.2
  exact isBlank_of_visible (by omega) (by omega)

end PluginHost.Text

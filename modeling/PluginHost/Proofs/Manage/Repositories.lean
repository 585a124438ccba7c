import Mathlib.Data.List.Basic
import Mathlib.Tactic.SplitIfs
import PluginHost.Manage.Install
import PluginHost.Proofs.Text.Trimming

/-!
# Which texts name a repository

`Repository.url` writes the URL of a repository, and `Repository.IsWellNamed` says which names can
stand in it.  A text is accepted if it is the URL of a well-named repository with blanks around it
(`parse?_eq_some_iff`).  No name holds a slash, so the URL falls apart in one way only
(`splitOn_url`), and no name ends in a blank, so nothing of the URL is cut off (`trimsTo_url`).
-/

namespace PluginHost.Manage

open Text

/-- The name of an owner: letters and digits of ASCII and hyphens, and at least one of them. -/
def IsOwnerName (s : String) : Prop :=
  s ≠ "" ∧ ∀ c ∈ s.toList, c.isAlphanum = true ∨ c = '-'

/-- The name of a repository: letters and digits of ASCII, dots, underscores and hyphens, and at
least one of them. -/
def IsRepositoryName (s : String) : Prop :=
  s ≠ "" ∧ ∀ c ∈ s.toList, c.isAlphanum = true ∨ c = '.' ∨ c = '_' ∨ c = '-'

namespace Repository

/-- Both names of the repository can stand in a URL. -/
structure IsWellNamed (r : Repository) : Prop where
  owner : IsOwnerName r.owner
  name : IsRepositoryName r.name

/-- The URL of a repository. -/
def url (r : Repository) : String := "github.com/" ++ r.owner ++ "/" ++ r.name

end Repository

/-! ## The characters of names -/

theorem isAlphanum_iff {c : Char} : c.isAlphanum = true ↔
    (('A' ≤ c ∧ c ≤ 'Z') ∨ ('a' ≤ c ∧ c ≤ 'z')) ∨ ('0' ≤ c ∧ c ≤ '9') := by
  change ((decide ('A' ≤ c ∧ c ≤ 'Z') || (decide ('a' ≤ c) && decide (c ≤ 'z'))) ||
    (decide ('0' ≤ c) && decide (c ≤ '9'))) = true ↔ _
  simp only [Bool.or_eq_true, Bool.and_eq_true, decide_eq_true_eq]

theorem isAlphanumeric_eq (c : Char) : isAlphanumeric c = c.isAlphanum := by
  rw [Bool.eq_iff_iff, isAlphanum_iff]
  simp [isAlphanumeric, or_comm]

theorem isWordOf_isOwnerChar_iff {s : String} :
    isWordOf isOwnerChar s.toList = true ↔ IsOwnerName s := by
  simp [isWordOf, isOwnerChar, IsOwnerName, isAlphanumeric_eq]

theorem isWordOf_isRepositoryChar_iff {s : String} :
    isWordOf isRepositoryChar s.toList = true ↔ IsRepositoryName s := by
  simp [isWordOf, isRepositoryChar, IsRepositoryName, isAlphanumeric_eq, or_assoc]

theorem IsOwnerName.slash_notMem {s : String} (h : IsOwnerName s) : '/' ∉ s.toList := by
  intro hmem
  rcases h.2 _ hmem with hslash | hslash <;> contradiction

theorem IsRepositoryName.slash_notMem {s : String} (h : IsRepositoryName s) : '/' ∉ s.toList := by
  intro hmem
  rcases h.2 _ hmem with hslash | hslash | hslash | hslash <;> contradiction

theorem isBlank_of_isAlphanum {c : Char} (h : c.isAlphanum = true) : isBlank c = false := by
  rw [isAlphanum_iff] at h
  change ((65 ≤ c.toNat ∧ c.toNat ≤ 90) ∨ (97 ≤ c.toNat ∧ c.toNat ≤ 122)) ∨
    (48 ≤ c.toNat ∧ c.toNat ≤ 57) at h
  apply isBlank_of_visible <;> omega

theorem IsRepositoryName.not_blank {s : String} (h : IsRepositoryName s) :
    ∀ c ∈ s.toList, isBlank c = false := by
  intro c hc
  rcases h.2 c hc with hclass | rfl | rfl | rfl
  · exact isBlank_of_isAlphanum hclass
  all_goals decide

/-! ## URLs -/

theorem toList_url (r : Repository) :
    r.url.toList = siteName ++ '/' :: (r.owner.toList ++ '/' :: r.name.toList) := by
  have hsite : "github.com/".toList = siteName ++ ['/'] := by decide
  have hslash : "/".toList = ['/'] := rfl
  rw [Repository.url, String.toList_append, String.toList_append, String.toList_append, hsite, hslash]
  simp only [List.append_assoc, List.cons_append, List.nil_append]

/-- The URL of a well-named repository falls apart into the site and the two names. -/
theorem splitOn_url {r : Repository} (h : r.IsWellNamed) :
    splitOn '/' r.url.toList = [siteName, r.owner.toList, r.name.toList] := by
  have hsite : '/' ∉ siteName := by decide
  rw [toList_url, splitOn_append_cons, splitOn_append_cons, splitOn_of_notMem hsite,
    splitOn_of_notMem h.owner.slash_notMem, splitOn_of_notMem h.name.slash_notMem]
  rfl

/-- No blank is cut off at the ends of a URL. -/
theorem trimsTo_url {r : Repository} (h : r.IsWellNamed) : TrimsTo r.url.toList r.url.toList := by
  refine ⟨⟨[], [], by simp, nofun, nofun⟩, ?_, ?_⟩
  · intro c hc
    rw [toList_url] at hc
    cases hc
    decide
  · intro c hc
    have hcut : r.url.toList = (siteName ++ '/' :: r.owner.toList ++ ['/']) ++ r.name.toList := by
      rw [toList_url]
      simp only [List.append_assoc, List.cons_append, List.nil_append]
    have hne : r.name.toList ≠ [] := mt String.toList_eq_nil_iff.1 h.name.1
    rw [hcut, List.getLast?_append_of_ne_nil _ hne] at hc
    exact h.name.not_blank c (List.mem_of_getLast? hc)

/-- A text is accepted as a repository if it is its URL with blanks around it. -/
theorem parse?_eq_some_iff {text : String} {r : Repository} :
    Repository.parse? text = some r ↔ r.IsWellNamed ∧ TrimsTo text.toList r.url.toList := by
  rw [← trimChars_eq_iff]
  unfold Repository.parse?
  constructor
  · intro h
    split at h
    · rename_i site owner name hparts
      split_ifs at h with hnames
      cases h
      simp only [Bool.and_eq_true, beq_iff_eq] at hnames
      obtain ⟨⟨rfl, howner⟩, hname⟩ := hnames
      refine ⟨⟨isWordOf_isOwnerChar_iff.1 (by simpa using howner),
        isWordOf_isRepositoryChar_iff.1 (by simpa using hname)⟩, ?_⟩
      rw [(splitOn_eq_iff.1 hparts).2.2, toList_url]
      simp [List.intercalate_cons_cons]
    · cases h
  · rintro ⟨hnamed, htrim⟩
    rw [htrim, splitOn_url hnamed]
    dsimp only
    rw [isWordOf_isOwnerChar_iff.2 hnamed.owner, isWordOf_isRepositoryChar_iff.2 hnamed.name,
      beq_self_eq_true, String.ofList_toList, String.ofList_toList]
    rfl

/-- A URL names one repository. -/
theorem url_injective {r other : Repository} (hr : r.IsWellNamed) (hother : other.IsWellNamed)
    (h : r.url = other.url) : r = other := by
  have hparts := splitOn_url hr
  rw [h, splitOn_url hother] at hparts
  simp only [List.cons.injEq, String.toList_inj, and_true, true_and] at hparts
  cases r
  cases other
  simp_all

/-- What names a repository.  A text is accepted as a repository exactly if it is, but for blanks
around it, the site, a slash, the name of an owner, a slash, and the name of a repository.  There is
one such repository, and its own URL is accepted as well.  Every other text is refused, and the
refusal holds the text as it was given, with its blanks. -/
theorem repositoryOf_grammar (text : String) :
    (∀ r, repositoryOf text = .ok r ↔ r.IsWellNamed ∧ TrimsTo text.toList r.url.toList) ∧
    (∀ r other : Repository, r.IsWellNamed ∧ TrimsTo text.toList r.url.toList →
      other.IsWellNamed ∧ TrimsTo text.toList other.url.toList → r = other) ∧
    (∀ r, repositoryOf text = .ok r → repositoryOf r.url = .ok r) ∧
    (∀ e, repositoryOf text = .error e ↔ e = .invalidUrl text ∧
      ¬∃ r : Repository, r.IsWellNamed ∧ TrimsTo text.toList r.url.toList) := by
  have haccepts : ∀ (text : String) (r : Repository), repositoryOf text = .ok r ↔
      r.IsWellNamed ∧ TrimsTo text.toList r.url.toList := by
    intro text r
    rw [← parse?_eq_some_iff, repositoryOf]
    cases Repository.parse? text <;> simp
  refine ⟨haccepts text, ?_, ?_, ?_⟩
  · rintro r other ⟨hr, htrims⟩ ⟨hother, htrims'⟩
    have hsame := htrims.trimChars_eq.symm.trans htrims'.trimChars_eq
    exact url_injective hr hother (String.toList_inj.1 hsame)
  · intro r hr
    have hnamed := ((haccepts text r).1 hr).1
    exact (haccepts r.url r).2 ⟨hnamed, trimsTo_url hnamed⟩
  · intro e
    simp only [← parse?_eq_some_iff, repositoryOf]
    cases Repository.parse? text with
    | none => simp [eq_comm]
    | some r => simp

/-- Blanks and a newline around a URL do not matter. -/
theorem repositoryOf_grammar_blanks :
    repositoryOf " github.com/acme/a_b.c\n" = .ok ⟨"acme", "a_b.c"⟩ ∧
      repositoryOf "github.com/acme/a_b.c" = .ok ⟨"acme", "a_b.c"⟩ := by
  obtain ⟨haccepts, -, hagain, -⟩ := repositoryOf_grammar " github.com/acme/a_b.c\n"
  have hnamed : (⟨"acme", "a_b.c"⟩ : Repository).IsWellNamed :=
    ⟨isWordOf_isOwnerChar_iff.1 (by decide), isWordOf_isRepositoryChar_iff.1 (by decide)⟩
  have hself := trimsTo_url hnamed
  have hblanks : TrimsTo " github.com/acme/a_b.c\n".toList
      (⟨"acme", "a_b.c"⟩ : Repository).url.toList := by
    refine ⟨⟨[' '], ['\n'], rfl, ?_, ?_⟩, hself.first, hself.last⟩
    · exact List.forall_mem_singleton.2 (by decide)
    · exact List.forall_mem_singleton.2 (by decide)
  have hok := (haccepts _).2 ⟨hnamed, hblanks⟩
  exact ⟨hok, hagain _ hok⟩

end PluginHost.Manage

import PluginHost.Archive.EntryPath
import PluginHost.Proofs.Files.Walking

/-!
# What is left of a path

The path of an entry is cleaned part by part: a path that starts at the root or goes up is refused
(`cleanPath_of_leadsOut`), and of any other one the parts that are neither empty nor a dot are left
(`namesOf`).  So a path is accepted exactly if it does not lead out and something is left of it
(`cleanPath_eq_ok_iff`); `cleanPath_eq` puts the verdicts in their order.

What is left is a path of names (`cleanPath_ok`).  `IsClean` collects what such a path is good for:
cleaning it again changes nothing, and it stays below whatever it is put behind.
-/

namespace PluginHost.Archive

open PluginHost.Path FileTree

/-- The path starts at the root, or goes up. -/
def LeadsOut (p : Path) : Prop := isAbsolute p = true ∨ [dot, dot] ∈ parts p

instance (p : Path) : Decidable (LeadsOut p) := inferInstanceAs (Decidable (_ ∨ _))

/-- The parts of a path that are neither empty nor a dot. -/
def namesOf (p : Path) : List Bytes := (parts p).filter fun part => part ≠ [] ∧ part ≠ [dot]

/-- The path does not lead out, and something is left of it. -/
structure IsSafePath (p : Path) : Prop where
  inside : ¬LeadsOut p
  nonempty : namesOf p ≠ []

/-! ## Parts and steps -/

theorem componentOf_eq_some_up_iff {part : Bytes} :
    componentOf part = some .up ↔ part = [dot, dot] := by
  unfold componentOf
  split
  · rename_i hhere
    have hne : part ≠ [dot, dot] := by
      rintro rfl
      exact absurd hhere (by decide)
    simp [hne]
  · split
    · rename_i hup
      simpa using hup
    · rename_i hup
      simpa using hup

theorem any_leadsOut_filterMap (all : List Bytes) :
    (all.filterMap componentOf).any leadsOut = true ↔ [dot, dot] ∈ all := by
  simp only [List.any_eq_true, List.mem_filterMap]
  constructor
  · rintro ⟨step, ⟨part, hpart, hstep⟩, hout⟩
    cases step with
    | up =>
        rw [componentOf_eq_some_up_iff] at hstep
        rwa [← hstep]
    | root =>
        unfold componentOf at hstep
        split at hstep
        · cases hstep
        · split at hstep <;> cases hstep
    | here => cases hout
    | name bytes => cases hout
  · intro hmem
    exact ⟨.up, ⟨_, hmem, componentOf_eq_some_up_iff.2 rfl⟩, rfl⟩

/-- Where no part goes up, the names in the steps are the parts that count. -/
theorem names_filterMap_componentOf {all : List Bytes} (h : [dot, dot] ∉ all) :
    names (all.filterMap componentOf) = all.filter fun part => part ≠ [] ∧ part ≠ [dot] := by
  induction all with
  | nil => rfl
  | cons part rest ih =>
      have hup : part ≠ [dot, dot] := by
        rintro rfl
        exact h (by simp)
      have hrest := ih fun hmem => h (by simp [hmem])
      by_cases hcounts : part ≠ [] ∧ part ≠ [dot]
      · rw [List.filterMap_cons_some (componentOf_of_ne hcounts.1 hcounts.2 hup),
          List.filter_cons_of_pos (by simpa using hcounts), ← hrest]
        rfl
      · have hnone : componentOf part = none := by
          unfold componentOf
          rw [if_pos]
          simpa [or_iff_not_imp_left] using hcounts
        rw [List.filterMap_cons_none hnone, List.filter_cons_of_neg (by simpa using hcounts), hrest]

/-! ## Cleaning -/

theorem any_leadsOut_components (p : Path) :
    (components p).any leadsOut = true ↔ LeadsOut p := by
  rw [components_eq, List.any_append, Bool.or_eq_true, any_leadsOut_filterMap, LeadsOut]
  by_cases habsolute : isAbsolute p = true
  · simp [habsolute, leadsOut]
  · have hstart : ∀ steps : List Component, steps = [.here] ∨ steps = [] →
        steps.any leadsOut = false := by
      rintro steps (rfl | rfl) <;> rfl
    rw [if_neg habsolute, hstart _ (by split <;> simp)]
    simp [habsolute]

theorem cleanPath_of_leadsOut {p : Path} (h : LeadsOut p) : cleanPath p = .error (.unsafePath p) := by
  unfold cleanPath
  dsimp only
  rw [if_pos ((any_leadsOut_components p).2 h)]

theorem cleanPath_of_not_leadsOut {p : Path} (h : ¬LeadsOut p) :
    cleanPath p = if namesOf p = [] then .error .emptyPath else .ok (ofNames (namesOf p)) := by
  obtain ⟨hrelative, hup⟩ := not_or.1 h
  have hnames : names (components p) = namesOf p := by
    rw [components_eq, if_neg hrelative, namesOf, ← names_filterMap_componentOf hup]
    split <;> rfl
  unfold cleanPath
  dsimp only
  rw [if_neg (mt (any_leadsOut_components p).1 h), hnames]
  cases namesOf p with
  | nil => rfl
  | cons name rest => rfl

/-- Safe paths are accepted, and no others. -/
theorem cleanPath_eq_ok_iff {p q : Path} :
    cleanPath p = .ok q ↔ IsSafePath p ∧ q = ofNames (namesOf p) := by
  by_cases hout : LeadsOut p
  · rw [cleanPath_of_leadsOut hout]
    exact ⟨nofun, fun ⟨hsafe, _⟩ => absurd hout hsafe.inside⟩
  · rw [cleanPath_of_not_leadsOut hout]
    by_cases hnil : namesOf p = []
    · rw [if_pos hnil]
      exact ⟨nofun, fun ⟨hsafe, _⟩ => absurd hnil hsafe.nonempty⟩
    · rw [if_neg hnil, Except.ok.injEq]
      exact ⟨fun h => ⟨⟨hout, hnil⟩, h.symm⟩, fun h => h.2.symm⟩

theorem IsSafePath.clean {p : Path} (h : IsSafePath p) : cleanPath p = .ok (ofNames (namesOf p)) :=
  cleanPath_eq_ok_iff.2 ⟨h, rfl⟩

theorem IsSafePath.areNames {p : Path} (h : IsSafePath p) : AreNames (namesOf p) := by
  intro part hpart
  obtain ⟨hmem, hcounts⟩ := List.mem_filter.1 hpart
  obtain ⟨hnil, hdot⟩ := of_decide_eq_true hcounts
  refine ⟨hnil, hdot, ?_, Text.notMem_of_mem_splitOn hmem⟩
  rintro rfl
  exact h.inside (.inr hmem)

/-- The path of an entry is cleaned to a path of names. -/
theorem cleanPath_ok {p q : Path} (h : cleanPath p = .ok q) :
    ∃ names, names ≠ [] ∧ AreNames names ∧ q = ofNames names := by
  obtain ⟨hsafe, hq⟩ := cleanPath_eq_ok_iff.1 h
  exact ⟨namesOf p, hsafe.nonempty, hsafe.areNames, hq⟩

theorem namesOf_eq_nil_iff {p : Path} :
    namesOf p = [] ↔ ∀ part ∈ parts p, part = [] ∨ part = [dot] := by
  rw [namesOf, List.filter_eq_nil_iff]
  refine forall₂_congr fun part _ => ?_
  rw [decide_eq_true_eq, not_and_or, not_not, not_not]

/-- The verdicts on a path in their order: that it leads out is found before that nothing is left
of it. -/
theorem cleanPath_eq (p : Path) :
    cleanPath p =
      if LeadsOut p then .error (.unsafePath p)
      else if ∀ part ∈ parts p, part = [] ∨ part = [dot] then .error .emptyPath
      else .ok (ofNames (namesOf p)) := by
  by_cases hout : LeadsOut p
  · rw [if_pos hout, cleanPath_of_leadsOut hout]
  · rw [if_neg hout, cleanPath_of_not_leadsOut hout]
    exact if_congr namesOf_eq_nil_iff rfl rfl

/-! ## Clean paths -/

/-- What is known of a path that is these names, with single slashes between them: what its parts
and its steps are, that cleaning keeps it, and where it leads behind a directory. -/
structure IsClean (q : Path) (names : List Bytes) : Prop where
  nonempty : names ≠ []
  relative : isAbsolute q = false
  parts_eq : parts q = names
  steps_eq : components q = names.map .name
  kept : cleanPath q = .ok q
  /-- Behind a directory it goes down name by name. -/
  descends : ∀ dir, join dir q = names.foldl join dir
  /-- Behind a directory its names are further steps. -/
  below : ∀ dir, components (join dir q) = components dir ++ names.map .name
  /-- Where no links are, what it leads to stands below the directory. -/
  located : ∀ {t : FileTree} {dir : Path} {d l : Location} {follow : Bool}, OpensAt t dir d →
    NoLinkFrom t d → t.locate follow (join dir q) = .ok l → l = d ++ names

section Names

variable {names : List Bytes} (hne : names ≠ []) (h : AreNames names)

include hne h

theorem namesOf_ofNames : namesOf (ofNames names) = names := by
  rw [namesOf, parts_ofNames hne h, List.filter_eq_self]
  intro part hpart
  exact decide_eq_true ⟨(h part hpart).ne_nil, (h part hpart).ne_dot⟩

theorem isSafePath_ofNames : IsSafePath (ofNames names) := by
  refine ⟨?_, by rwa [namesOf_ofNames hne h]⟩
  rintro (habsolute | hup)
  · rw [isAbsolute_ofNames h] at habsolute
    cases habsolute
  · rw [parts_ofNames hne h] at hup
    exact (h _ hup).ne_dots rfl

/-- A path of names is not changed by cleaning. -/
theorem cleanPath_ofNames : cleanPath (ofNames names) = .ok (ofNames names) := by
  rw [(isSafePath_ofNames hne h).clean, namesOf_ofNames hne h]

theorem isClean_ofNames : IsClean (ofNames names) names where
  nonempty := hne
  relative := isAbsolute_ofNames h
  parts_eq := parts_ofNames hne h
  steps_eq := components_ofNames hne h
  kept := cleanPath_ofNames hne h
  descends dir := (foldl_join hne h dir).symm
  below dir := components_join_ofNames dir hne h
  located {_ dir _ _ _} hopens hlinks hlocate := by
    rw [join_ofNames dir h] at hlocate
    exact locate_front_ofNames hopens hlinks hne h hlocate

end Names

/-- Cleaning is decided by the parts of a path, which no slash is in and which are the path when
single slashes are put between them.  A path that starts at the root or has a part that goes up is
refused, whatever else is in it; of any other path the parts are left that are neither empty nor a
dot, if there are any.  What is left is relative, is made of names, is kept when it is cleaned again
and stays below every directory. -/
theorem cleanPath_law (p : Path) :
    ((∀ part ∈ parts p, slash ∉ part) ∧ parts p ≠ [] ∧ ofNames (parts p) = p) ∧
      (cleanPath p =
        if LeadsOut p then .error (.unsafePath p)
        else if ∀ part ∈ parts p, part = [] ∨ part = [dot] then .error .emptyPath
        else .ok (ofNames (namesOf p))) ∧
      ∀ q, cleanPath p = .ok q → IsClean q (namesOf p) := by
  refine ⟨⟨?_, Text.splitOn_ne_nil slash p, Text.intercalate_splitOn slash p⟩, cleanPath_eq p, ?_⟩
  · exact fun part hpart => Text.notMem_of_mem_splitOn hpart
  · intro q hq
    obtain ⟨hsafe, rfl⟩ := cleanPath_eq_ok_iff.1 hq
    exact isClean_ofNames hsafe.nonempty hsafe.areNames

/-- A tree with one directory in another one. -/
def nestedTree : FileTree where
  entries := [([utf8 "d"], .directory), ([utf8 "d", utf8 "bin"], .directory)]
  workingDirectory := []

/-- Dots and slashes in excess go, a name that starts with dots stays, and so does a byte that is no
text. -/
theorem cleanPath_law_dotted :
    cleanPath (utf8 ".//bin/./..." ++ [0xff, slash, slash, dot]) =
        .ok (utf8 "bin/..." ++ [0xff]) ∧
      IsClean (utf8 "bin/..." ++ [0xff]) [utf8 "bin", utf8 "..." ++ [0xff]] ∧
      nestedTree.locate true (join (utf8 "/d") (utf8 "bin/..." ++ [0xff])) =
        .ok ([utf8 "d"] ++ [utf8 "bin", utf8 "..." ++ [0xff]]) := by
  have hcleaned : cleanPath (utf8 ".//bin/./..." ++ [0xff, slash, slash, dot]) =
      .ok (utf8 "bin/..." ++ [0xff]) := by
    decide +kernel
  have hnames : namesOf (utf8 ".//bin/./..." ++ [0xff, slash, slash, dot]) =
      [utf8 "bin", utf8 "..." ++ [0xff]] := by
    decide +kernel
  have hclean := (cleanPath_law _).2.2 _ hcleaned
  rw [hnames] at hclean
  have hopens : OpensAt nestedTree (utf8 "/d") [utf8 "d"] :=
    .inr ⟨by decide, by decide +kernel, by decide +kernel⟩
  have hlinks : NoLinkFrom nestedTree [utf8 "d"] := by
    intro l target _ hlink
    unfold FileTree.get? nestedTree at hlink
    split at hlink
    · cases hlink
    · simp only [entryAt] at hlink
      split at hlink
      · cases hlink
      · split at hlink <;> cases hlink
  have hfound : (nestedTree.locate true
      (join (utf8 "/d") (utf8 "bin/..." ++ [0xff]))).isOk = true := by
    decide +kernel
  refine ⟨hcleaned, hclean, ?_⟩
  cases hlocate : nestedTree.locate true (join (utf8 "/d") (utf8 "bin/..." ++ [0xff])) with
  | error e =>
      rw [hlocate] at hfound
      cases hfound
  | ok l => rw [hclean.located hopens hlinks hlocate]

end PluginHost.Archive

import Mathlib.Data.List.Lex
import Mathlib.Data.List.Sort
import Mathlib.Data.Set.List
import PluginHost.Plugin.Directory
import PluginHost.Proofs.Actions
import PluginHost.Proofs.Files.Tidy

/-!
# What a plugin directory lists

The files in a directory are listed in the order of their paths.  A path has a place in the linear
order of lists of lists of numbers (`placeOf`), and `before_iff` says that the order of paths is that
of their places.  So sorting leaves nothing out of order, and only paths with the same steps share a
place.

`pluginFiles_lists` says of every tidy tree what is listed: each name in the directory that leads to
a file, once.  In terms of the names (`Names`), the order is that of their bytes
(`Lists.exists_names`).
-/

namespace PluginHost

open FileTree

namespace Path

/-! ## The order of paths -/

/-- The place of a step: that of its kind, and among names that of the bytes. -/
def placeOfStep : Component → List Nat
  | .root => [0]
  | .here => [1]
  | .up => [2]
  | .name bytes => 3 :: bytes.map UInt8.toNat

theorem placeOfStep_injective : Function.Injective placeOfStep := by
  intro a b h
  have hbytes : Function.Injective (List.map UInt8.toNat) :=
    List.map_injective_iff.2 fun _ _ => UInt8.toNat_inj.1
  cases a <;> cases b <;> simp_all [placeOfStep, hbytes.eq_iff]

theorem bytesBefore_iff (as bs : Bytes) :
    Bytes.before as bs = true ↔ as.map UInt8.toNat < bs.map UInt8.toNat := by
  induction as generalizing bs with
  | nil => cases bs <;> simp [Bytes.before]
  | cons a as ih =>
      cases bs with
      | nil => simp [Bytes.before]
      | cons b bs =>
          simp [Bytes.before, ih, List.cons_lt_cons_iff, UInt8.lt_iff_toNat_lt, UInt8.toNat_inj]

instance : Std.Irrefl fun a b : Bytes => Bytes.before a b = true :=
  ⟨fun a h => lt_irrefl _ ((bytesBefore_iff a a).1 h)⟩

instance : Std.Antisymm fun a b : Bytes => Bytes.before a b = true :=
  ⟨fun a b hab hba =>
    absurd ((bytesBefore_iff a b).1 hab) (lt_asymm ((bytesBefore_iff b a).1 hba))⟩

theorem componentBefore_iff (a b : Component) :
    componentBefore a b = true ↔ placeOfStep a < placeOfStep b := by
  cases a <;> cases b <;>
    simp [componentBefore, componentBefore.rank, placeOfStep, stepBytes, bytesBefore_iff,
      List.cons_lt_cons_iff]

/-- The place of a path in the order. -/
def placeOf (p : Path) : List (List Nat) := (components p).map placeOfStep

theorem before_iff (p q : Path) : before p q = true ↔ placeOf p < placeOf q := by
  unfold before placeOf
  generalize components p = as
  generalize components q = bs
  induction as generalizing bs with
  | nil => cases bs <;> simp [stepsBefore]
  | cons a as ih =>
      cases bs with
      | nil => simp [stepsBefore]
      | cons b bs =>
          simp [stepsBefore, ih, List.cons_lt_cons_iff, componentBefore_iff,
            placeOfStep_injective.eq_iff]

theorem components_eq_of_placeOf {p q : Path} (h : placeOf p = placeOf q) :
    components p = components q :=
  List.map_injective_iff.2 placeOfStep_injective h

/-- After sorting, no path comes before an earlier one. -/
theorem pairwise_mergeSort_before (files : List Path) :
    (files.mergeSort fun a b => !before b a).Pairwise fun a b => placeOf a ≤ placeOf b := by
  have hle : ∀ a b : Path, (!before b a) = true ↔ placeOf a ≤ placeOf b := by
    intro a b
    rw [Bool.not_eq_true', Bool.eq_false_iff, ne_eq, before_iff, not_lt]
  have hsorted : (files.mergeSort fun a b => !before b a).Pairwise
      fun a b => (!before b a) = true := by
    apply List.pairwise_mergeSort
    · intro a b c hab hbc
      rw [hle] at *
      exact hab.trans hbc
    · intro a b
      rw [Bool.or_eq_true, hle, hle]
      exact le_total _ _
  exact hsorted.imp fun h => (hle _ _).1 h

end Path

namespace FileTree

open PluginHost.Path

/-- What is listed for a directory: the files that the names in it lead to, in the order of their
paths. -/
structure Lists (t : FileTree) (directory : Path) (d : Location) (files : List Path) : Prop where
  sorted : files.Pairwise fun p q => Path.before p q = true
  nodup : files.Nodup
  mem_iff : ∀ p, p ∈ files ↔
    ∃ name, t.get? (d ++ [name]) ≠ none ∧ p = Path.join directory name ∧ t.isFile p = true

/-- The steps of a path in a directory end with the name. -/
theorem components_join_name {directory : Path} (h : directory ≠ []) {name : Bytes}
    (hname : IsName name) :
    components (Path.join directory name) = components directory ++ [.name name] := by
  rw [components_join h (isAbsolute_name hname), parts_name hname,
    List.filterMap_cons_some (componentOf_name hname), List.filterMap_nil]

/-- Names in one directory have different places. -/
theorem placeOf_join_inj {directory : Path} (h : directory ≠ []) {a b : Bytes} (ha : IsName a)
    (hb : IsName b)
    (hplace : placeOf (Path.join directory a) = placeOf (Path.join directory b)) : a = b := by
  have hsteps := components_eq_of_placeOf hplace
  rw [components_join_name h ha, components_join_name h hb] at hsteps
  have hlast : [Component.name a] = [Component.name b] := List.append_cancel_left hsteps
  cases hlast
  rfl

/-- The paths of the files in a directory, not yet in order. -/
def filePaths (t : FileTree) (directory : Path) (d : Location) : List Path :=
  ((t.namesIn d).map (Path.join directory)).filter t.isFile

theorem mem_filePaths_iff {t : FileTree} {directory : Path} {d : Location} {p : Path} :
    p ∈ t.filePaths directory d ↔
      ∃ name ∈ t.namesIn d, p = Path.join directory name ∧ t.isFile p = true := by
  unfold filePaths
  rw [List.mem_filter, List.mem_map]
  constructor
  · rintro ⟨⟨name, hname, rfl⟩, hfile⟩
    exact ⟨name, hname, rfl, hfile⟩
  · rintro ⟨name, hname, rfl, hfile⟩
    exact ⟨⟨name, hname, rfl⟩, hfile⟩

section Tidy

variable {t : FileTree} {directory : Path} {d : Location}

/-- In a tidy tree, the files in a directory have different places. -/
theorem Tidy.eq_of_placeOf (h : Tidy t) (hdirectory : directory ≠ []) {p q : Path}
    (hp : p ∈ t.filePaths directory d) (hq : q ∈ t.filePaths directory d)
    (hplace : placeOf p = placeOf q) : p = q := by
  obtain ⟨a, ha, rfl, -⟩ := mem_filePaths_iff.1 hp
  obtain ⟨b, hb, rfl, -⟩ := mem_filePaths_iff.1 hq
  rw [placeOf_join_inj hdirectory (h.isName_of_mem_namesIn ha) (h.isName_of_mem_namesIn hb) hplace]

theorem Tidy.nodup_filePaths (h : Tidy t) (hdirectory : directory ≠ []) :
    (t.filePaths directory d).Nodup := by
  apply List.Nodup.filter
  apply (h.nodup_namesIn d).map_on
  intro a ha b hb hab
  apply placeOf_join_inj hdirectory (h.isName_of_mem_namesIn ha) (h.isName_of_mem_namesIn hb)
  rw [hab]

/-- The files of a tidy tree are listed where a path leads to a directory. -/
theorem filesIn_lists (h : Tidy t) (hp : t.locate true directory = .ok d)
    (hd : t.get? d = some .directory) :
    ∃ files, t.filesIn directory = .ok files ∧ Lists t directory d files := by
  obtain ⟨-, hdirectory, -, -⟩ := locate_ok hp
  have hfiles : t.filesIn directory =
      .ok ((t.filePaths directory d).mergeSort fun a b => !Path.before b a) := by
    simp only [filesIn, list_of_locate hp hd, bind, Except.bind, pure, Except.pure]
    rfl
  have hnodup : ((t.filePaths directory d).mergeSort fun a b => !Path.before b a).Nodup :=
    List.nodup_mergeSort.2 (h.nodup_filePaths hdirectory)
  refine ⟨_, hfiles, ?_, hnodup, ?_⟩
  · have hsorted := pairwise_mergeSort_before (t.filePaths directory d)
    refine (hsorted.and hnodup).imp_of_mem ?_
    rintro p q hpmem hqmem ⟨hle, hne⟩
    rw [before_iff]
    apply hle.lt_of_ne
    intro hplace
    exact hne (h.eq_of_placeOf hdirectory (List.mem_mergeSort.1 hpmem)
      (List.mem_mergeSort.1 hqmem) hplace)
  · intro p
    rw [List.mem_mergeSort, mem_filePaths_iff]
    simp only [mem_namesIn_iff]

/-! ## Names -/

/-- A name in a directory leads to a file. -/
def HoldsFile (t : FileTree) (directory : Path) (d : Location) (name : Bytes) : Prop :=
  t.get? (d ++ [name]) ≠ none ∧ t.isFile (Path.join directory name) = true

/-- The names in a directory that lead to files, in the order of their bytes. -/
structure Names (t : FileTree) (directory : Path) (d : Location) (names : List Bytes) : Prop where
  sorted : names.Pairwise fun a b => Bytes.before a b = true
  mem_iff : ∀ name, name ∈ names ↔ HoldsFile t directory d name

/-- The order of paths in one directory is that of their names. -/
theorem before_join_iff (hdirectory : directory ≠ []) {a b : Bytes} (ha : IsName a)
    (hb : IsName b) :
    Path.before (Path.join directory a) (Path.join directory b) = true ↔
      Bytes.before a b = true := by
  have hsteps : ∀ steps : List Component,
      stepsBefore (steps ++ [.name a]) (steps ++ [.name b]) = Bytes.before a b := by
    intro steps
    induction steps with
    | nil => simp [stepsBefore, componentBefore, componentBefore.rank, stepBytes]
    | cons step steps ih =>
        have hsame : componentBefore step step = false := by
          rw [Bool.eq_false_iff, ne_eq, componentBefore_iff]
          exact lt_irrefl _
        simp [stepsBefore, ih, hsame]
  rw [Path.before, components_join_name hdirectory ha, components_join_name hdirectory hb, hsteps]

theorem HoldsFile.isName (h : Tidy t) {name : Bytes} (hname : HoldsFile t directory d name) :
    IsName name :=
  h.isName_of_mem_namesIn (mem_namesIn_iff.2 hname.1)

/-- What is listed is what the names lead to, in their order. -/
theorem Lists.exists_names (h : Tidy t) (hdirectory : directory ≠ []) {files : List Path}
    (hfiles : Lists t directory d files) :
    ∃ names, Names t directory d names ∧ files = names.map (Path.join directory) := by
  have hjoined : files ∈ Set.range (List.map fun name : { name // HoldsFile t directory d name } =>
      Path.join directory name) := by
    rw [Set.range_list_map]
    intro p hp
    obtain ⟨name, hthere, rfl, hfile⟩ := (hfiles.mem_iff p).1 hp
    exact ⟨⟨name, hthere, hfile⟩, rfl⟩
  obtain ⟨held, rfl⟩ := hjoined
  refine ⟨held.map (·.val), ⟨?_, fun name => ⟨fun hname => ?_, fun hname => ?_⟩⟩, by simp⟩
  · rw [List.pairwise_map]
    refine (List.pairwise_map.1 hfiles.sorted).imp fun {a b} hbefore => ?_
    exact (before_join_iff hdirectory (a.2.isName h) (b.2.isName h)).1 hbefore
  · obtain ⟨a, -, rfl⟩ := List.mem_map.1 hname
    exact a.2
  · have hlisted := (hfiles.mem_iff _).2 ⟨name, hname.1, rfl, hname.2⟩
    obtain ⟨a, ha, hsame⟩ := List.mem_map.1 hlisted
    have hplace := congrArg placeOf hsame
    rw [← placeOf_join_inj hdirectory (a.2.isName h) (hname.isName h) hplace]
    exact List.mem_map_of_mem ha

/-- Names that are in order and lead to files are among those listed, in their order. -/
theorem Names.sublist {names held : List Bytes} (hnames : Names t directory d names)
    (hsorted : held.Pairwise fun a b => Bytes.before a b = true)
    (hheld : ∀ name ∈ held, HoldsFile t directory d name) : held.Sublist names :=
  List.sublist_of_subperm_of_pairwise
    (List.subperm_of_subset hsorted.nodup fun name hname =>
      (hnames.mem_iff name).2 (hheld name hname)) hsorted hnames.sorted

theorem Names.eq {names names' : List Bytes} (hnames : Names t directory d names)
    (hnames' : Names t directory d names') : names = names' :=
  List.Subset.antisymm_of_pairwise hnames.sorted hnames'.sorted
    (fun name hname => (hnames'.mem_iff name).2 ((hnames.mem_iff name).1 hname))
    fun name hname => (hnames.mem_iff name).2 ((hnames'.mem_iff name).1 hname)

end Tidy

end FileTree

/-- What stands in the plugin directory is listed. -/
theorem pluginFiles_lists {t : FileTree} (h : Tidy t) {directory : Path} {d : Location}
    (hp : t.locate true directory = .ok d) (hd : t.get? d = some .directory) :
    ∃ files, pluginFiles directory t = (.ok files, t) ∧ Lists t directory d files := by
  obtain ⟨files, hfiles, hlists⟩ := filesIn_lists h hp hd
  have hthere : t.isThere directory = true := by
    simp only [isThere, node, hp, hd, bind, Except.bind, pure, Except.pure]
  refine ⟨files, ?_, hlists⟩
  unfold pluginFiles
  rw [if_pos hthere, FileAction.ask_eq, hfiles]
  rfl

end PluginHost

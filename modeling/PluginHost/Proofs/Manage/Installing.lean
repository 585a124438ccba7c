import PluginHost.Proofs.Manage.Atomicity

/-!
# What is installed

A successful installation unpacks the programs of an artifact, reads each of them as an executable,
which is a name with its bytes, and moves the executables into the plugin directory (`Installs`,
`install_ok`).  Moving them updates the tree with one entry for each, in order (`entriesIn`), so of
several executables of one name the last one stands there in the end.

`install_keeps_iff` says when this loses none of them, and `install_loses_executable` is a run in
which it does.
-/

namespace PluginHost.Manage

open FileTree PluginHost.Path Archive FileAction

/-! ## Installations -/

/-- What an installation does with an artifact that has been fetched.  The programs in it are
unpacked, directories are made for the plugin directory, which opens then, and the programs are read
there as executables.  The paths are those of their names behind the plugin directory. -/
structure Installs (m : Manager) (artifact : Path) (fetched ready : FileTree) (d : Location)
    (programs : List Path) (es : List Executable) (paths : List Path) : Prop where
  unpacked : ∃ t, extract artifact extractDirectory fetched = (.ok programs, t) ∧
    t.makeDirectories m.directory = (.ok (), ready)
  executables : List.Forall₂ (Executable.IsAt ready) programs es
  opens : OpensAt ready m.directory d
  paths_eq : paths = es.map fun e => Path.join m.directory e.name
  children : ∀ e ∈ es, IsChild m.directory e.name

/-- Directories have been made for the plugin directory when a program was staged in it. -/
theorem opens_of_stageAll {ready t : FileTree} {directory : Path} (hready : Ready ready directory)
    {programs : List Path} (hne : programs ≠ [])
    (hnames : ∀ p ∈ programs, ∃ name, Path.fileName p = some name) {staged : List Staged}
    (h : stageAll directory programs ready = (.ok staged, t)) : ∃ d, OpensAt ready directory d := by
  cases programs with
  | nil => exact absurd rfl hne
  | cons source rest =>
      obtain ⟨name, hname⟩ := hnames source List.mem_cons_self
      unfold stageAll at h
      rw [hname] at h
      obtain ⟨first, s, hfirst, -⟩ := bind_ok h
      obtain ⟨k, l, data, -, hl, -, -, -⟩ := stageProgram_ok hfirst
      rw [join_name directory (isName_temporaryName k)] at hl
      exact hready.opens hl

section Install

variable {m : Manager} {source : InstallSource} {w w' : World} {s : Location} {paths : List Path}

/-- An installation that succeeds has fetched an artifact and moved all executables in it. -/
theorem install_ok (hstaging : FreshStaging w.files s)
    (hok : m.install source w = (.ok paths, w')) :
    ∃ artifact ready d programs es, (m.artifactOf source (begun w)).1 = .ok artifact ∧
      Installs m artifact (m.fetched source w) ready d programs es paths ∧
      Fills ready (putAll ready (entriesIn d es)) ∧
      w'.files = Manager.clearStaging (putAll ready (entriesIn d es)) := by
  rw [install_eq hstaging] at hok
  obtain ⟨hresult, rfl⟩ := Prod.mk.inj hok
  have hrun : m.installStaged source (begun w) =
      (.ok paths, (m.installStaged source (begun w)).2) := Prod.ext hresult rfl
  generalize (m.installStaged source (begun w)).2 = placed at hrun ⊢
  rw [installStaged_eq] at hrun
  obtain ⟨programs, prepared, hprepare, hfill⟩ := bind_ok hrun
  have hfetched := hstaging.begun.grows (artifactOf_grows m source (begun w))
  obtain ⟨artifact, hartifact, hready⟩ := prepare_ok hfetched hprepare
  have hopens : ∃ d, OpensAt prepared.files m.directory d := by
    unfold Manager.fill at hfill
    obtain ⟨staged, w', hstage, -⟩ := bind_ok hfill
    obtain ⟨t, -, hmake⟩ := hready.unpacked
    exact opens_of_stageAll (makeDirectories_ready hmake) hready.nonempty
      (fun p hp => (hready.there p hp).1) (Task.onFiles_ok hstage)
  obtain ⟨d, hd⟩ := hopens
  rcases fill_cases hd hready with ⟨e, -, hfailed⟩ | ⟨held, t, -, hes, hplaces⟩
  · rw [hfailed] at hfill
    cases hfill
  · rw [hfill] at hplaces
    obtain ⟨hpaths, hmoves, hchildren⟩ := hplaces.done paths rfl
    have hfills := hplaces.fills
    have hfiles : placed.files = _ := hplaces.files (.inl ⟨paths, rfl⟩)
    rw [hmoves] at hfills hfiles
    refine ⟨artifact, prepared.files, d, programs, held.map (·.executable), hartifact,
      ⟨hready.unpacked, List.forall₂_map_right_iff.2 hes, hd, ?_, ?_⟩, hfills,
      congrArg Manager.clearStaging hfiles⟩
    · rw [hpaths, List.map_map]
      rfl
    · intro e he
      obtain ⟨f, hf, rfl⟩ := List.mem_map.1 he
      exact hchildren f hf

end Install

/-- Unpacking changes only the staging directory. -/
theorem Installs.unpacked_staging {m : Manager} {artifact : Path} {fetched ready : FileTree}
    {s d : Location} {programs paths : List Path} {es : List Executable}
    (h : Installs m artifact fetched ready d programs es paths) (hstaging : HasStaging fetched s) :
    ∃ t, Grows fetched t ∧ (∀ l, ¬s <+: l → t.get? l = fetched.get? l) ∧
      t.makeDirectories m.directory = (.ok (), ready) ∧ Makes m.directory t ready := by
  obtain ⟨t, hextract, hmake⟩ := h.unpacked
  obtain ⟨hgrows, hsame⟩ := extract_staging hstaging (by simp) areNames_extract artifact
  rw [← extractDirectory_eq, hextract] at hgrows hsame
  have hmakes := makeDirectories_makes t m.directory
  rw [hmake] at hmakes
  exact ⟨t, hgrows, hsame, hmake, hmakes⟩

/-! ## Moving executables is updating the tree -/

theorem entriesIn_ne_nil {d : Location} {es : List Executable} :
    ∀ m ∈ entriesIn d es, m.1 ≠ [] := by
  intro m hm
  obtain ⟨e, -, rfl⟩ := List.mem_map.1 hm
  simp

/-- In the place of an executable, one of its name stands. -/
theorem get?_putAll_entriesIn {d : Location} {es : List Executable} {e : Executable} (he : e ∈ es)
    (t : FileTree) :
    ∃ f ∈ es, f.name = e.name ∧
      (putAll t (entriesIn d es)).get? (d ++ [e.name]) = some (.file programMode f.data) := by
  rw [get?_putAll entriesIn_ne_nil]
  cases hlast : lastAt (d ++ [e.name]) (entriesIn d es) with
  | some n =>
      obtain ⟨f, hf, hentry⟩ := List.mem_map.1 (mem_of_lastAt hlast)
      obtain ⟨hl, rfl⟩ := Prod.mk.inj hentry
      have hname : [f.name] = [e.name] := List.append_cancel_left hl
      exact ⟨f, hf, (List.cons.inj hname).1, rfl⟩
  | none =>
      have hnone := lastAt_eq_none_iff.1 hlast (d ++ [e.name], .file programMode e.data)
      exact absurd rfl (hnone (List.mem_map_of_mem he))

/-- Elsewhere nothing changes. -/
theorem get?_putAll_entriesIn_of_ne {d : Location} {es : List Executable} {l : Location}
    (hl : ∀ e ∈ es, d ++ [e.name] ≠ l) (t : FileTree) :
    (putAll t (entriesIn d es)).get? l = t.get? l := by
  have hnone : lastAt l (entriesIn d es) = none := by
    rw [lastAt_eq_none_iff]
    intro m hm
    obtain ⟨e, he, rfl⟩ := List.mem_map.1 hm
    exact hl e he
  rw [get?_putAll entriesIn_ne_nil, hnone, Option.none_or]

/-! ## Executables of one name -/

theorem join_name_injective (directory : Path) {a b : Bytes} (ha : IsName a) (hb : IsName b)
    (h : Path.join directory a = Path.join directory b) : a = b := by
  rw [join_name directory ha, join_name directory hb] at h
  exact List.append_cancel_left h

/-- All executables stand at their places exactly if those of one name have the same bytes. -/
theorem stand_iff {d : Location} {es : List Executable} (t : FileTree) :
    (∀ e ∈ es, (putAll t (entriesIn d es)).get? (d ++ [e.name]) =
        some (.file programMode e.data)) ↔
      ∀ e ∈ es, ∀ f ∈ es, e.name = f.name → e.data = f.data := by
  constructor
  · intro hstand e he f hf hname
    have hplace := hstand e he
    rw [hname, hstand f hf] at hplace
    exact (FileNode.file.inj (Option.some.inj hplace)).2.symm
  · intro hdata e he
    obtain ⟨f, hf, hname, hplace⟩ := get?_putAll_entriesIn he t
    rw [hplace, hdata f hf e he hname]

/-- An installation that succeeds keeps all executables that were unpacked, each at its place, exactly
if those of one name have the same bytes, and the paths it returns are different exactly if the names
are. -/
theorem install_keeps_iff {m : Manager} {source : InstallSource} {w w' : World} {s : Location}
    {paths : List Path} (hok : m.install source w = (.ok paths, w'))
    (hstaging : FreshStaging w.files s) :
    ∃ artifact ready d programs es, (m.artifactOf source (begun w)).1 = .ok artifact ∧
      Installs m artifact (m.fetched source w) ready d programs es paths ∧
      (¬s <+: d →
        ((∀ e ∈ es, w'.files.get? (d ++ [e.name]) = some (.file programMode e.data)) ↔
          ∀ e ∈ es, ∀ f ∈ es, e.name = f.name → e.data = f.data)) ∧
      (paths.Nodup ↔ (es.map (·.name)).Nodup) := by
  obtain ⟨artifact, ready, d, programs, es, hfound, hinstalls, hfills, hfiles⟩ :=
    install_ok hstaging hok
  refine ⟨artifact, ready, d, programs, es, hfound, hinstalls, fun hd => ?_, ?_⟩
  · have hfetched : HasStaging (m.fetched source w) s :=
      hstaging.begun.grows (artifactOf_grows m source (begun w))
    obtain ⟨t, hgrows, -, -, hmakes⟩ := hinstalls.unpacked_staging hfetched
    have hready : HasStaging ready s := hfetched.grows (hgrows.trans hmakes.grows)
    have hplace : ∀ e ∈ es, w'.files.get? (d ++ [e.name]) =
        (putAll ready (entriesIn d es)).get? (d ++ [e.name]) := by
      intro e he
      rw [hfiles]
      apply clearStaging_get?
      · intro k hk
        exact locate_fills hfills hready.directory (hready.locate false) hk (.inl rfl)
      · intro hbelow
        rcases List.prefix_concat_iff.1 hbelow with rfl | hprefix
        · obtain ⟨f, -, -, hfile⟩ := get?_putAll_entriesIn he ready
          rw [hfills.directory hready.directory] at hfile
          cases hfile
        · exact hd hprefix
    rw [← stand_iff ready]
    constructor
    · exact fun h e he => (hplace e he).symm.trans (h e he)
    · exact fun h e he => (hplace e he).trans (h e he)
  · have hpaths : paths = (es.map (·.name)).map (Path.join m.directory) := by
      rw [hinstalls.paths_eq, List.map_map]
      rfl
    have hnames : ∀ name ∈ es.map (·.name), IsName name := by
      intro name hname
      obtain ⟨e, he, rfl⟩ := List.mem_map.1 hname
      exact (hinstalls.children e he).name
    rw [hpaths]
    constructor
    · exact List.Nodup.of_map _
    · apply List.Nodup.map_on
      exact fun a ha b hb => join_name_injective m.directory (hnames a ha) (hnames b hb)

/-- The installer of a plugin directory. -/
def pluginManager : Manager := { directory := utf8 "/plugins" }

/-- An archive with two programs of one name, and an empty plugin directory. -/
def collidingWorld : World where
  files :=
    { entries := [([utf8 "tmp"], .directory), ([utf8 "plugins"], .directory),
        ([utf8 "a.tar"], .file newFileMode (Tar.pack
          [⟨utf8 "x/foo", utf8 "1", some programMode, 48, []⟩,
            ⟨utf8 "y/foo", utf8 "2", some programMode, 48, []⟩]))]
      workingDirectory := [] }
  client := .offline

/-- Both programs are unpacked and said to be installed, but only the second one is there. -/
theorem install_loses_executable :
    (extract (utf8 "/a.tar") extractDirectory (begun collidingWorld).files).1 =
        .ok [Path.join extractDirectory (utf8 "x/foo"), Path.join extractDirectory (utf8 "y/foo")] ∧
      (pluginManager.install (.file (utf8 "/a.tar")) collidingWorld).1 =
        .ok [utf8 "/plugins/foo", utf8 "/plugins/foo"] ∧
      (pluginManager.install (.file (utf8 "/a.tar")) collidingWorld).2.files.list
        (utf8 "/plugins") = .ok [utf8 "foo"] ∧
      (pluginManager.install (.file (utf8 "/a.tar")) collidingWorld).2.files.read
        (utf8 "/plugins/foo") = .ok (utf8 "2") ∧
      ∃ artifact ready d programs es, Installs pluginManager artifact
          (pluginManager.fetched (.file (utf8 "/a.tar")) collidingWorld) ready d programs es
          [utf8 "/plugins/foo", utf8 "/plugins/foo"] ∧
        ¬(es.map (·.name)).Nodup := by
  have hresult : (pluginManager.install (.file (utf8 "/a.tar")) collidingWorld).1 =
      .ok [utf8 "/plugins/foo", utf8 "/plugins/foo"] := by
    decide +kernel
  have hok : pluginManager.install (.file (utf8 "/a.tar")) collidingWorld =
      (.ok [utf8 "/plugins/foo", utf8 "/plugins/foo"],
        (pluginManager.install (.file (utf8 "/a.tar")) collidingWorld).2) := by
    rw [← hresult]
    exact (Prod.eta _).symm
  have hstaging : FreshStaging collidingWorld.files ([utf8 "tmp"] ++ [stagingName]) := by
    apply freshStaging_of_entries <;> decide +kernel
  refine ⟨?_, hresult, ?_, ?_, ?_⟩
  · decide +kernel
  · decide +kernel
  · decide +kernel
  · obtain ⟨artifact, ready, d, programs, es, -, hinstalls, -, hnodup⟩ :=
      install_keeps_iff hok hstaging
    refine ⟨artifact, ready, d, programs, es, hinstalls, ?_⟩
    rw [← hnodup]
    decide

end PluginHost.Manage

import PluginHost.Proofs.Archive.Programs
import PluginHost.Proofs.Manage.Placing
import PluginHost.Proofs.Manage.Staging
import PluginHost.Proofs.Release.Downloading

/-!
# What a failed installation leaves behind

An installation looks up, downloads and unpacks everything in the staging directory first.  None of
this changes the plugin directory, unless the name of an asset leads out of the staging directory, so
a failure there leaves it as it was.  Then the programs are copied to temporary files in the plugin
directory, which are discarded when this fails.  Only then are they moved to their places, one after
the other, and a move may fail after others have been made.

`Manager.prepare` is what comes before the plugin directory is filled, `Manager.fill` is the filling,
and `Manager.moved` are the moves up to the first that fails.  `install_ends` says of every run how it
ends (`Ends`).  What is left depends on whether a link was replaced: if not, then there stands at a
location what was moved there last, or else what stood there when the artifact had been fetched
(`Ends.get?_eq`); if so, then that link is gone (`Ends.replaced`).  From that,
`failed_install_unchanged_iff` says exactly when a failed installation leaves the plugin directory as
it was, and `failed_install_changes` is a run in which it does not.
-/

namespace PluginHost.Manage

open FileTree PluginHost.Path Archive Release FileAction

/-! ## Fetching -/

/-- The asset that is chosen for a source, if its last release can be looked up. -/
def Manager.asset? (m : Manager) (w : World) : InstallSource → Option Asset
  | .file _ => none
  | .repository owner name token =>
      match (Service.at m.root token).latest owner name w with
      | (.ok r, _) => select r.assets thisSystem thisMachine
      | (.error _, _) => none

/-- The directory that assets are downloaded to. -/
def downloadDirectory : Path := Path.join stagingDirectory (utf8 "download")

theorem downloadDirectory_eq :
    downloadDirectory = front stagingDirectory ++ ofNames [utf8 "download"] := by
  decide

theorem areNames_download : AreNames [utf8 "download"] := areNames_singleton (by decide)

/-- What is downloaded stands below the staging directory. -/
theorem join_downloadDirectory {name : Bytes} (hname : IsName name) :
    Path.join downloadDirectory name =
      front stagingDirectory ++ ofNames [utf8 "download", name] := by
  have hfront : front downloadDirectory = front stagingDirectory ++ utf8 "download" ++ [slash] := by
    decide
  rw [join_name downloadDirectory hname, hfront, ofNames_cons_cons, ofNames_singleton]
  simp

/-- Fetching either leaves the files alone or stores the chosen asset. -/
theorem artifactOf_stores (m : Manager) (source : InstallSource) (w : World) :
    KeepsFiles w (m.artifactOf source w).2 ∨
      ∃ a, m.asset? w source = some a ∧
        Stores downloadDirectory (Path.join downloadDirectory (utf8 a.name)) w.files
          (m.artifactOf source w).2.files := by
  cases source with
  | file artifact =>
      left
      show KeepsFiles w ((Task.onFiles _ >>= _) w).2
      rw [bind_run, Task.onFiles_eq]
      unfold ask
      dsimp only
      split <;> rfl
  | repository owner name token =>
      unfold Manager.artifactOf Manager.fetchRelease Manager.asset?
      dsimp only
      rw [bind_run, Task.wrapped_eq]
      have hkeeps := latest_keeps (Service.at m.root token) owner name w
      cases hlatest : (Service.at m.root token).latest owner name w with
      | mk result looked =>
          rw [hlatest] at hkeeps
          cases result with
          | error e => exact .inl hkeeps
          | ok r =>
              have hfiles : looked.files = w.files := hkeeps
              dsimp only [Except.mapError]
              rw [bind_run]
              unfold Task.note
              dsimp only
              rw [Task.wrapped_eq]
              dsimp only
              rcases download_stores (Service.at m.root token) r
                (Path.join stagingDirectory (utf8 "download")) _ with hsame | ⟨a, ha, hstores⟩
              · exact .inl (Eq.trans hsame hfiles)
              · rw [← hfiles]
                exact .inr ⟨a, ha, hstores⟩

theorem artifactOf_grows (m : Manager) (source : InstallSource) (w : World) :
    Grows w.files (m.artifactOf source w).2.files := by
  rcases artifactOf_stores m source w with hsame | ⟨a, -, hstores⟩
  · have hfiles : (m.artifactOf source w).2.files = w.files := hsame
    rw [hfiles]
    exact .refl w.files
  · exact hstores.grows

/-- An asset with a plain name is stored in the staging directory. -/
theorem artifactOf_staging {m : Manager} {source : InstallSource} {w : World} {s : Location}
    (hstaging : HasStaging w.files s)
    (hplain : ∀ a, m.asset? w source = some a → IsName (utf8 a.name)) {l : Location}
    (hl : ¬s <+: l) : (m.artifactOf source w).2.files.get? l = w.files.get? l := by
  rcases artifactOf_stores m source w with hsame | ⟨a, ha, made, hmakes, hstored⟩
  · exact congrArg (fun t => FileTree.get? t l) hsame
  · have hname : IsName (utf8 a.name) := hplain a ha
    have hboth : AreNames [utf8 "download", utf8 a.name] := areNames_download.concat hname
    rw [downloadDirectory_eq] at hmakes
    have hmade := makes_staging hstaging (by simp) areNames_download hmakes hl
    rcases hstored with hsame | hputs
    · rw [hsame]
      exact hmade
    · rw [join_downloadDirectory hname, withoutSlashes_front_ofNames _ (by simp) hboth] at hputs
      rw [puts_staging (hstaging.grows hmakes.grows) (by simp) hboth hputs hl]
      exact hmade

/-! ## What comes before the plugin directory is filled -/

/-- The directory that artifacts are unpacked to. -/
def extractDirectory : Path := Path.join stagingDirectory (utf8 "extract")

theorem extractDirectory_eq :
    extractDirectory = front stagingDirectory ++ ofNames [utf8 "extract"] := by
  decide

theorem areNames_extract : AreNames [utf8 "extract"] := areNames_singleton (by decide)

/-- What an installation does, with the staging directory made, before it fills the plugin
directory. -/
def Manager.prepare (m : Manager) (source : InstallSource) : Task InstallError (List Path) := do
  let artifact ← m.artifactOf source
  let programs ← Task.onFiles (wrapped .archive (extract artifact extractDirectory))
  Task.onFiles (changeAll .io fun t => t.makeDirectories m.directory)
  pure programs

/-- Fills the plugin directory, which is there, with programs. -/
def Manager.fill (m : Manager) (programs : List Path) : Task InstallError (List Path) := do
  let staged ← Task.onFiles (stageAll m.directory programs)
  placeAll staged

theorem installStaged_eq (m : Manager) (source : InstallSource) :
    m.installStaged source = m.prepare source >>= m.fill := by
  unfold Manager.installStaged Manager.prepare Manager.place Manager.fill
  simp only [bind_assoc, pure_bind]
  rfl

/-- What has been prepared: programs that stand where their paths lead, and either there is only one
or none of them is hidden.  Directories have been made for the plugin directory. -/
structure Prepared (m : Manager) (artifact : Path) (fetched : FileTree) (programs : List Path)
    (ready : FileTree) : Prop where
  unpacked : ∃ t, extract artifact extractDirectory fetched = (.ok programs, t) ∧
    t.makeDirectories m.directory = (.ok (), ready)
  nonempty : programs ≠ []
  there : ∀ p ∈ programs, (∃ name, Path.fileName p = some name) ∧ ∃ data, ready.read p = .ok data
  visible : (∃ p, programs = [p]) ∨
    ∀ p ∈ programs, ∀ name, Path.fileName p = some name → name.head? ≠ some dot

/-- A path of names behind another path ends with a name. -/
theorem fileName_of_isPlacedIn {target p : Path} (h : IsPlacedIn target p) :
    ∃ name, Path.fileName p = some name := by
  obtain ⟨names, hne, hnames, rfl⟩ := h
  rw [fileName_join_ofNames target hne hnames, List.getLast?_eq_some_getLast hne]
  exact ⟨_, rfl⟩

theorem prepare_ok {m : Manager} {source : InstallSource} {w w' : World} {s : Location}
    {programs : List Path} (hstaging : HasStaging (m.artifactOf source w).2.files s)
    (h : m.prepare source w = (.ok programs, w')) :
    ∃ artifact, (m.artifactOf source w).1 = .ok artifact ∧
      Prepared m artifact (m.artifactOf source w).2.files programs w'.files := by
  unfold Manager.prepare at h
  obtain ⟨artifact, fetched, hartifact, hrest⟩ := bind_ok h
  obtain ⟨programs', unpacked, hextract, hrest⟩ := bind_ok hrest
  obtain ⟨u, made, hmake, hend⟩ := bind_ok hrest
  cases hend
  rw [hartifact] at hstaging ⊢
  have hunpacked := wrapped_ok (Task.onFiles_ok hextract)
  have hmade := changeAll_ok (Task.onFiles_ok hmake)
  have hadds := (makes_of_makeDirectories hmade).addsDirectories
  have hinto := hunpacked
  rw [extract_eq] at hinto
  obtain ⟨-, t, -, hinto⟩ := bind_ok hinto
  refine ⟨artifact, rfl, ⟨_, hunpacked, hmade⟩, extractInto_ne_nil hinto, fun p hp => ⟨?_, ?_⟩,
    extract_visible hunpacked⟩
  · exact fileName_of_isPlacedIn (extractInto_ok hinto p hp)
  · have hlinks := fun d hd => @HasStaging.noLinks_into _ _ [utf8 "extract"] hstaging (by simp)
      areNames_extract d hd
    rw [← extractDirectory_eq] at hlinks
    obtain ⟨data, hread⟩ := extract_stands hlinks hunpacked p hp
    exact ⟨data, hadds.read hread⟩

/-- In a world with a staging directory, in which the plugin directory stands, nothing changes but in
the staging directory. -/
def StaysStaged (s : Location) (p : Path) (d : Location) (w w' : World) : Prop :=
  HasStaging w.files s → OpensAt w.files p d →
    Grows w.files w'.files ∧ ∀ l, ¬s <+: l → w'.files.get? l = w.files.get? l

section StaysStaged

variable (s : Location) (p : Path) (d : Location)

instance : Std.Refl (StaysStaged s p d) := ⟨fun w _ _ => ⟨.refl w.files, fun _ _ => rfl⟩⟩

instance : Trans (StaysStaged s p d) (StaysStaged s p d) (StaysStaged s p d) where
  trans h₁ h₂ hstaging hd := by
    obtain ⟨hgrows₁, hsame₁⟩ := h₁ hstaging hd
    obtain ⟨hgrows₂, hsame₂⟩ := h₂ (hstaging.grows hgrows₁) (hd.grows hgrows₁)
    exact ⟨hgrows₁.trans hgrows₂, fun l hl => (hsame₂ l hl).trans (hsame₁ l hl)⟩

end StaysStaged

theorem extract_stays (s : Location) (p : Path) (d : Location) (artifact : Path) :
    Moves (StaysStaged s p d)
      (Task.onFiles (wrapped InstallError.archive (extract artifact extractDirectory))) := by
  intro w hstaging _
  rw [Task.onFiles_eq, wrapped_eq, extractDirectory_eq]
  exact extract_staging hstaging (by simp) areNames_extract artifact

/-- After the artifact has been fetched, nothing changes but in the staging directory. -/
theorem prepare_files {m : Manager} {source : InstallSource} {w : World} {s d : Location}
    (hstaging : HasStaging w.files s) (hd : OpensAt w.files m.directory d) :
    Grows w.files (m.prepare source w).2.files ∧
      ∀ l, ¬s <+: l →
        (m.prepare source w).2.files.get? l = (m.artifactOf source w).2.files.get? l := by
  have hfetched := artifactOf_grows m source w
  unfold Manager.prepare
  rw [bind_run]
  cases hartifact : m.artifactOf source w with
  | mk r fetched =>
      rw [hartifact] at hfetched
      cases r with
      | error e => exact ⟨hfetched, fun _ _ => rfl⟩
      | ok artifact =>
          have hrest : Moves (StaysStaged s m.directory d) (do
              let programs ← Task.onFiles
                (wrapped InstallError.archive (extract artifact extractDirectory))
              Task.onFiles (changeAll InstallError.io fun t => t.makeDirectories m.directory)
              pure programs) := by
            refine moves_bind (extract_stays s m.directory d artifact) fun programs => ?_
            refine moves_bind ?_ fun _ => moves_pure _
            intro w _ hd
            rw [Task.onFiles_eq, changeAll_eq, makeDirectories_there hd]
            exact ⟨.refl w.files, fun _ _ => rfl⟩
          obtain ⟨hgrows, hsame⟩ := hrest fetched (hstaging.grows hfetched) (hd.grows hfetched)
          exact ⟨hfetched.trans hgrows, hsame⟩

/-! ## Filling the plugin directory -/

theorem exists_isAt {t : FileTree} {programs : List Path} {held : List Held}
    (h : List.Forall₂ (fun p f => Executable.IsAt t p f.executable) programs held) :
    ∀ f ∈ held, ∃ p ∈ programs, f.executable.IsAt t p := by
  induction h with
  | nil => simp
  | cons hat _ ih =>
      intro f hf
      rcases List.mem_cons.1 hf with rfl | hf
      · exact ⟨_, List.mem_cons_self, hat⟩
      · obtain ⟨p, hp, hat⟩ := ih f hf
        exact ⟨p, List.mem_cons_of_mem _ hp, hat⟩

/-- No executable has the name of a temporary file that is moved after it. -/
theorem Prepared.apart {m : Manager} {artifact : Path} {fetched ready : FileTree}
    {programs : List Path} {held : List Held} (h : Prepared m artifact fetched programs ready)
    (hes : List.Forall₂ (fun p f => Executable.IsAt ready p f.executable) programs held)
    (hhidden : ∀ f ∈ held, f.temporary.head? = some dot) :
    held.Pairwise fun f g => f.executable.name ≠ g.temporary := by
  rcases h.visible with ⟨p, rfl⟩ | hvisible
  · cases hes with
    | cons _ hnil =>
        cases hnil
        exact List.pairwise_singleton _ _
  · have hshown : ∀ f ∈ held, f.executable.name.head? ≠ some dot := by
      intro f hf
      obtain ⟨p, hp, hat⟩ := exists_isAt hes f hf
      exact hvisible p hp _ hat.name
    refine List.pairwise_of_forall_mem_list fun f hf g hg heq => hshown f hf ?_
    rw [heq]
    exact hhidden g hg

/-- Filling the plugin directory fails at once and leaves everything as it was, or it moves the
executables. -/
theorem fill_cases {m : Manager} {artifact : Path} {fetched : FileTree} {programs : List Path}
    {w : World} {d : Location} (hd : OpensAt w.files m.directory d)
    (h : Prepared m artifact fetched programs w.files) :
    (∃ e, stageAll m.directory programs w.files = (.error e, w.files) ∧
        m.fill programs w = (.error e, w)) ∨
      ∃ held t, stageAll m.directory programs w.files = (.ok (stagedFor m.directory held), t) ∧
        List.Forall₂ (fun p f => Executable.IsAt w.files p f.executable) programs held ∧
        Places m.directory d w.files w.files held (movesOf t (stagedFor m.directory held))
          (m.fill programs w).1 (m.fill programs w).2.files := by
  unfold Manager.fill
  rw [bind_run, Task.onFiles_eq]
  cases hstage : stageAll m.directory programs w.files with
  | mk r t =>
      cases r with
      | error e =>
          obtain rfl := stageAll_error hstage
          exact .inl ⟨e, rfl, rfl⟩
      | ok staged =>
          obtain ⟨held, hes, rfl, hholds, hheld⟩ := stageAll_ok hd h.there hstage
          have hnames : ∀ f ∈ held, IsName f.executable.name := by
            intro f hf
            obtain ⟨p, -, hat⟩ := exists_isAt hes f hf
            exact isName_of_fileName hat.name
          have hapart := h.apart hes fun f hf => (hheld f hf).2
          have hholds' : Holds d held ({ w with files := t } : World).files w.files := hholds
          refine .inr ⟨held, t, rfl, hes, ?_⟩
          exact placeAll_places hd (fun f hf => (hheld f hf).1) hnames hapart (.refl _) hholds'

/-! ## What is left in the end -/

/-- Clearing takes away only the staging directory. -/
theorem clearStaging_get? {t : FileTree} {s l : Location}
    (hlocated : ∀ k, t.locate false stagingDirectory = .ok k → k = s) (hl : ¬s <+: l) :
    (Manager.clearStaging t).get? l = t.get? l := by
  unfold Manager.clearStaging
  cases hk : t.locate false stagingDirectory with
  | error e => rfl
  | ok k =>
      rw [hlocated k hk]
      unfold get?
      split
      · rfl
      · have hkeep : (!s.isPrefixOf l) = true := by
          rw [Bool.not_eq_true', Bool.eq_false_iff, ne_eq, List.isPrefixOf_iff_prefix]
          exact hl
        exact @entryAt_filter l (!s.isPrefixOf ·) hkeep t.entries

/-- Clearing makes nothing. -/
theorem get?_clearStaging {t : FileTree} {l : Location} {n : FileNode}
    (h : (Manager.clearStaging t).get? l = some n) : t.get? l = some n := by
  unfold Manager.clearStaging at h
  split at h
  · rename_i k _
    unfold get? at h ⊢
    split
    · rename_i hroot
      rwa [if_pos hroot] at h
    · rename_i hroot
      rw [if_neg hroot] at h
      exact @entryAt_of_filter l (!k.isPrefixOf ·) _ _ h
  · exact h

/-- The world with the staging directory made. -/
def begun (w : World) : World :=
  { w with files := (w.files.makeDirectories stagingDirectory).2 }

theorem FreshStaging.begun {w : World} {s : Location} (h : FreshStaging w.files s) :
    HasStaging (begun w).files s := by
  have hmade : (Manage.begun w).files = w.files.put s .directory := congrArg Prod.snd h.make
  rw [hmade]
  exact h.made

/-- The files when the artifact of a source has been fetched. -/
def Manager.fetched (m : Manager) (source : InstallSource) (w : World) : FileTree :=
  (m.artifactOf source (begun w)).2.files

/-- The moves that an installation makes. -/
def Manager.moved (m : Manager) (source : InstallSource) (w : World) :
    List (Location × FileNode) :=
  match m.prepare source (begun w) with
  | (.error _, _) => []
  | (.ok programs, w) =>
      match stageAll m.directory programs w.files with
      | (.error _, _) => []
      | (.ok staged, t) => movesOf t staged

/-- How an installation ends.  Before anything is moved, nothing has changed since the artifact was
fetched but in the staging directory.  What is moved are files with names in the plugin directory, and
there is no link afterwards but those that are left beside what was moved.  If none was replaced, then
nothing is left but what was moved.  In the end the staging directory is cleared. -/
structure Ends (m : Manager) (source : InstallSource) (w : World) (s d : Location)
    (result : Except InstallError (List Path)) (ready after : FileTree) : Prop where
  staging : HasStaging ready s
  grows : Grows w.files ready
  same : ∀ l, ¬s <+: l → ready.get? l = (m.fetched source w).get? l
  moved : ∀ x ∈ m.moved source w, ∃ name data, x = (d ++ [name], .file programMode data)
  fills : Fills ready (putAll ready (m.moved source w))
  links : ∀ l target, after.get? l = some (.link target) →
    (putAll ready (m.moved source w)).get? l = some (.link target)
  files : (∀ x ∈ m.moved source w, ∀ target, ready.get? x.1 ≠ some (.link target)) →
    after = putAll ready (m.moved source w)
  failed : ∀ e, result = .error e → (∃ error, e = .io error) ∨ m.moved source w = []

section Install

variable {m : Manager} {source : InstallSource} {w : World} {s d : Location}

theorem install_eq (hstaging : FreshStaging w.files s) :
    m.install source w =
      ((m.installStaged source (begun w)).1,
        { (m.installStaged source (begun w)).2 with
          files := Manager.clearStaging (m.installStaged source (begun w)).2.files }) := by
  unfold Manager.install begun
  rw [Task.onFiles_eq, changeAll_eq, hstaging.make]
  rfl

/-- Where nothing is moved, an installation ends with what it has prepared. -/
theorem ends_of_nothing {result : Except InstallError (List Path)} {ready : FileTree}
    (hstaging : HasStaging ready s) (hgrows : Grows w.files ready)
    (hsame : ∀ l, ¬s <+: l → ready.get? l = (m.fetched source w).get? l)
    (hmoved : m.moved source w = []) : Ends m source w s d result ready ready where
  staging := hstaging
  grows := hgrows
  same := hsame
  moved := by simp [hmoved]
  fills := by
    rw [hmoved]
    exact .refl ready
  links l target hl := by
    rw [hmoved]
    exact hl
  files _ := by
    rw [hmoved]
    rfl
  failed _ _ := .inr hmoved

/-- Every installation ends like this. -/
theorem install_ends (hstaging : FreshStaging w.files s) (hd : OpensAt w.files m.directory d) :
    ∃ ready after, Ends m source w s d (m.install source w).1 ready after ∧
      (m.install source w).2.files = Manager.clearStaging after := by
  have hbegun := hstaging.begun
  have hfirst : Grows w.files (begun w).files := (makeDirectories_makes w.files _).grows
  have hfetched := artifactOf_grows m source (begun w)
  obtain ⟨hprepared, hsame⟩ := @prepare_files m source (begun w) s d hbegun (hd.grows hfirst)
  rw [install_eq hstaging, installStaged_eq, bind_run]
  cases hprepare : m.prepare source (begun w) with
  | mk r prepared =>
      rw [hprepare] at hprepared hsame
      have hgrows := hfirst.trans hprepared
      cases r with
      | error e =>
          have hmoved : m.moved source w = [] := by
            unfold Manager.moved
            rw [hprepare]
          exact ⟨_, _, ends_of_nothing (hbegun.grows hprepared) hgrows hsame hmoved, rfl⟩
      | ok programs =>
          obtain ⟨artifact, -, hready⟩ := prepare_ok (hbegun.grows hfetched) hprepare
          dsimp only
          rcases fill_cases (hd.grows hgrows) hready with
            ⟨e, hstage, hfill⟩ | ⟨held, t, hstage, -, hplaces⟩
          · have hmoved : m.moved source w = [] := by
              unfold Manager.moved
              rw [hprepare]
              dsimp only
              rw [hstage]
            rw [hfill]
            exact ⟨_, _, ends_of_nothing (hbegun.grows hprepared) hgrows hsame hmoved, rfl⟩
          · have hmoved : m.moved source w = movesOf t (stagedFor m.directory held) := by
              unfold Manager.moved
              rw [hprepare]
              dsimp only
              rw [hstage]
            rw [← hmoved] at hplaces
            refine ⟨prepared.files, (m.fill programs prepared).2.files,
              ⟨hbegun.grows hprepared, hgrows, hsame, ?_, hplaces.fills, hplaces.links,
                fun hlinks => hplaces.files (.inr ⟨.refl _, hlinks⟩),
                fun e he => .inl (hplaces.failed e he)⟩, rfl⟩
            intro x hx
            obtain ⟨e, -, rfl⟩ := List.mem_map.1 (hplaces.moved.subset hx)
            exact ⟨e.name, e.data, rfl⟩

end Install

namespace Ends

variable {m : Manager} {source : InstallSource} {w : World} {s d : Location}
  {result : Except InstallError (List Path)} {ready after : FileTree}

theorem moved_ne_nil (h : Ends m source w s d result ready after) :
    ∀ x ∈ m.moved source w, x.1 ≠ [] := by
  intro x hx
  obtain ⟨name, data, rfl⟩ := h.moved x hx
  simp

/-- If no link was replaced, there stands at a location outside the staging directory what was moved
there last, or else what stood there when the artifact had been fetched. -/
theorem get?_eq (h : Ends m source w s d result ready after)
    (hlinks : ∀ x ∈ m.moved source w, ∀ target, ready.get? x.1 ≠ some (.link target)) {l : Location}
    (hl : ¬s <+: l) :
    (Manager.clearStaging after).get? l =
      (lastAt l (m.moved source w)).or ((m.fetched source w).get? l) := by
  rw [h.files hlinks, clearStaging_get? _ hl, get?_putAll h.moved_ne_nil, h.same l hl]
  intro k hk
  exact locate_fills h.fills h.staging.directory (h.staging.locate false) hk (.inl rfl)

/-- If a link was replaced, then it is gone: it was there before, and a file was moved to its place. -/
theorem replaced (h : Ends m source w s d result ready after) {x : Location × FileNode}
    (hx : x ∈ m.moved source w) {target : Path} (hlink : ready.get? x.1 = some (.link target)) :
    d <+: x.1 ∧ ¬s <+: x.1 ∧ w.files.get? x.1 = some (.link target) ∧
      (∃ mode data, lastAt x.1 (m.moved source w) = some (.file mode data)) ∧
      (Manager.clearStaging after).get? x.1 ≠ some (.link target) := by
  have hlast : ∃ mode data, lastAt x.1 (m.moved source w) = some (.file mode data) := by
    cases hlast : lastAt x.1 (m.moved source w) with
    | none => exact absurd rfl (lastAt_eq_none_iff.1 hlast x hx)
    | some n =>
        obtain ⟨name, data, hmove⟩ := h.moved _ (mem_of_lastAt hlast)
        exact ⟨programMode, data, congrArg some (Prod.mk.inj hmove).2⟩
  refine ⟨?_, fun hs => h.staging.noLinks _ target hs hlink, (h.grows.link _ target).1 hlink, hlast,
    fun hafter => ?_⟩
  · obtain ⟨name, data, rfl⟩ := h.moved x hx
    exact List.prefix_append d [name]
  · obtain ⟨mode, data, hfile⟩ := hlast
    have hleft := h.links _ target (get?_clearStaging hafter)
    rw [get?_putAll h.moved_ne_nil, hfile] at hleft
    cases hleft

end Ends

/-! ## Failed installations -/

/-- The trees are the same below a location, but for the staging directory. -/
def SameBelow (d s : Location) (t t' : FileTree) : Prop :=
  ∀ l, d <+: l → ¬s <+: l → t'.get? l = t.get? l

/-- A failed installation leaves the plugin directory as it was exactly if whatever was moved before
the failure had been there already, and fetching the artifact changed nothing else.  An asset with a
plain name is fetched without any change outside the staging directory, and so is a local artifact.
Unless the failure is one of the file system, nothing was moved. -/
theorem failed_install_unchanged_iff {m : Manager} {source : InstallSource} {w w' : World}
    {e : InstallError} {s d : Location} (hfail : m.install source w = (.error e, w'))
    (hstaging : FreshStaging w.files s) (hd : OpensAt w.files m.directory d) :
    (SameBelow d s w.files w'.files ↔
        (∀ l n, d <+: l → ¬s <+: l → lastAt l (m.moved source w) = some n →
          w.files.get? l = some n) ∧
        ∀ l, d <+: l → ¬s <+: l → lastAt l (m.moved source w) = none →
          (m.fetched source w).get? l = w.files.get? l) ∧
      ((∀ a, m.asset? (begun w) source = some a → IsName (utf8 a.name)) →
        ∀ l, ¬s <+: l → (m.fetched source w).get? l = w.files.get? l) ∧
      ((∀ error, e ≠ .io error) → m.moved source w = []) := by
  obtain ⟨ready, after, hends, hfiles⟩ := install_ends hstaging hd
  rw [hfail] at hends hfiles
  dsimp only at hfiles
  refine ⟨?_, fun hplain l hl => ?_, fun hio => ?_⟩
  · by_cases hlinks : ∀ x ∈ m.moved source w, ∀ target, ready.get? x.1 ≠ some (.link target)
    · -- No link was replaced: all that is left is known.
      have hafter := fun {l} hl => hends.get?_eq hlinks (l := l) hl
      rw [← hfiles] at hafter
      constructor
      · intro hsame
        constructor
        · intro l n hdl hsl hlast
          rw [← hsame l hdl hsl, hafter hsl, hlast, Option.some_or]
        · intro l hdl hsl hlast
          rw [← hsame l hdl hsl, hafter hsl, hlast, Option.none_or]
      · rintro ⟨hmoved, hfetched⟩ l hdl hsl
        rw [hafter hsl]
        cases hlast : lastAt l (m.moved source w) with
        | some n => rw [Option.some_or, hmoved l n hdl hsl hlast]
        | none => rw [Option.none_or, hfetched l hdl hsl hlast]
    · -- A link was replaced: it is gone, and a file was moved to its place.
      push Not at hlinks
      obtain ⟨x, hx, target, hlink⟩ := hlinks
      obtain ⟨hdx, hsx, hbefore, ⟨mode, data, hlast⟩, hgone⟩ := hends.replaced hx hlink
      constructor
      · intro hsame
        rw [← hfiles, hsame x.1 hdx hsx] at hgone
        exact absurd hbefore hgone
      · rintro ⟨hmoved, -⟩
        have hfile := hmoved x.1 _ hdx hsx hlast
        rw [hbefore] at hfile
        cases hfile
  · have hmade : (begun w).files = w.files.put s .directory := congrArg Prod.snd hstaging.make
    have hne : l ≠ s := by
      rintro rfl
      exact hl (List.prefix_refl l)
    unfold Manager.fetched
    rw [artifactOf_staging hstaging.begun hplain hl, hmade, get?_put_of_ne hne]
  · rcases hends.failed e rfl with ⟨error, rfl⟩ | hnothing
    · exact absurd rfl (hio error)
    · exact hnothing

/-- A plugin directory with a directory at the place of the second of two programs. -/
def blockedWorld : World where
  files :=
    { entries := [([utf8 "tmp"], .directory), ([utf8 "plugins"], .directory),
        ([utf8 "plugins", utf8 "foo"], .directory),
        ([utf8 "a.tar"], .file newFileMode (Tar.pack
          [⟨utf8 "bar", utf8 "x", some programMode, 48, []⟩,
            ⟨utf8 "foo", utf8 "x", some programMode, 48, []⟩]))]
      workingDirectory := [] }
  client := .offline

/-- The installer of that plugin directory. -/
def blockedManager : Manager := { directory := utf8 "/plugins" }

/-- The first program is installed although the installation fails. -/
theorem failed_install_changes :
    (blockedManager.install (.file (utf8 "/a.tar")) blockedWorld).1 =
        .error (.io .isADirectory) ∧
      ¬SameBelow [utf8 "plugins"] [utf8 "tmp", stagingName] blockedWorld.files
        (blockedManager.install (.file (utf8 "/a.tar")) blockedWorld).2.files := by
  have hresult : (blockedManager.install (.file (utf8 "/a.tar")) blockedWorld).1 =
      .error (.io .isADirectory) := by
    decide +kernel
  refine ⟨hresult, fun hsame => ?_⟩
  have hfail : blockedManager.install (.file (utf8 "/a.tar")) blockedWorld =
      (.error (.io .isADirectory),
        (blockedManager.install (.file (utf8 "/a.tar")) blockedWorld).2) := by
    rw [← hresult]
    exact (Prod.eta _).symm
  have hstaging : FreshStaging blockedWorld.files [utf8 "tmp", stagingName] := by
    refine ⟨⟨[utf8 "tmp"], ?_, ?_, rfl⟩, ?_⟩
    · decide +kernel
    · decide +kernel
    · rintro l ⟨more, rfl⟩
      have hplugins : (utf8 "plugins" == utf8 "tmp") = false := by decide
      have htar : (utf8 "a.tar" == utf8 "tmp") = false := by decide
      simp [FileTree.get?, blockedWorld, entryAt, hplugins, htar]
  have hd : OpensAt blockedWorld.files blockedManager.directory [utf8 "plugins"] := by
    refine .inr ⟨?_, ?_, ?_⟩ <;> decide +kernel
  have hmoved := (failed_install_unchanged_iff hfail hstaging hd).1.1 hsame
  have hthere := hmoved.1 [utf8 "plugins", utf8 "bar"] (.file programMode (utf8 "x"))
    (by decide) (by decide) (by decide +kernel)
  have hmissing : blockedWorld.files.get? [utf8 "plugins", utf8 "bar"] = none := by
    decide +kernel
  rw [hmissing] at hthere
  cases hthere

end PluginHost.Manage

import PluginHost.Proofs.Release.Integrity

/-!
# Where downloads are stored

A download is stored behind its directory under the name of the asset, and that name is whatever the
server says.  `download_contained` says what follows: a name that makes one step (`Spells`) is stored
directly in the directory, and exactly then the returned path lies directly in it, if the name does
not start at the root.  Any other name leads where its steps lead, and `download_escapes` is a
download that replaces a file outside of the directory.
-/

namespace PluginHost.Release

open FileTree PluginHost.Path FileAction

/-- Directories are made, and then perhaps a file is put where the path behind them leads. -/
theorem store_files (directory : Path) (name : String) (data : Bytes) (t : FileTree) :
    (store directory name data t).2 = (t.makeDirectories directory).2 ∨
      ∃ made l mode, t.makeDirectories directory = (.ok (), made) ∧
        made.locate true (join directory (utf8 name)) = .ok l ∧
        (made.get? l = none ∨ ∃ mode data, made.get? l = some (.file mode data)) ∧
        (store directory name data t).2 = made.put l (.file mode data) := by
  rw [store_run]
  cases hmade : t.makeDirectories directory with
  | mk r made =>
      cases r with
      | error e => exact .inl rfl
      | ok u =>
          dsimp only
          cases hwrite : made.write (join directory (utf8 name)) data with
          | error e => exact .inl rfl
          | ok written =>
              obtain ⟨l, mode, hl, hput, hold⟩ := write_ok hwrite
              exact .inr ⟨made, l, mode, rfl, hl, hold, hput⟩

/-- Downloading leaves the files alone, or stores the bytes of the chosen asset. -/
theorem download_files (s : Service) (r : Release) (directory : Path) (w : World) :
    ((s.download r directory w).2.files = w.files ∧ ∃ e, (s.download r directory w).1 = .error e) ∨
      ∃ a data, select r.assets thisSystem thisMachine = some a ∧
        (s.download r directory w).2.files = (store directory a.name data w.files).2 ∧
        (s.download r directory w).1 = (store directory a.name data w.files).1 := by
  cases hselect : select r.assets thisSystem thisMachine with
  | none =>
      rw [download_none hselect]
      exact .inl ⟨rfl, _, rfl⟩
  | some a =>
      have hkeeps := fetchVerified_keeps s r a w
      rw [download_some hselect]
      cases hfetch : s.fetchVerified r a w with
      | mk result fetched =>
          rw [hfetch] at hkeeps
          have hfiles : fetched.files = w.files := hkeeps
          cases result with
          | error e => exact .inl ⟨hfiles, e, rfl⟩
          | ok data =>
              right
              refine ⟨a, data, rfl, ?_⟩
              dsimp only
              rw [Task.onFiles_eq, hfiles]
              exact ⟨rfl, rfl⟩

/-- A returned path lies directly in the directory exactly if the name makes one step. -/
theorem components_join_iff {directory name : Path} (hdirectory : directory ≠ [])
    (hname : isAbsolute name = false) :
    (∃ part, components (join directory name) = components directory ++ [.name part]) ↔
      ∃ part, Spells name [part] := by
  rw [components_join hdirectory hname]
  constructor
  · rintro ⟨part, hpart⟩
    exact ⟨part, hname, List.append_cancel_left hpart⟩
  · rintro ⟨part, hpart⟩
    exact ⟨part, by rw [hpart.steps]; rfl⟩

/-- If no links are where the directory leads, then a download changes nothing but new directories
for the directory and those above it, and the file where the name of the chosen asset leads from
there.  A name that makes one step leads directly into the directory.  The returned path is the name
behind the directory; unless the name starts at the root, the path lies directly in the directory
exactly if the name makes one step. -/
theorem download_contained {s : Service} {r : Release} {directory : Path} {w w' : World}
    {result : Except ReleaseError Path} (h : s.download r directory w = (result, w'))
    (hlinks : ∀ d, OpensAt (w.files.makeDirectories directory).2 directory d →
      NoLinkFrom w.files d) :
    (∀ l, w'.files.get? l ≠ w.files.get? l →
        (w.files.get? l = none ∧ w'.files.get? l = some .directory ∧
          ∃ a, IsAbove directory a ∧ w'.files.locate true (withoutSlashes a) = .ok l) ∨
        ∃ a, select r.assets thisSystem thisMachine = some a ∧
          w'.files.locate true (join directory (utf8 a.name)) = .ok l ∧
          (∃ mode data, w'.files.get? l = some (.file mode data)) ∧
          ∀ part, Spells (utf8 a.name) [part] →
            ∃ d, OpensAt w'.files directory d ∧ l = d ++ [part]) ∧
      ∀ path, result = .ok path →
        ∃ a, select r.assets thisSystem thisMachine = some a ∧
          path = join directory (utf8 a.name) ∧
          (isAbsolute (utf8 a.name) = true → path = utf8 a.name) ∧
          (isAbsolute (utf8 a.name) = false → directory ≠ [] →
            ((∃ part, components path = components directory ++ [.name part]) ↔
              ∃ part, Spells (utf8 a.name) [part])) := by
  have hfiles := download_files s r directory w
  rw [h] at hfiles
  have hmakes := makeDirectories_makes w.files directory
  constructor
  · intro l hl
    rcases hfiles with ⟨hsame, -⟩ | ⟨a, data, ha, hstored, -⟩
    · exact absurd (congrArg (fun t => FileTree.get? t l) hsame) hl
    · dsimp only at hstored
      rcases store_files directory a.name data w.files with
        hmade | ⟨made, k, mode, hmade, hk, hold, hput⟩
      · rw [hstored, hmade] at hl ⊢
        exact .inl (hmakes.made l hl)
      · rw [hmade] at hmakes hlinks
        have hgrows : Grows made (made.put k (.file mode data)) := .put hold (by simp)
        rw [hstored, hput] at hl ⊢
        by_cases hlk : l = k
        · -- The file itself: a name that makes one step was walked from the directory.
          subst hlk
          right
          have hroot := ne_nil_of_free hold
          refine ⟨a, ha, locate_putFile hold hk, ⟨mode, data, get?_put_self hroot _⟩, ?_⟩
          intro part hpart
          rw [join_of_relative directory hpart.relative] at hk
          obtain ⟨d, hd⟩ := (makeDirectories_ready hmade).opens hk
          refine ⟨d, hd.grows hgrows, ?_⟩
          exact locate_front hd ((hlinks d hd).grows hmakes.grows) hpart hk
        · rw [get?_put_of_ne hlk] at hl ⊢
          obtain ⟨hnone, hdirectory, b, hb, hlocate⟩ := hmakes.made l hl
          exact .inl ⟨hnone, hdirectory, b, hb, locate_grows hgrows hdirectory hlocate⟩
  · rintro path rfl
    rcases hfiles with ⟨-, e, he⟩ | ⟨a, data, ha, -, hresult⟩
    · cases he
    · obtain ⟨rfl, -⟩ := store_ok (Prod.ext hresult.symm rfl)
      refine ⟨a, ha, rfl, ?_, ?_⟩
      · intro habsolute
        unfold join
        rw [if_pos (by simp [habsolute])]
      · intro hrelative hdirectory
        exact components_join_iff hdirectory hrelative

/-- A release whose asset for this system leads out of the directory. -/
def escapingRelease : Release where
  tag := "v1"
  assets := [⟨"../evil_linux", "http://host/evil", 0⟩]

/-- A server with the bytes of that asset, and a file where it leads. -/
def escapingWorld : World where
  files := { entries := [([utf8 "evil_linux"], .file newFileMode (utf8 "old"))], workingDirectory := [] }
  client := .getting [.answered 200 (some (utf8 "new"))]

/-- The download replaces a file that stands outside of its directory. -/
theorem download_escapes :
    ((Service.at "http://host" none).download escapingRelease (utf8 "/d") escapingWorld).1 =
        .ok (utf8 "/d/../evil_linux") ∧
      ((Service.at "http://host" none).download escapingRelease (utf8 "/d")
          escapingWorld).2.files.get? [utf8 "evil_linux"] =
        some (.file newFileMode (utf8 "new")) ∧
      ¬∃ part, components (utf8 "/d/../evil_linux") = components (utf8 "/d") ++ [.name part] := by
  have hresult : ((Service.at "http://host" none).download escapingRelease (utf8 "/d")
      escapingWorld).1 = .ok (utf8 "/d/../evil_linux") := by
    decide +kernel
  have hselect : select escapingRelease.assets thisSystem thisMachine =
      some ⟨"../evil_linux", "http://host/evil", 0⟩ := by
    decide +kernel
  have hlinks : ∀ d, OpensAt (escapingWorld.files.makeDirectories (utf8 "/d")).2 (utf8 "/d") d →
      NoLinkFrom escapingWorld.files d := by
    intro d _ l target _
    by_cases hl : l = [utf8 "evil_linux"]
    · subst hl
      have hfile : escapingWorld.files.get? [utf8 "evil_linux"] =
          some (.file newFileMode (utf8 "old")) := by
        decide +kernel
      simp [hfile]
    · cases l with
      | nil => simp [FileTree.get?]
      | cons name more => simp [FileTree.get?, escapingWorld, entryAt]
  refine ⟨hresult, by decide +kernel, ?_⟩
  obtain ⟨-, hpath⟩ := download_contained (Prod.eta _).symm hlinks
  obtain ⟨a, ha, -, -, hiff⟩ := hpath _ hresult
  rw [hselect] at ha
  cases ha
  rw [hiff (by decide +kernel) (by decide +kernel)]
  rintro ⟨part, -, hsteps⟩
  have hup : (parts (utf8 "../evil_linux")).filterMap componentOf =
      [.up, .name (utf8 "evil_linux")] := by
    decide +kernel
  rw [hup] at hsteps
  cases hsteps

end PluginHost.Release

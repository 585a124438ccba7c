import PluginHost.Proofs.Actions
import PluginHost.Proofs.Files.Changing
import PluginHost.Release.Download

/-!
# What downloading changes

Asking the client leaves the files alone (`KeepsFiles`).  Only `store` changes them: it makes the
directory and writes the file (`Stores`).
-/

namespace PluginHost.Release

open FileTree PluginHost.Path FileAction

/-! ## Asking the client -/

/-- The files are the same in both worlds. -/
def KeepsFiles (w w' : World) : Prop := w'.files = w.files

instance : Std.Refl KeepsFiles := ⟨fun _ => rfl⟩

instance : Trans KeepsFiles KeepsFiles KeepsFiles where
  trans h₁ h₂ := h₂.trans h₁

theorem fetch_keeps (s : Service) (url accept : String) : Moves KeepsFiles (s.fetch url accept) := by
  refine moves_bind ?_ fun reply => ?_
  · intro w
    rfl
  · intro w
    rfl

theorem latest_keeps (s : Service) (owner name : String) :
    Moves KeepsFiles (s.latest owner name) := by
  refine moves_bind (fetch_keeps s _ _) fun body => ?_
  intro w
  rfl

theorem fetchVerified_keeps (s : Service) (r : Release) (a : Asset) :
    Moves KeepsFiles (s.fetchVerified r a) := by
  refine moves_bind (fetch_keeps s _ _) fun data => ?_
  split
  · refine moves_bind (fetch_keeps s _ _) fun published => ?_
    refine moves_bind ?_ fun _ => moves_pure _
    intro w
    rfl
  · exact moves_pure _

/-! ## Storing -/

/-- Directories are made for one path, and then a file may be put at another one. -/
def Stores (directory place : Path) (t t' : FileTree) : Prop :=
  ∃ made, Makes directory t made ∧ (t' = made ∨ Puts (withoutSlashes place) made t')

theorem Stores.grows {directory place : Path} {t t' : FileTree} (h : Stores directory place t t') :
    Grows t t' := by
  obtain ⟨made, hmakes, rfl | hputs⟩ := h
  · exact hmakes.grows
  · exact hmakes.grows.trans hputs.grows

theorem store_stores (directory : Path) (name : String) (data : Bytes) (t : FileTree) :
    Stores directory (join directory (utf8 name)) t (store directory name data t).2 := by
  refine ⟨(t.makeDirectories directory).2, makeDirectories_makes t directory, ?_⟩
  unfold store
  rw [bind_run, changeAll_eq]
  cases hmade : t.makeDirectories directory with
  | mk r made =>
      cases r with
      | error e => exact .inl rfl
      | ok u =>
          show ((change _ _ >>= _) made).2 = made ∨ Puts _ made ((change _ _ >>= _) made).2
          rw [bind_pure_state]
          unfold change
          dsimp only
          cases hwrite : made.write (join directory (utf8 name)) data with
          | error e => exact .inl rfl
          | ok t' => exact .inr (writeWithMode_puts hwrite)

/-- Downloading either leaves the files alone or stores the chosen asset. -/
theorem download_stores (s : Service) (r : Release) (directory : Path) (w : World) :
    KeepsFiles w (s.download r directory w).2 ∨
      ∃ a, select r.assets thisSystem thisMachine = some a ∧
        Stores directory (join directory (utf8 a.name)) w.files
          (s.download r directory w).2.files := by
  unfold Service.download
  cases hselect : select r.assets thisSystem thisMachine with
  | none => exact .inl rfl
  | some a =>
      dsimp only
      rw [bind_run]
      have hkeeps := fetchVerified_keeps s r a w
      cases hfetch : s.fetchVerified r a w with
      | mk result fetched =>
          rw [hfetch] at hkeeps
          cases result with
          | error e => exact .inl hkeeps
          | ok data =>
              right
              refine ⟨a, rfl, ?_⟩
              have hfiles : fetched.files = w.files := hkeeps
              dsimp only
              rw [Task.onFiles_eq, hfiles]
              exact store_stores directory a.name data w.files

end PluginHost.Release

import PluginHost.Proofs.Files.Reading
import PluginHost.Proofs.Plugin.Loading

/-!
# What loading plugins leaves alone

What starting a child, dealing with children, changing the list of the tracked and telling
something keep, loading as a whole keeps (`LoadingMoves`, `loadEach_moves`).

Plugins are loaded without touching what stands in the files or in the input (`Spares`).  What the
host does to its children changes neither (`loading_spares`), so only the plugin directory may be
made (`listing_spares`).
-/

namespace PluginHost

open Children

namespace Children

/-- At most directories have been made, and nothing has been taken from the input. -/
structure Spares (h h' : Host) : Prop where
  files : h.world.files.AddsDirectories h'.world.files
  stdin : h'.stdin = h.stdin

theorem Spares.of_eq {h h' : Host} (hfiles : h'.world.files = h.world.files)
    (hstdin : h'.stdin = h.stdin) : Spares h h' := by
  refine ⟨?_, hstdin⟩
  rw [hfiles]
  exact .refl _

instance : Std.Refl Spares := ⟨fun _ => .of_eq rfl rfl⟩

instance : Trans Spares Spares Spares where
  trans h₁ h₂ := ⟨h₁.files.trans h₂.files, h₂.stdin.trans h₁.stdin⟩

theorem Spares.of_tends {h h' : Host} (htends : Tends h h') : Spares h h' :=
  .of_eq (congrArg World.files htends.world) htends.stdin

theorem note_spares {ε : Type} (record : LogRecord) :
    Moves Spares (Step.note record : Step ε Unit) :=
  fun _ => .of_eq rfl rfl

end Children

/-! ## Loading, step by step -/

/-- The relation holds along all that the host does to load plugins. -/
structure LoadingMoves (R : Host → Host → Prop) (options : LoadOptions) : Prop where
  spawn : ∀ path, Moves R (Children.spawn path options.args options.offer)
  tends : ∀ h h', Tends h h' → R h h'
  tracked : ∀ (h : Host) tracked, R h { h with tracked }
  note : ∀ {ε : Type} record, Moves R (Step.note record : Step ε Unit)

section Terminating

variable {R : Host → Host → Prop} [Std.Refl R] [Trans R R R] {ε : Type}
  (hends : ∀ (h : Host) pid, R h (h.childEnds pid))
  (htracked : ∀ (h : Host) tracked, R h { h with tracked })

include hends htracked

theorem terminate_moves (p : PluginProcess) :
    Moves R (Children.terminate p : Step ε PluginProcess) := by
  intro h
  unfold Children.terminate
  split_ifs
  · exact Std.Refl.refl h
  · exact Trans.trans (hends h p.pid) (htracked _ _)

theorem terminateAll_moves (plugins : PluginSet) :
    Moves R (plugins.terminate : Step ε PluginSet) :=
  Step.moves_mapM fun p _ =>
    moves_bind (terminate_moves hends htracked p.process) fun _ => moves_pure _

end Terminating

section LoadingMoves

variable {R : Host → Host → Prop} [Std.Refl R] [Trans R R R] {options : LoadOptions}
  (hR : LoadingMoves R options)

include hR

omit [Std.Refl R] in
theorem LoadingMoves.terminateAll (h : Host) : R h h.terminateAll :=
  Trans.trans (hR.tracked h []) (hR.tends _ _ (terminateAll_tends h))

theorem LoadingMoves.terminate {ε : Type} (p : PluginProcess) :
    Moves R (Children.terminate p : Step ε PluginProcess) :=
  terminate_moves (fun h pid => hR.tends _ _ (childEnds_tends h pid)) hR.tracked p

theorem describe_moves (process : PluginProcess) :
    Moves R (LoadedPlugin.describe options process) :=
  Step.moves_of_interruptible hR.terminateAll <|
    describe_interruptible hR.tends fun _ h => hR.note (ε := Unit) _ h

theorem load_moves (path : Path) : Moves R (LoadedPlugin.load options path) := by
  refine moves_bind (hR.spawn _) fun process =>
    moves_bind (Step.moves_attempt (describe_moves hR _)) fun described => ?_
  split
  · exact moves_pure _
  · exact moves_bind (hR.terminate _) fun _ => Step.moves_fail _

theorem loadEach_moves {ε : Type} (paths : List Path) :
    Moves R (PluginSet.loadEach options paths : Step ε PluginSet) := by
  induction paths with
  | nil => exact moves_pure _
  | cons path paths ih =>
      refine moves_bind (Step.moves_attempt (load_moves hR path)) fun loaded => ?_
      split
      · exact moves_bind (hR.note _) fun _ => moves_bind ih fun _ => moves_pure _
      · exact moves_bind (hR.note _) fun _ => ih

end LoadingMoves

/-! ## Plugins -/

theorem loading_spares (options : LoadOptions) : LoadingMoves Spares options where
  spawn path h := by
    rcases spawn_cases path options.args options.offer h with ⟨e, hrun⟩ | ⟨program, name, env, hrun⟩
    · rw [hrun]
      exact .of_eq rfl rfl
    · obtain ⟨child, -, -, htends⟩ := start_opened h program name options.args env
      have hopened : Spares h (h.opened child) := .of_eq rfl rfl
      rw [hrun]
      exact Trans.trans hopened (Spares.of_tends htends)
  tends _ _ := Spares.of_tends
  tracked _ _ := .of_eq rfl rfl
  note record := note_spares record

theorem pluginFiles_adds (directory : Path) :
    Moves FileTree.AddsDirectories (pluginFiles directory) := by
  intro t
  unfold pluginFiles
  split_ifs
  · rw [FileAction.ask_eq]
    exact .refl t
  · have hmakes := (t.makeDirectories_makes directory).addsDirectories
    cases hmade : t.makeDirectories directory with
    | mk r t' =>
        rw [hmade] at hmakes
        cases r <;> exact hmakes

/-- The files of the plugin directory are listed without touching what stands in the files. -/
theorem listing_spares (directory : Path) :
    Moves Spares (Step.onWorld (Task.onFiles ((pluginFiles directory).wrapped .io)) :
      Step PluginError (List Path)) := by
  refine Step.moves_onWorld fun h => ⟨?_, rfl⟩
  rw [Task.onFiles_eq, FileAction.wrapped_eq]
  exact pluginFiles_adds directory h.world.files

/-- Ending plugins does not fail. -/
theorem terminateAll_ok {ε : Type} (plugins : PluginSet) (h : Host) :
    ∃ ended, (plugins.terminate h : Except (Stop ε) PluginSet × Host).1 = .ok ended := by
  refine Step.mapM_succeeds (fun p h => ?_) plugins h
  obtain ⟨ended, hended⟩ := terminate_ok (ε := ε) p.process h
  unfold LoadedPlugin.terminate
  rw [bind_run]
  cases hrun : (Children.terminate p.process : Step ε PluginProcess) h with
  | mk r h' =>
      rw [hrun] at hended
      cases hended
      exact ⟨_, rfl⟩

theorem terminateAll_spares {ε : Type} (plugins : PluginSet) :
    Moves Spares (plugins.terminate : Step ε PluginSet) :=
  terminateAll_moves (fun h pid => .of_tends (childEnds_tends h pid)) (fun _ _ => .of_eq rfl rfl)
    plugins

end PluginHost

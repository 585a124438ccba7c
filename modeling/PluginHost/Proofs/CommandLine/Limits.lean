import PluginHost.CommandLine.Run
import PluginHost.Proofs.Config.Edits
import PluginHost.Proofs.Plugin.Answering
import PluginHost.Proofs.Plugin.Isolation

/-!
# The limits of a configuration

A configuration comes from a file, or holds the defaults, and is edited.  Its limits leave a plugin
time if neither of them is zero; `leavesTime_editAll_iff` says which edits see to that.  An edit of
the handshake limit does not accept zero, but an edit of the limit for calls does, and so does the
file for both.

By `limits_after_edits` this is all that matters: if there is time, a plugin that answers at once is
loaded, and if there is none, no plugin is.
-/

namespace PluginHost.CommandLine

open Children Config FileTree

theorem leavesTime_iff (c : Config) :
    LeavesTime c.handshakeTimeout c.runTimeout ↔
      c.handshakeSeconds ≠ 0 ∧ c.runSeconds ≠ some 0 := by
  unfold LeavesTime handshakeTimeout runTimeout Duration.isZero
  cases c.runSeconds <;> simp

/-- The limit for a handshake is zero only if it has been before and is not edited; that for calls
is also zero if it has been edited to zero last. -/
theorem leavesTime_editAll_iff {c₀ c : Config} {edits : List Edit} (h : c₀.editAll edits = .ok c) :
    LeavesTime c.handshakeTimeout c.runTimeout ↔
      (lastSeconds? .handshakeSeconds edits = none → c₀.handshakeSeconds ≠ 0) ∧
        (lastText? .runSeconds edits).elim c₀.runSeconds secondsOf? ≠ some 0 := by
  obtain ⟨hhandshake, hnever⟩ := editAll_handshakeSeconds h
  have hkept : c.handshakeSeconds ≠ 0 ↔
      (lastSeconds? .handshakeSeconds edits = none → c₀.handshakeSeconds ≠ 0) := by
    rw [hhandshake]
    cases hlast : lastSeconds? .handshakeSeconds edits with
    | none => simp
    | some n =>
        rw [hlast] at hnever
        simpa using hnever
  rw [leavesTime_iff, hkept, editAll_runSeconds h]

/-- The limits of a configuration that has been read or holds the defaults, and has been edited.
If they leave time, every plugin that answers at once is loaded, and describes itself; if they do
not, no plugin is loaded from any file. -/
theorem limits_after_edits {c₀ c : Config} {edits : List Edit} (h : c₀.editAll edits = .ok c) :
    (LeavesTime c.handshakeTimeout c.runTimeout ↔
      (lastSeconds? .handshakeSeconds edits = none → c₀.handshakeSeconds ≠ 0) ∧
        (lastText? .runSeconds edits).elim c₀.runSeconds secondsOf? ≠ some 0) ∧
    (LeavesTime c.handshakeTimeout c.runTimeout →
      ∀ (σ : Type) (program : Program σ) initial written transport address args path host,
        Answering program initial written transport address (forwardedArgs args) path host →
        ∃ p host', LoadedPlugin.load (loadOptionsOf c args) path host = (.ok p, host') ∧
          p.descriptor = .ofInfo (program.info initial) path) ∧
    (¬LeavesTime c.handshakeTimeout c.runTimeout →
      ∀ args path host p host',
        LoadedPlugin.load (loadOptionsOf c args) path host ≠ (.ok p, host')) :=
  ⟨leavesTime_editAll_iff h,
    fun htime _ _ _ _ _ _ _ _ _ hplugin => load_answering hplugin rfl htime,
    fun htime _ _ _ _ _ hload => htime (leavesTime_of_load hload)⟩

/-- A host that finds a plugin that does nothing. -/
def quietHost : Host :=
  { pluginHost with
    executables := fun data =>
      if data == utf8 "demo" then some (launchOf quietProgram () (fun _ => []) "127.0.0.1:4000")
      else none }

theorem answering_quietHost :
    Answering quietProgram () (fun _ => []) .tcp "127.0.0.1:4000" [] (utf8 "/plugins/echo")
      quietHost where
  passable := by decide
  runs := by
    have hfile : executableFile quietHost.world.files (utf8 "/plugins/echo") =
        .ok ([utf8 "plugins", utf8 "echo"], utf8 "demo") := by
      decide +kernel
    refine ⟨launchOf quietProgram () (fun _ => []) "127.0.0.1:4000", utf8 "echo", ?_, rfl⟩
    unfold programOf
    rw [hfile]
    rfl
  named := by decide
  isAddress := ⟨by decide, by decide, by decide⟩
  reachable := by decide +kernel
  free := by decide
  fresh := by decide

/-- A configuration file with both limits zero. -/
def hastyTree : FileTree where
  entries := [([utf8 "cfg"], .directory), ([utf8 "cfg", utf8 "config.toml"], .file newFileMode
    (utf8 "[plugins]\nhandshake_timeout_secs = 0\nrun_timeout_secs = 0\n"))]
  workingDirectory := []

/-- With the defaults the plugin is loaded.  A limit of zero is accepted, from an edit as well as
from a file, and keeps it out. -/
theorem limits_after_edits_zero :
    (∃ p host', LoadedPlugin.load (loadOptionsOf default []) (utf8 "/plugins/echo") quietHost =
      (.ok p, host')) ∧
    (∃ c, default.editAll [.set "plugins.run_timeout_secs" "0"] = .ok c ∧
      ∀ p host', LoadedPlugin.load (loadOptionsOf c []) (utf8 "/plugins/echo") quietHost ≠
        (.ok p, host')) ∧
    ∃ c, Config.load hastyTree (utf8 "cfg") = .ok c ∧
      c.handshakeSeconds = 0 ∧ c.runSeconds = some 0 ∧
      ∀ p host', LoadedPlugin.load (loadOptionsOf c []) (utf8 "/plugins/echo") quietHost ≠
        (.ok p, host') := by
  refine ⟨?_, ?_, ?_⟩
  · have hnone : default.editAll [] = .ok default := rfl
    obtain ⟨htime, hloads, -⟩ := limits_after_edits hnone
    obtain ⟨p, host', hload, -⟩ := hloads (htime.2 (by decide)) _ _ _ _ _ _ [] _ _
      answering_quietHost
    exact ⟨p, host', hload⟩
  · obtain ⟨c, hc⟩ : ∃ c, default.editAll [.set "plugins.run_timeout_secs" "0"] = .ok c := ⟨_, rfl⟩
    obtain ⟨htime, -, hnone⟩ := limits_after_edits hc
    exact ⟨c, hc, hnone (fun hleaves => absurd (htime.1 hleaves) (by decide)) _ _ _⟩
  · have hload : Config.load hastyTree (utf8 "cfg") =
        .ok { default with handshakeSeconds := 0, runSeconds := some 0 } :=
      ok_of_toOption (by decide +kernel)
    have hsame :
        ({ default with handshakeSeconds := 0, runSeconds := some 0 } : Config).editAll [] =
          .ok { default with handshakeSeconds := 0, runSeconds := some 0 } := rfl
    obtain ⟨htime, -, hnone⟩ := limits_after_edits hsame
    exact ⟨_, hload, rfl, rfl, hnone (fun hleaves => (htime.1 hleaves).1 rfl rfl) _ _ _⟩

end PluginHost.CommandLine

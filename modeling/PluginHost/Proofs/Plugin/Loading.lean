import PluginHost.Plugin.Loading
import PluginHost.Proofs.Children.Accounting

/-!
# What loading a plugin comes to

`stages` is what a plugin goes through when it is loaded: it is started, completes the handshake, is
connected to and describes itself.  Loading does two things more: it tells what it does, and it ends
the process when a stage fails.

So there are two kinds of results.  Loading comes to what the stages come to, since nothing depends
on what has been told (`load_descriptor`).  And it leaves a tracked child, or no child at all
(`load_accounted`).  `load_of_success` and `load_of_failure` say both at once.
-/

namespace PluginHost

open Children Rpc

/-! ## The stages of a plugin -/

/-- A started plugin completes the handshake, is connected to and describes itself. -/
def described (options : LoadOptions) (process : PluginProcess) : Step PluginError PluginInfo := do
  let line ← awaitHandshake process options.handshakeLimit options.offer
  let (server, client) ← (connect line options.answerLimit).wrapped .rpc
  let (described, _) ← performCall server client Client.describe
  Step.ofExcept (described.mapError .rpc)

/-- A file is started as a plugin, which then goes through its stages. -/
def stages (options : LoadOptions) (path : Path) : Step PluginError PluginInfo := do
  let process ← spawn path options.args options.offer
  described options process

theorem connect_noted (line : HandshakeLine) (limit : Option Duration) (h : Host)
    (record : LogRecord) :
    (connect line limit (Step.noted h record)).1 = (connect line limit h).1 := by
  unfold connect
  have hsame : (Step.noted h record).connect line.transport line.address =
      h.connect line.transport line.address := rfl
  rw [hsame]
  cases h.connect line.transport line.address with
  | error e => rfl
  | ok reached =>
      dsimp only
      split_ifs <;> rfl

/-- What a child answers does not depend on the log. -/
theorem performCall_noted {ε α : Type} (pid : Nat) (client : Client) (call : Client → Call α)
    (h : Host) (record : LogRecord) :
    (performCall pid client call (Step.noted h record) : Except (Stop ε) _ × Host).1 =
      (performCall pid client call h : Except (Stop ε) _ × Host).1 := by
  have hreact : ∀ r, ((Step.noted h record).react pid r).1 = (h.react pid r).1 := by
    intro r
    unfold Host.react
    dsimp only
    split_ifs <;> rfl
  have halive : (Step.noted h record).isAlive pid = h.isAlive pid := rfl
  unfold performCall
  rw [halive]
  dsimp only
  generalize (call _) = c
  cases c.reaction with
  | none => cases c.outcome <;> rfl
  | some r =>
      have hr := hreact r
      dsimp only
      cases hnoted : (Step.noted h record).react pid r with
      | mk reacted h₁ =>
          cases hplain : h.react pid r with
          | mk reacted' h₂ =>
              rw [hnoted, hplain] at hr
              cases hr
              cases reacted with
              | error s => rfl
              | ok u => cases c.outcome <;> rfl

/-- The plugin that describes itself bears the description and the path of its file. -/
theorem describe_descriptor (options : LoadOptions) (process : PluginProcess) (h : Host) :
    (LoadedPlugin.describe options process h).1.map (·.descriptor) =
      (described options process h).1.map (.ofInfo · process.path) := by
  unfold LoadedPlugin.describe described
  refine Step.bind_result_congr rfl fun line _ => ?_
  rw [bind_run, Step.note_run]
  dsimp only
  -- The record that is told here is all that the two differ in.
  refine Step.bind_result_congr (Step.wrapped_congr (connect_noted _ _ _ _)) fun reached _ => ?_
  rw [Step.wrapped_state, Step.wrapped_state, connect_state, connect_state]
  refine Step.bind_result_congr (performCall_noted _ _ _ _ _) fun answered _ => ?_
  obtain ⟨answer, client⟩ := answered
  cases answer <;> rfl

theorem describe_process {options : LoadOptions} {process : PluginProcess} {h h' : Host}
    {plugin : LoadedPlugin} (hrun : LoadedPlugin.describe options process h = (.ok plugin, h')) :
    plugin.process = process := by
  unfold LoadedPlugin.describe at hrun
  obtain ⟨line, h₁, -, hrun⟩ := bind_ok hrun
  obtain ⟨_, h₂, -, hrun⟩ := bind_ok hrun
  obtain ⟨reached, h₃, -, hrun⟩ := bind_ok hrun
  obtain ⟨answered, h₄, -, hrun⟩ := bind_ok hrun
  obtain ⟨answer, client⟩ := answered
  cases answer with
  | error e => cases hrun
  | ok info =>
      cases hrun
      rfl

/-- What keeps up with the children, and with what is told of the plugin, keeps up with describing
it. -/
theorem describe_interruptible {R : Host → Host → Prop} [Std.Refl R] [Trans R R R]
    {options : LoadOptions} {process : PluginProcess} (htends : ∀ h h', Tends h h' → R h h')
    (hnote : ∀ line h, R h (Step.noted h (listeningRecord process.path line))) :
    Step.Interruptible R (LoadedPlugin.describe options process) := by
  refine Step.interruptible_bind ((awaitHandshake_tends _ _ _).mono htends) fun line =>
    Step.interruptible_bind (Step.interruptible_note (hnote line)) fun _ =>
      Step.interruptible_bind (Step.interruptible_wrapped ((connect_tends _ _).mono htends))
        fun reached => Step.interruptible_bind ((performCall_tends _ _ _).mono htends)
          fun answered => ?_
  obtain ⟨answer, client⟩ := answered
  cases answer with
  | error e => exact Step.interruptible_fail _
  | ok info => exact Step.interruptible_pure _

theorem describe_settles (options : LoadOptions) (process : PluginProcess) :
    Step.Returns Settles (LoadedPlugin.describe options process) :=
  Step.returns_of_interruptible <|
    describe_interruptible (fun _ _ => Settles.of_tends) fun line h =>
      noted_accounted h (listeningRecord process.path line)

/-- A file that may not be executed fails before anything is started. -/
theorem stages_of_refused {options : LoadOptions} {path : Path} {h : Host} {e : IoError}
    (hargs : refusedArgs options.args = none)
    (hfile : executableFile h.world.files path = .error e) :
    (stages options path h).1 = .error (.failed (.ofSpawn path e)) := by
  have hspawn : h.spawn path options.args options.offer = .error e := by
    simp only [Host.spawn, programOf, hargs, hfile, bind, Except.bind]
  rw [stages, bind_run, spawn, hspawn]

/-! ## Loading one file -/

/-- Loading a file comes to what its stages come to. -/
theorem load_descriptor (options : LoadOptions) (path : Path) (h : Host) :
    (LoadedPlugin.load options path h).1.map (·.descriptor) =
      (stages options path h).1.map (.ofInfo · path) := by
  unfold LoadedPlugin.load stages
  refine Step.bind_result_congr rfl fun process hprocess => ?_
  have hpath : process.path = path := by
    rcases spawn_cases path options.args options.offer h with ⟨e, hrun⟩ | ⟨_, _, _, hrun⟩ <;>
      rw [hrun] at hprocess <;> cases hprocess
    rfl
  rw [← hpath, ← describe_descriptor, bind_run, Step.attempt_run]
  generalize (spawn process.path options.args options.offer h).2 = started
  cases LoadedPlugin.describe options process started with
  | mk r h' =>
      rcases r with (e | s) | plugin
      · obtain ⟨ended, hended⟩ := terminate_ok (ε := PluginError) process h'
        dsimp only
        rw [bind_run]
        cases hrun : (terminate process : Step PluginError PluginProcess) h' with
        | mk r' h'' =>
            rw [hrun] at hended
            cases hended
            rfl
      · rfl
      · rfl

/-- Loading a file leaves a child that is tracked, or nothing but what has been passed on. -/
theorem load_accounted (options : LoadOptions) (path : Path) {h : Host} (hn : h.Numbered) :
    match LoadedPlugin.load options path h with
    | (.ok plugin, h') =>
        plugin.process.isTerminated = false ∧ Accounted h [plugin.process.pid] [] h'
    | (.error (.failed _), h') => Settles h h'
    | (.error (.halted _), _) => True := by
  unfold LoadedPlugin.load
  rw [bind_run]
  rcases spawn_cases path options.args options.offer h with ⟨e, hrun⟩ | ⟨program, name, env, hrun⟩
  · rw [hrun]
    exact .refl h
  · have hstarted := start_accounted h program name options.args env
    rw [hrun]
    dsimp only
    rw [bind_run, Step.attempt_run]
    generalize (h.start program name options.args env).2 = h₁ at hstarted ⊢
    have hreturns := describe_settles options { path, pid := h.nextPid } h₁
    cases hdescribe : LoadedPlugin.describe options { path, pid := h.nextPid } h₁ with
    | mk r h₂ =>
        rw [hdescribe] at hreturns
        rcases r with (e | s) | plugin
        · have hfailed := hstarted.trans (hreturns nofun)
          have hended := hfailed.ended hn (List.mem_singleton_self h.nextPid)
          rw [List.append_nil, List.filter_cons_of_neg (by simp)] at hended
          dsimp only
          rw [bind_run, terminate_run rfl]
          exact hended
        · exact trivial
        · have hprocess := describe_process hdescribe
          refine ⟨by rw [hprocess], ?_⟩
          rw [hprocess]
          exact hstarted.trans (hreturns nofun)

theorem load_of_success {options : LoadOptions} {path : Path} {h : Host} (hn : h.Numbered)
    {info : PluginInfo} (hstages : (stages options path h).1 = .ok info) :
    ∃ plugin h', LoadedPlugin.load options path h = (.ok plugin, h') ∧
      plugin.descriptor = .ofInfo info path ∧ plugin.process.isTerminated = false ∧
      Accounted h [plugin.process.pid] [] h' := by
  have hdescriptor := load_descriptor options path h
  have haccounted := load_accounted options path hn
  rw [hstages] at hdescriptor
  cases hload : LoadedPlugin.load options path h with
  | mk r h' =>
      rw [hload] at hdescriptor haccounted
      cases r with
      | error stop => cases hdescriptor
      | ok plugin =>
          exact ⟨plugin, h', rfl, Except.ok.inj hdescriptor, haccounted.1, haccounted.2⟩

theorem load_of_failure {options : LoadOptions} {path : Path} {h : Host} (hn : h.Numbered)
    {e : PluginError} (hstages : (stages options path h).1 = .error (.failed e)) :
    ∃ h', LoadedPlugin.load options path h = (.error (.failed e), h') ∧ Settles h h' := by
  have hdescriptor := load_descriptor options path h
  have haccounted := load_accounted options path hn
  rw [hstages] at hdescriptor
  cases hload : LoadedPlugin.load options path h with
  | mk r h' =>
      rw [hload] at hdescriptor haccounted
      cases r with
      | ok plugin => cases hdescriptor
      | error stop =>
          cases hdescriptor
          exact ⟨h', rfl, haccounted⟩

end PluginHost

import PluginHost.CommandLine.Run
import PluginHost.Proofs.CommandLine.Grammar
import PluginHost.Proofs.Config.Editing
import PluginHost.Proofs.Plugin.Sparing

/-!
# Command lines that edit the configuration

Three requests edit the configuration: one changes a setting, one stores a token and one takes a
token away.  `Edited` says what each of them makes of the configuration that the run started with.

The run goes through reading the configuration and loading plugins (`opening_spares`), the edit,
which is saved or changes nothing (`perform_edits`), and ending the plugins.  `edit_run` puts them
together: a run that succeeds has saved the edit, and a run that fails has left the file as it was.
What is edited is what was loaded, or else the defaults.  So a file that cannot be loaded is
replaced by every run that succeeds.
-/

namespace PluginHost.CommandLine

open Children

/-- The request edits the configuration. -/
def Request.isEdit : Request → Bool
  | .configSet _ _ => true
  | .addToken _ _ => true
  | .removeToken _ => true
  | _ => false

/-- The token that is to be stored: the one that is given, or else the line that is typed. -/
def tokenOf? (given : Option String) (stdin : Bytes) : Option String :=
  match given with
  | some token => some token
  | none => (chars? ((linesOf stdin).headD [])).map fun line => String.ofList (Text.trimChars line)

/-- The second configuration is the first one with the edit that is asked for, and with no other. -/
def Edited (stdin : Bytes) (c c' : Config) : Request → Prop
  | .configSet name value =>
      c.set name value = .ok c' ∧ ∃ key, Config.Key.ofName? name = some key ∧ c.OnlyChanges key c'
  | .addToken name given =>
      ∃ token, tokenOf? given stdin = some token ∧ token ≠ "" ∧ c.OnlyPuts name (some token) c'
  | .removeToken name => c.token? name ≠ none ∧ c.OnlyPuts name none c'
  | _ => False

/-! ## Before the command -/

/-- The relation holds along all that the host does to open a session. -/
structure OpeningMoves (R : Host → Host → Prop) (args : List Bytes) : Prop where
  loading : ∀ config, LoadingMoves R (loadOptionsOf config args)
  listing : ∀ directory, Moves R (Step.onWorld
    (Task.onFiles ((pluginFiles directory).wrapped .io)) : Step PluginError (List Path))
  shown : ∀ (h : Host) logView, R h { h with logView }
  told : ∀ (h : Host) stderr, R h { h with stderr }

section OpeningMoves

variable {R : Host → Host → Prop} [Std.Refl R] [Trans R R R] {ε : Type}

omit [Trans R R R] in
theorem tellDefaults_moves (hnote : ∀ record, Moves R (Step.note record : Step ε Unit))
    (loaded : Except ConfigError Config) : Moves R (tellDefaults loaded : Step ε Unit) := by
  cases loaded with
  | error e => exact hnote _
  | ok c => exact moves_pure _

theorem registerPlugins_moves (hnote : ∀ record, Moves R (Step.note record : Step ε Unit))
    (plugins : PluginSet) : Moves R (registerPlugins plugins : Step ε Registry) :=
  moves_bind (Step.moves_forM fun record _ => hnote record) fun _ =>
    moves_bind (Step.moves_forM fun record _ => hnote record) fun _ => moves_pure _

variable {args : List Bytes} (hR : OpeningMoves R args)

include hR

theorem loadPlugins_moves (config : Config) (directory : Path) :
    Moves R (loadPlugins (loadOptionsOf config args) directory : Step ε PluginSet) := by
  have hall : Moves R (PluginSet.loadAll (loadOptionsOf config args) directory) :=
    moves_bind (hR.listing directory) fun paths => loadEach_moves (hR.loading config) paths
  refine moves_bind (Step.moves_attempt hall) fun loaded => ?_
  cases loaded with
  | ok plugins => exact moves_pure _
  | error e => exact moves_bind ((hR.loading config).note _) fun _ => moves_pure _

theorem openSession_moves : Moves R (openSession args) := by
  have hnote : ∀ record, Moves R (Step.note record : Step Failure Unit) :=
    (hR.loading Config.default).note
  refine moves_bind Step.moves_get fun h₀ => ?_
  refine moves_bind (Step.moves_wrapped (Step.moves_ofExcept _)) fun directory => ?_
  refine moves_bind Step.moves_get fun h₁ => ?_
  refine moves_bind (Step.moves_modify fun h => hR.shown h _) fun _ => ?_
  refine moves_bind (Step.moves_forM fun line _ => Step.moves_modify fun h => hR.told h _)
    fun _ => ?_
  refine moves_bind (tellDefaults_moves hnote _) fun _ => ?_
  refine moves_bind (loadPlugins_moves hR _ _) fun plugins => ?_
  exact moves_bind (registerPlugins_moves hnote _) fun registry => moves_pure _

end OpeningMoves

theorem opening_spares (args : List Bytes) : OpeningMoves Spares args where
  loading _ := loading_spares _
  listing := listing_spares
  shown _ _ := .of_eq rfl rfl
  told _ _ := .of_eq rfl rfl

/-- What is set up and told before the plugins are loaded. -/
def setUp (config : Config) (loaded : Except ConfigError Config) (environment : Environment)
    (args : List Bytes) : Step Failure Unit := do
  let (filter, complaints) := filterOf config environment args
  showLog config filter
  complaints.forM fun line => Step.printError (utf8 (line ++ "\n"))
  tellDefaults loaded

/-- A session is opened by setting up the log, loading the plugins and registering their commands.
It works with the configuration that was found, or else with the defaults. -/
theorem openSession_stages {args : List Bytes} {h h' : Host} {s : Session} {registry : Registry}
    (hrun : openSession args h = (.ok (s, registry), h')) :
    (Config.directoryOf h.environment = .ok s.directory ∧
      s.config = (Config.load h.world.files s.directory).toOption.getD Config.default ∧
      s.command = programCommand.augmented registry) ∧
    ∃ h₁ h₂, setUp s.config (Config.load h.world.files s.directory) h.environment args h =
        (.ok (), h₁) ∧
      (loadPlugins (loadOptionsOf s.config args) (s.config.pluginsIn h.environment s.directory) :
        Step Failure PluginSet) h₁ = (.ok s.plugins, h₂) ∧
      (registerPlugins s.plugins : Step Failure Registry) h₂ = (.ok registry, h') := by
  obtain ⟨_, _, hget, hrun⟩ := bind_ok hrun
  cases hget
  obtain ⟨directory, _, hdirectory, hrun⟩ := bind_ok hrun
  obtain ⟨hdirectory, rfl⟩ := Step.ofExcept_ok (Step.wrapped_ok hdirectory)
  obtain ⟨_, _, hget, hrun⟩ := bind_ok hrun
  cases hget
  obtain ⟨_, _, hshow, hrun⟩ := bind_ok hrun
  obtain ⟨_, _, htold, hrun⟩ := bind_ok hrun
  obtain ⟨_, h₁, hdefaults, hrun⟩ := bind_ok hrun
  obtain ⟨plugins, h₂, hload, hrun⟩ := bind_ok hrun
  obtain ⟨found, _, hregister, hrun⟩ := bind_ok hrun
  cases hrun
  exact ⟨⟨hdirectory, rfl, rfl⟩, h₁, h₂,
    (bind_of_ok hshow).trans ((bind_of_ok htold).trans hdefaults), hload, hregister⟩

/-! ## The edit -/

/-- A step either saves a configuration into the directory of the session, or it fails and leaves
the files. -/
def SavesOrFails (s : Session) (P : Config → Prop) (step : Step Failure Unit) (h : Host) : Prop :=
  ((step h).1 = .ok () ∧
      ∃ c p, P c ∧ c.save h.world.files s.directory = (.ok p, (step h).2.world.files)) ∨
    (∃ f, (step h).1 = .error (.failed f)) ∧ Spares h (step h).2

theorem savesOrFails_fail {s : Session} {P : Config → Prop} {f : Failure} {h : Host} :
    SavesOrFails s P (Step.fail f) h :=
  .inr ⟨⟨f, rfl⟩, .of_eq rfl rfl⟩

theorem save_run (s : Session) (c : Config) (h : Host) :
    s.save c h =
      match c.save h.world.files s.directory with
      | (.ok p, t) => (.ok p, Step.withWorld h { h.world with files := t })
      | (.error e, t) =>
          (.error (.failed (Failure.ofConfig e)),
            Step.withWorld h { h.world with files := t }) := by
  unfold Session.save
  rw [Step.wrapped_run]
  unfold Step.onWorld
  dsimp only
  cases c.save h.world.files s.directory with
  | mk r t => cases r <;> rfl

/-- A configuration is saved, and then something is printed. -/
theorem savesOrFails_save {s : Session} {P : Config → Prop} {c : Config} (hc : P c)
    (text : Path → String) (h : Host) :
    SavesOrFails s P (do printLine (text (← s.save c))) h := by
  have hsave := save_run s c h
  unfold SavesOrFails
  rw [bind_run]
  cases hresult : c.save h.world.files s.directory with
  | mk r t =>
      rw [hresult] at hsave
      rw [hsave]
      cases r with
      | error e => exact .inr ⟨⟨_, rfl⟩, Config.save_error hresult, rfl⟩
      | ok p => exact .inl ⟨rfl, c, p, hc, hresult⟩

/-- A token is given, or it is typed; nothing but the output changes. -/
theorem obtainToken_cases (name : String) (given : Option String) (h : Host) :
    (∃ token h', Session.obtainToken name given h = (.ok token, h') ∧
        tokenOf? given h.stdin = some token ∧ h'.world = h.world ∧ h'.stdin = h.stdin) ∨
      ∃ f h', Session.obtainToken name given h = (.error (.failed f), h') ∧ Spares h h' := by
  cases given with
  | some token => exact .inl ⟨token, h, rfl, rfl, rfl, rfl⟩
  | none =>
      have hask : Session.obtainToken name none = Session.askToken name := rfl
      have hprint : ∀ text, (Step.print text : Step Failure Unit) h =
          (.ok (), { h with stdout := h.stdout ++ text }) := fun _ => rfl
      have hget : ∀ h, (get : Step Failure Host) h = (.ok h, h) := fun _ => rfl
      rw [hask, Session.askToken, bind_run, hprint]
      dsimp only
      rw [bind_run, hget]
      dsimp only
      unfold tokenOf?
      cases chars? ((linesOf h.stdin).headD []) with
      | some line => exact .inl ⟨_, _, rfl, rfl, rfl, rfl⟩
      | none => exact .inr ⟨_, _, rfl, .of_eq rfl rfl⟩

/-- An edit is saved, with its tokens in order, or it fails. -/
theorem perform_edits {s : Session} (hs : s.config.Ordered) (registry : Registry) {r : Request}
    (hr : r.isEdit = true) (h : Host) :
    SavesOrFails s (fun c => Edited h.stdin s.config c r ∧ c.Ordered) (s.perform registry r) h := by
  cases r with
  | configSet name value =>
      show SavesOrFails s _ (s.setKey name value) h
      unfold Session.setKey
      cases hset : s.config.set name value with
      | error e => exact savesOrFails_fail
      | ok c =>
          have hedited : Edited h.stdin s.config c (.configSet name value) ∧ c.Ordered :=
            ⟨⟨hset, Config.set_onlyChanges hset⟩, hs.set hset⟩
          exact savesOrFails_save hedited
            (fun path => "Updated " ++ name ++ " in " ++ Path.display path) h
  | addToken name given =>
      show SavesOrFails s _ (s.addToken name given) h
      unfold SavesOrFails Session.addToken
      rw [bind_run]
      rcases obtainToken_cases name given h with
        ⟨token, h', hrun, htoken, hworld, hstdin⟩ | ⟨f, h', hrun, hspares⟩
      · rw [hrun]
        dsimp only
        by_cases hempty : token.isEmpty = true
        · rw [if_pos hempty]
          exact .inr ⟨⟨_, rfl⟩, .of_eq (congrArg World.files hworld) hstdin⟩
        · rw [if_neg hempty]
          have hne : token ≠ "" := by simpa using hempty
          have hedited : Edited h.stdin s.config (s.config.putToken name token)
              (.addToken name given) ∧ (s.config.putToken name token).Ordered :=
            ⟨⟨token, htoken, hne, Config.putToken_onlyPuts s.config name token⟩,
              hs.putToken name token⟩
          have hsaves := savesOrFails_save (s := s)
            (P := fun c => Edited h.stdin s.config c (.addToken name given) ∧ c.Ordered) hedited
            (fun _ => (if (s.config.token? name).isSome then "Updated" else "Added")
              ++ " access token '" ++ name ++ "'") h'
          unfold SavesOrFails at hsaves
          rw [hworld] at hsaves
          refine hsaves.imp_right fun hfails => ⟨hfails.1, ?_⟩
          exact Trans.trans (Spares.of_eq (congrArg World.files hworld) hstdin) hfails.2
      · rw [hrun]
        exact .inr ⟨⟨f, rfl⟩, hspares⟩
  | removeToken name =>
      show SavesOrFails s _ (s.removeToken name) h
      unfold Session.removeToken
      split_ifs with hnone
      · exact savesOrFails_fail
      · have hsome : s.config.token? name ≠ none := by simpa using hnone
        have hedited : Edited h.stdin s.config (s.config.dropToken name) (.removeToken name) ∧
            (s.config.dropToken name).Ordered :=
          ⟨⟨hsome, Config.dropToken_onlyPuts s.config name⟩, hs.dropToken name⟩
        exact savesOrFails_save hedited (fun _ => "Removed access token '" ++ name ++ "'") h
  | _ => contradiction

/-! ## The run -/

/-- What a command line asks for, under a command. -/
def requested (c : Command) (args : List Bytes) : Option Request :=
  (c.parse args).toOption.bind Request.ofInvocation

theorem answer_of_requested {s : Session} {args : List Bytes} {r : Request}
    (hrequested : requested s.command args = some r) (registry : Registry) :
    s.answer registry args = (do s.perform registry r; pure 0) := by
  unfold requested at hrequested
  unfold Session.answer
  cases hparse : s.command.parse args with
  | error refusal =>
      rw [hparse] at hrequested
      cases hrequested
  | ok i =>
      rw [hparse] at hrequested
      have hrequest : Request.ofInvocation i = some r := hrequested
      dsimp only
      rw [hrequest]

/-- The command line asks for the request, as it is read once the plugins are loaded. -/
def Asks (args : List Bytes) (r : Request) (h : Host) : Prop :=
  ∀ s registry h', openSession args h = (.ok (s, registry), h') →
    requested s.command args = some r

/-- A command line of the host asks for what it says, unless a plugin bears the name of a flag in
front of the command. -/
theorem asks_of_requested {args : List Bytes} {r : Request}
    (hr : requested programCommand args = some r) {h : Host}
    (hnames : ∀ s registry h', openSession args h = (.ok (s, registry), h') →
      ∀ c ∈ registry.commands, utf8 c.name ∉ args.takeWhile isHyphened) : Asks args r h := by
  intro s registry h' hopen
  obtain ⟨⟨-, -, hcommand⟩, -⟩ := openSession_stages hopen
  unfold requested at hr ⊢
  cases hparse : programCommand.parse args with
  | error refusal =>
      rw [hparse] at hr
      cases hr
  | ok i =>
      rw [hcommand, parse_augmented (hnames s registry h' hopen) hparse, ← hparse]
      exact hr

/-- What the run edits: the configuration that was found, or else the defaults. -/
def edited (h : Host) (dir : Path) : Config :=
  (Config.load h.world.files dir).toOption.getD Config.default

theorem edited_ordered (h : Host) (dir : Path) : (edited h dir).Ordered := by
  unfold edited
  cases hload : Config.load h.world.files dir with
  | ok c => exact Config.load_ordered hload
  | error e => exact Config.default_ordered

/-- The command line is answered by the edit. -/
theorem answer_edits {s : Session} (hs : s.config.Ordered) (registry : Registry)
    {args : List Bytes} {r : Request} (hrequested : requested s.command args = some r)
    (hr : r.isEdit = true) (h : Host) :
    (∃ c p h', Edited h.stdin s.config c r ∧ c.Ordered ∧
        s.answer registry args h = (.ok 0, h') ∧
        c.save h.world.files s.directory = (.ok p, h'.world.files)) ∨
      ∃ f h', s.answer registry args h = (.error (.failed f), h') ∧ Spares h h' := by
  have hperform := perform_edits hs registry hr h
  unfold SavesOrFails at hperform
  rw [answer_of_requested hrequested, bind_run]
  cases hrun : s.perform registry r h with
  | mk result h' =>
      rw [hrun] at hperform
      rcases hperform with ⟨hok, c, p, ⟨hc, hordered⟩, hsaved⟩ | ⟨⟨f, hfail⟩, hspares⟩
      · cases hok
        exact .inl ⟨c, p, h', hc, hordered, rfl, hsaved⟩
      · cases hfail
        exact .inr ⟨f, h', rfl, hspares⟩

/-- A session that has been answered ends its plugins, and then tells the answer. -/
theorem runSession_of_answer {R : Host → Host → Prop} {args : List Bytes} {h h₁ h₂ : Host}
    {s : Session} {registry : Registry} (result : Except Failure Nat)
    (hopen : openSession args h = (.ok (s, registry), h₁))
    (hanswer : s.answer registry args h₁ = (result.mapError .failed, h₂))
    (hends : Moves R (s.plugins.terminate : Step Failure PluginSet)) :
    ∃ h₃, runSession args h = (result.mapError .failed, h₃) ∧ R h₂ h₃ := by
  have hattempt : ((s.answer registry args).attempt : Step Failure _) h₁ = (.ok result, h₂) := by
    rw [Step.attempt_run, hanswer]
    cases result <;> rfl
  obtain ⟨ended, hended⟩ := terminateAll_ok (ε := Failure) s.plugins h₂
  have hafter := hends h₂
  cases hrun : (s.plugins.terminate : Step Failure PluginSet) h₂ with
  | mk r h₃ =>
      rw [hrun] at hended hafter
      cases hended
      refine ⟨h₃, ?_, hafter⟩
      unfold runSession
      rw [bind_of_ok hopen]
      dsimp only
      rw [bind_of_ok hattempt, bind_of_ok hrun, Step.ofExcept_run]

/-- A session that is asked for an edit saves it and ends well, or it does neither. -/
theorem runSession_edits {args : List Bytes} {r : Request} (hr : r.isEdit = true) {h : Host}
    (hasks : Asks args r h) {dir : Path} (hdir : Config.directoryOf h.environment = .ok dir) :
    (∃ c h', Edited h.stdin (edited h dir) c r ∧ runSession args h = (.ok 0, h') ∧
        Config.load h'.world.files dir = .ok c) ∨
      ∃ stop h', runSession args h = (.error stop, h') ∧ Spares h h' := by
  have hopened := openSession_moves (opening_spares args) h
  cases hopen : openSession args h with
  | mk opened h₁ =>
      rw [hopen] at hopened
      cases opened with
      | error stop =>
          refine .inr ⟨stop, h₁, ?_, hopened⟩
          unfold runSession
          rw [bind_run, hopen]
      | ok session =>
          obtain ⟨s, registry⟩ := session
          have hrequested := hasks s registry h₁ hopen
          obtain ⟨⟨hdirectory, hconfig, -⟩, -⟩ := openSession_stages hopen
          have hdir' : s.directory = dir := Except.ok.inj (hdirectory.symm.trans hdir)
          subst hdir'
          have hedited : s.config = edited h s.directory := hconfig
          have hs : s.config.Ordered := hedited ▸ edited_ordered h s.directory
          have hends := terminateAll_spares (ε := Failure) s.plugins
          rcases answer_edits hs registry hrequested hr h₁ with
            ⟨c, p, h₂, hc, hordered, hanswer, hsaved⟩ | ⟨f, h₂, hanswer, hspares⟩
          · obtain ⟨h₃, hrun, hspares⟩ := runSession_of_answer (.ok 0) hopen hanswer hends
            rw [hopened.stdin, hedited] at hc
            exact .inl ⟨c, h₃, hc, hrun, Config.load_of_save hordered hsaved hspares.files⟩
          · obtain ⟨h₃, hrun, hspares'⟩ := runSession_of_answer (.error f) hopen hanswer hends
            exact .inr ⟨.failed f, h₃, hrun,
              Trans.trans (Trans.trans hopened hspares : Spares h h₂) hspares'⟩

theorem run_error {args : List Bytes} {h h' : Host} {stop : Stop Failure}
    (hrun : runSession args h = (.error stop, h')) :
    (run args h).1 ≠ .code 0 ∧ (run args h).2.world.files = h'.world.files := by
  unfold run
  rw [hrun]
  rcases stop with f | halt
  · exact ⟨by simp, rfl⟩
  · cases halt <;> exact ⟨by simp, rfl⟩

theorem run_ok {args : List Bytes} {h h' : Host} {n : Nat}
    (hrun : runSession args h = (.ok n, h')) : run args h = (.code n, h') := by
  unfold run
  rw [hrun]

/-- A command line that asks for an edit of the configuration.  If the run ends well, what is loaded
afterwards is the configuration with that edit alone: the one that was loaded before, or else the
defaults.  If it does not, whatever was read is still read.  So what cannot be loaded is kept
exactly by the runs that fail. -/
theorem edit_keeps_iff {args : List Bytes} {r : Request} (hr : r.isEdit = true) {h : Host}
    (hasks : Asks args r h) {dir : Path} (hdir : Config.directoryOf h.environment = .ok dir) :
    let ending := (run args h).1
    let before := h.world.files
    let after := (run args h).2.world.files
    (ending = .code 0 → ∃ c, Edited h.stdin
        ((Config.load before dir).toOption.getD Config.default) c r ∧
          Config.load after dir = .ok c) ∧
      (ending ≠ .code 0 → before.AddsDirectories after ∧ ∀ data,
        before.read (Config.fileIn dir) = .ok data → after.read (Config.fileIn dir) = .ok data) ∧
      ∀ e data, Config.load before dir = .error e → before.read (Config.fileIn dir) = .ok data →
        (after.read (Config.fileIn dir) = .ok data ↔ ending ≠ .code 0) := by
  intro ending before after
  rcases runSession_edits hr hasks hdir with ⟨c, h', hc, hrun, hload⟩ | ⟨stop, h', hrun, hspares⟩
  · have hended : run args h = (.code 0, h') := run_ok hrun
    have hending : ending = .code 0 := congrArg Prod.fst hended
    have hafter : after = h'.world.files := congrArg (fun e => e.2.world.files) hended
    rw [← hafter] at hload
    refine ⟨fun _ => ⟨c, hc, hload⟩, fun hfails => absurd hending hfails, fun e data he hread => ?_⟩
    refine iff_of_false (fun hkept => ?_) (not_not.2 hending)
    rw [Config.load_of_read hkept, ← Config.load_of_read hread, he] at hload
    cases hload
  · obtain ⟨hending, hfiles⟩ := run_error hrun
    have hadds : before.AddsDirectories after := by
      rw [show after = h'.world.files from hfiles]
      exact hspares.files
    exact ⟨fun hended => absurd hended hending, fun _ => ⟨hadds, fun data => hadds.read⟩,
      fun e data _ hread => iff_of_true (hadds.read hread) hending⟩

/-- A file with a token whose settings of the log are none. -/
def brokenDocument : String := "logging = 3\n[github.tokens]\nwork = \"ghp_secret\"\n"

/-- A host that finds this file. -/
def brokenHost : Host where
  world := {
    files := ⟨[([utf8 "cfg"], .directory),
      ([utf8 "cfg", utf8 "config.toml"], .file 0o600 (utf8 brokenDocument))], []⟩
    client := .offline }
  executables _ := none
  environment := [(configDirectoryVariable, utf8 "cfg")]

/-- A command line that changes a setting. -/
def setLevel : List Bytes := [utf8 "config", utf8 "set", utf8 "logging.level", utf8 "debug"]

/-- The change of a setting replaces the file, and the token with it. -/
theorem edit_loses_token :
    Asks setLevel (.configSet "logging.level" "debug") brokenHost ∧
      brokenHost.world.files.read (Config.fileIn (utf8 "cfg")) = .ok (utf8 brokenDocument) ∧
      Config.load brokenHost.world.files (utf8 "cfg") =
        .error (.parse (Config.fileIn (utf8 "cfg"))) ∧
      (run setLevel brokenHost).1 = .code 0 ∧
      (run setLevel brokenHost).2.world.files.read (Config.fileIn (utf8 "cfg")) ≠
        .ok (utf8 brokenDocument) ∧
      ∃ c, c.tokens = [] ∧
        Config.load (run setLevel brokenHost).2.world.files (utf8 "cfg") = .ok c := by
  have hrequested : requested programCommand setLevel =
      some (.configSet "logging.level" "debug") := by
    decide +kernel
  have hasks : Asks setLevel (.configSet "logging.level" "debug") brokenHost :=
    asks_of_requested hrequested fun _ _ _ _ _ _ => List.not_mem_nil
  have hread : brokenHost.world.files.read (Config.fileIn (utf8 "cfg")) =
      .ok (utf8 brokenDocument) := by
    decide +kernel
  have hload : Config.load brokenHost.world.files (utf8 "cfg") =
      .error (.parse (Config.fileIn (utf8 "cfg"))) := by
    decide +kernel
  have hended : (run setLevel brokenHost).1 = .code 0 := by
    decide +kernel
  have hdir : Config.directoryOf brokenHost.environment = .ok (utf8 "cfg") := by
    decide +kernel
  obtain ⟨hsaved, -, hkept⟩ := edit_keeps_iff rfl hasks hdir
  have hlost := mt (hkept _ _ hload hread).1 (not_not.2 hended)
  obtain ⟨c, ⟨hset, -⟩, hloaded⟩ := hsaved hended
  rw [hload] at hset
  cases hset
  exact ⟨hasks, hread, hload, hended, hlost, _, rfl, hloaded⟩

end PluginHost.CommandLine

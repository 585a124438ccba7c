import PluginHost.Proofs.CommandLine.Routing
import PluginHost.Proofs.Plugin.Arguments

/-!
# What is passed on to plugins

The words behind the name of a plugin are looked at twice: before the plugins are loaded, to start
them with these words, and afterwards, to see which command is meant.

* The first look cuts the command line right behind the name (`forwardedArgs_of_name`), so all
  plugins are started with exactly these words (`openSession_served`).
* The second look takes the words as they are, but for the first of them: if it starts like a flag,
  the name of the flag has to be text (`handedOn_accepts_iff`).  And a plugin that bears the name of
  a flag stands in front of it (`runsPlugin_iff`).

`passed_on_iff` says exactly when the two agree.
-/

namespace PluginHost.CommandLine

open Children Rpc

/-! ## The first look -/

/-- The flag that may stand in front of the name. -/
def verboseFlag (isVerbose : Bool) : List Bytes := if isVerbose then [utf8 "-v"] else []

theorem isHostFlag_verbose : isHostFlag (utf8 "-v") = true := by decide +kernel

/-- Plugins are given what stands behind the first word that is no flag. -/
theorem forwardedArgs_of_name (isVerbose : Bool) {word : Bytes} (hword : word.head? ≠ some 45)
    (words : List Bytes) : forwardedArgs (verboseFlag isVerbose ++ word :: words) = words := by
  have hname : isHostFlag word = false := by simp [isHostFlag, hword]
  have hdrop : (word :: words).dropWhile isHostFlag = word :: words :=
    List.dropWhile_cons_of_neg (by simp [hname])
  unfold forwardedArgs verboseFlag
  cases isVerbose with
  | false => simp [hdrop]
  | true => simp [isHostFlag_verbose, hdrop]

theorem showLog_startsNone {ε : Type} (config : Config) (filter : LogFilter) :
    Moves StartsNone (showLog config filter : Step ε Unit) :=
  Step.moves_modify fun _ => .of_children rfl rfl

theorem printError_startsNone {ε : Type} (text : Bytes) :
    Moves StartsNone (Step.printError text : Step ε Unit) :=
  Step.moves_modify fun _ => .of_children rfl rfl

theorem setUp_startsNone (config : Config) (loaded : Except ConfigError Config)
    (environment : Environment) (args : List Bytes) :
    Moves StartsNone (setUp config loaded environment args) :=
  moves_bind (showLog_startsNone _ _) fun _ =>
    moves_bind (Step.moves_forM fun _ _ => printError_startsNone _) fun _ =>
      tellDefaults_moves note_startsNone _

theorem loadPlugins_served {ε : Type} {options : LoadOptions} {directory : Path} {h h' : Host}
    {plugins : PluginSet} {executables : Bytes → Option Executable}
    (hrun : (loadPlugins options directory : Step ε PluginSet) h = (.ok plugins, h'))
    (hstarts : StartsWith executables options.args h) :
    StartsWith executables options.args h' ∧
      ∀ p ∈ plugins, ServedWith executables options.args p := by
  rw [loadPlugins, bind_run, Step.attempt_run] at hrun
  cases hload : PluginSet.loadAll options directory h with
  | mk r h₁ =>
      have hloaded := hstarts.of_run (loadAll_startsWith directory) hload
      rw [hload] at hrun
      rcases r with (e | s) | loaded
      · obtain ⟨_, h₂, hnote, hrun⟩ := bind_ok hrun
        cases hrun
        exact ⟨hloaded.of_run (moves_keeps (note_startsNone _)) hnote,
          fun p hp => absurd hp List.not_mem_nil⟩
      · cases hrun
      · cases hrun
        obtain ⟨paths, h₂, hfiles, hload⟩ := bind_ok hload
        have hlisted := hstarts.of_run
          (moves_keeps (Step.moves_onWorld fun _ => .of_children rfl rfl)) hfiles
        exact ⟨hloaded, loadEach_served hload hlisted⟩

/-- The plugins of a session are served by programs that were started with the words behind the
name, and nothing else has been started. -/
theorem openSession_served {args : List Bytes} {h h' : Host} (hnew : h.children = []) {s : Session}
    {registry : Registry} (hrun : openSession args h = (.ok (s, registry), h')) :
    StartsWith h.executables (forwardedArgs args) h' ∧
      ∀ p ∈ s.plugins, ServedWith h.executables (forwardedArgs args) p := by
  obtain ⟨-, h₁, h₂, hsetUp, hload, hregister⟩ := openSession_stages hrun
  have hstart : StartsWith h.executables (forwardedArgs args) h :=
    ⟨rfl, fun c hc => by rw [hnew] at hc; exact absurd hc List.not_mem_nil⟩
  have hbefore := hstart.of_run (moves_keeps (setUp_startsNone _ _ _ _)) hsetUp
  obtain ⟨hloaded, hserved⟩ := loadPlugins_served hload hbefore
  exact ⟨hloaded.of_run (moves_keeps (registerPlugins_moves note_startsNone s.plugins)) hregister, hserved⟩

/-! ## The second look -/

/-- If the first of the words starts like a flag, the name of the flag is text. -/
def StartsAsText (words : List Bytes) : Prop :=
  ∀ word, words.head? = some (45 :: 45 :: word) → (text? (word.takeWhile (· != 61))).isSome = true

theorem splitValue_fst (word : Bytes) :
    (Reading.splitValue word).1 = word.takeWhile (· != 61) := by
  unfold Reading.splitValue
  split
  · rfl
  · rename_i hrest
    have hall := List.takeWhile_append_dropWhile (p := (· != 61)) (l := word)
    rw [hrest, List.append_nil] at hall
    exact hall.symm

theorem handedOn_accepts_iff (words : List Bytes) :
    (∃ args, Reading.handedOn words = .ok args) ↔ StartsAsText words := by
  rw [Reading.handedOn.eq_def]
  split
  · refine iff_of_true ⟨_, rfl⟩ ?_
    rintro word hword
    cases hword
    rfl
  · rename_i word rest _
    rw [splitValue_fst]
    split_ifs with htext
    · refine iff_of_true ⟨_, rfl⟩ ?_
      rintro word hword
      cases hword
      exact htext
    · refine iff_of_false (by rintro ⟨args, ⟨⟩⟩) fun hstarts => htext (hstarts word rfl)
  · rename_i hnone hflag
    refine iff_of_true ⟨_, rfl⟩ fun word hword => ?_
    obtain ⟨rest, rfl⟩ := List.head?_eq_some_iff.1 hword
    exact absurd rfl (hflag word rest)

/-- The flag is read over, unless a plugin bears its name. -/
theorem readAll_verbose {registry : Registry} (hresolve : registry.resolve "-v" = none)
    (words : List Bytes) :
    (outermost (programCommand.augmented registry) []).readAll (utf8 "-v" :: words) =
      (outermost (programCommand.augmented registry) ["verbose"]).readAll words := by
  have hfree : ∀ c ∈ registry.commands, utf8 c.name ≠ utf8 "-v" := by
    intro c hc hsame
    have hsome : (registry.resolve "-v").isSome = true :=
      Registry.isSome_resolve_iff.2 (utf8_injective hsame ▸ List.mem_map_of_mem hc)
    rw [hresolve] at hsome
    cases hsome
  have hfind : (programCommand.augmented registry).find? (utf8 "-v") = none :=
    find?_augmented_none (by decide +kernel) hfree
  have hhelp : (programCommand.augmented registry).isHelpName (utf8 "-v") = false := by
    have hother : (utf8 "-v" == utf8 helpCommand.name) = false := by decide +kernel
    simp [Command.isHelpName, hother]
  rw [readAll_outermost, hfind, hhelp]
  rfl

/-- The command line runs the plugin. -/
def RunsPlugin (c : Command) (args : List Bytes) (name : String) : Prop :=
  ∃ i, c.parse args = .ok i ∧ Request.ofInvocation i = some (.runPlugin name)

theorem notMem_ownNames {name : String} (h : name ∉ reservedNames) : name ∉ ownNames := by
  have hown : ∀ other ∈ ownNames, other ∈ reservedNames := by decide
  exact fun hname => h (hown name hname)

/-- A plugin is run, by its name alone, when what is handed on to it is accepted. -/
theorem runsPlugin_name_iff {plugins : PluginSet} {name : String}
    (hregistered : Registered plugins name) (switches : List String) (words : List Bytes) :
    (∃ i, (outermost (programCommand.augmented (Registry.ofPlugins plugins)) switches).readAll
        (utf8 name :: words) = .ok i ∧ Request.ofInvocation i = some (.runPlugin name)) ↔
      StartsAsText words := by
  obtain ⟨_, _, _, hresolve⟩ := Registry.resolve_of_registered hregistered
  have hown := notMem_ownNames hregistered.1
  rw [readAll_plugin hresolve hown, ← handedOn_accepts_iff]
  cases hhanded : Reading.handedOn words with
  | error e => exact iff_of_false (fun ⟨_, hi, _⟩ => nomatch hi) (fun ⟨_, hargs⟩ => nomatch hargs)
  | ok args => exact iff_of_true ⟨_, rfl, ofInvocation_plugin hown rfl⟩ ⟨args, rfl⟩

/-- Behind the flag, it is run as well, unless a plugin bears the name of the flag. -/
theorem runsPlugin_iff {plugins : PluginSet} {name : String} (hregistered : Registered plugins name)
    (hname : (utf8 name).head? ≠ some 45) (isVerbose : Bool) (words : List Bytes) :
    RunsPlugin (programCommand.augmented (Registry.ofPlugins plugins))
        (verboseFlag isVerbose ++ utf8 name :: words) name ↔
      (isVerbose = true → ¬Registered plugins "-v") ∧ StartsAsText words := by
  cases isVerbose with
  | false =>
      refine (runsPlugin_name_iff hregistered [] words).trans ?_
      simp
  | true =>
      by_cases hflag : Registered plugins "-v"
      · -- The flag leads to the plugin of that name, to which the rest is handed on.
        obtain ⟨_, _, _, hresolve⟩ := Registry.resolve_of_registered hflag
        refine iff_of_false ?_ fun h => h.1 rfl hflag
        rintro ⟨i, hi, hrequest⟩
        have hread := readAll_plugin hresolve (notMem_ownNames hflag.1) [] (utf8 name :: words)
        have hi : (outermost (programCommand.augmented (Registry.ofPlugins plugins)) []).readAll
          (utf8 "-v" :: utf8 name :: words) = .ok i := hi
        rw [hread] at hi
        cases hhanded : Reading.handedOn (utf8 name :: words) with
        | error e =>
            rw [hhanded] at hi
            cases hi
        | ok args =>
            rw [hhanded] at hi
            cases hi
            rw [ofInvocation_plugin (notMem_ownNames hflag.1) rfl] at hrequest
            cases hrequest
            exact hname (by decide +kernel)
      · have hread := readAll_verbose (Registry.resolve_of_not_registered hflag)
          (utf8 name :: words)
        have hruns : RunsPlugin (programCommand.augmented (Registry.ofPlugins plugins))
            (verboseFlag true ++ utf8 name :: words) name ↔
              ∃ i, (outermost (programCommand.augmented (Registry.ofPlugins plugins))
                ["verbose"]).readAll (utf8 name :: words) = .ok i ∧
                  Request.ofInvocation i = some (.runPlugin name) := by
          rw [← hread]
          rfl
        rw [hruns, runsPlugin_name_iff hregistered]
        simp [hflag]

/-- What becomes of the words behind the name of a plugin.  All children of the host have been
started with exactly these words, and a plugin program that is run gets them as texts.  But the
command line is accepted, and runs the last plugin of that name, only if the first word is no flag
whose name is no text, and if no plugin bears the name of the flag in front. -/
theorem passed_on_iff {h h' : Host} (hnew : h.children = []) {name : String}
    (hname : (utf8 name).head? ≠ some 45) (isVerbose : Bool) (words : List Bytes) {s : Session}
    {registry : Registry}
    (hopen : openSession (verboseFlag isVerbose ++ utf8 name :: words) h = (.ok (s, registry), h'))
    (hregistered : Registered s.plugins name) :
    (RunsPlugin s.command (verboseFlag isVerbose ++ utf8 name :: words) name ↔
      (isVerbose = true → ¬Registered s.plugins "-v") ∧ StartsAsText words) ∧
    (RunsPlugin s.command (verboseFlag isVerbose ++ utf8 name :: words) name →
      ∃ place p, LastNamed s.plugins name place p ∧
        s.answer registry (verboseFlag isVerbose ++ utf8 name :: words) = (do
          (do
            let (result, _) ← p.run
            (Step.ofExcept (result.mapError InvocationError.ofRpc)).wrapped Failure.ofInvocation)
          pure 0)) ∧
    (∀ c ∈ h'.children, StartedWith h.executables words c) ∧
    ∀ p ∈ s.plugins, ∃ data executable start, h.executables data = some executable ∧
      start.args = words ∧ ServedBy executable start p ∧
      ∀ (σ : Type) (program : Program σ) (initial : σ) (written : σ → Bytes) offer transport address,
        executable start = launchUnder offer program initial written transport address start →
        ∀ now : Host, now.isAlive p.server = true → ∃ result p' now',
          (p.run : Step Failure _) now = (.ok (result, p'), now') ∧
          Serving program (words.map lossyText) initial written
            (program.run (program.afterInfo initial) (words.map lossyText)).2
            [.info, .run (words.map lossyText)] p'.client.connection := by
  obtain ⟨⟨-, -, hcommand⟩, -⟩ := openSession_stages hopen
  obtain rfl := openSession_registry hopen
  obtain ⟨hstarts, hserved⟩ := openSession_served hnew hopen
  rw [forwardedArgs_of_name isVerbose hname] at hstarts hserved
  refine ⟨hcommand ▸ runsPlugin_iff hregistered hname isVerbose words, ?_, hstarts.children,
    fun p hp => ?_⟩
  · rintro ⟨i, hparse, hrequest⟩
    obtain ⟨place, p, hlast, hperform⟩ := perform_runPlugin hregistered
    refine ⟨place, p, hlast, ?_⟩
    rw [answer_of_parse hparse hrequest, hperform]
  · obtain ⟨data, executable, start, hdata, rfl, hby⟩ := hserved p hp
    refine ⟨data, executable, start, hdata, rfl, hby, ?_⟩
    intro σ program initial written offer transport address hlaunch now halive
    obtain ⟨result, p', now', hrun, -, hserving⟩ := run_served (ε := Failure) hby hlaunch halive
    exact ⟨result, p', now', hrun, hserving⟩

/-- A host that finds the demo plugin in its plugin directory, under the name foo. -/
def fooHost : Host where
  world := {
    files := ⟨[([utf8 "cfg"], .directory), ([utf8 "cfg", utf8 "plugins"], .directory),
      ([utf8 "cfg", utf8 "plugins", utf8 "foo"], .file 0o755 (utf8 "demo"))], []⟩
    client := .offline }
  executables data := if data == utf8 "demo" then some (Demo.launch "127.0.0.1:4000") else none
  environment := [(configDirectoryVariable, utf8 "cfg")]

/-- A word that starts like a flag, and is no text. -/
def strangeFlag : Bytes := [45, 45, 255]

theorem openSession_foo :
    ∃ s h', openSession [utf8 "foo", strangeFlag] fooHost =
        (.ok (s, Registry.ofPlugins s.plugins), h') ∧
      s.plugins.map (·.descriptor.name) = ["foo"] := by
  have hfiles : pluginFiles ((edited fooHost (utf8 "cfg")).pluginsIn fooHost.environment
      (utf8 "cfg")) fooHost.world.files = (.ok [utf8 "cfg/plugins/foo"], fooHost.world.files) := by
    have hplugins : (edited fooHost (utf8 "cfg")).pluginsIn fooHost.environment (utf8 "cfg") =
        utf8 "cfg/plugins" := by
      decide +kernel
    have hnames : fooHost.world.files.list (utf8 "cfg/plugins") = .ok [utf8 "foo"] := by
      decide +kernel
    rw [hplugins, pluginFiles_of_sorted (by decide +kernel) hnames (by decide +kernel)]
    rfl
  have hnames : ((PluginSet.loadEach
      (loadOptionsOf (edited fooHost (utf8 "cfg")) [utf8 "foo", strangeFlag])
      [utf8 "cfg/plugins/foo"] : Step PluginError PluginSet) (Step.withWorld
        (shown [utf8 "foo", strangeFlag] (utf8 "cfg") fooHost) fooHost.world)).1.toOption.map
          (fun plugins => plugins.map (·.descriptor.name)) = some ["foo"] := by
    decide +kernel
  obtain ⟨plugins, h', heach, hplugins⟩ := Step.exists_ok_of_map hnames
  obtain ⟨s, h'', hopen, rfl⟩ := openSession_of_files (by decide +kernel) (by decide +kernel)
    (by decide +kernel) hfiles heach
  exact ⟨s, h'', hopen, hplugins⟩

/-- The plugin is started with the word and would hand it on to its run as a text, but is not run
with it. -/
theorem passed_on_refused :
    fooHost.children = [] ∧ (utf8 "foo").head? ≠ some 45 ∧ ∃ s h',
      openSession [utf8 "foo", strangeFlag] fooHost =
        (.ok (s, Registry.ofPlugins s.plugins), h') ∧
      Registered s.plugins "foo" ∧ (∀ c ∈ h'.children,
        StartedWith fooHost.executables [strangeFlag] c) ∧
      (∀ p ∈ s.plugins, ∃ name, ∀ now : Host, now.isAlive p.server = true → ∃ result p' now',
        (p.run : Step Failure _) now = (.ok (result, p'), now') ∧
          Serving (Demo.program name) [lossyText strangeFlag] [] id
            ((Demo.program name).run [] [lossyText strangeFlag]).2
            [.info, .run [lossyText strangeFlag]] p'.client.connection) ∧
      ¬RunsPlugin s.command [utf8 "foo", strangeFlag] "foo" ∧
      s.answer (Registry.ofPlugins s.plugins) [utf8 "foo", strangeFlag] = pure 2 := by
  obtain ⟨s, h', hopen, hnames⟩ := openSession_foo
  have hregistered : Registered s.plugins "foo" := by
    have hmem : "foo" ∈ s.plugins.map (·.descriptor.name) := by
      rw [hnames]
      decide
    obtain ⟨p, hp, hname⟩ := List.mem_map.1 hmem
    exact ⟨by decide, p, hp, hname⟩
  have hhead : (utf8 "foo").head? ≠ some 45 := by decide +kernel
  obtain ⟨hruns, -, hstarted, hserved⟩ :=
    passed_on_iff rfl hhead false [strangeFlag] hopen hregistered
  refine ⟨rfl, hhead, s, h', hopen, hregistered, hstarted, fun p hp => ?_, fun hrun => ?_, ?_⟩
  · obtain ⟨data, executable, start, hdata, -, -, hrun⟩ := hserved p hp
    obtain rfl : Demo.launch "127.0.0.1:4000" = executable := by
      have hfound : (if data == utf8 "demo" then some (Demo.launch "127.0.0.1:4000") else none) =
          some executable := hdata
      split at hfound <;> cases hfound
      rfl
    exact ⟨Demo.nameOf start.name, hrun Bytes (Demo.program (Demo.nameOf start.name)) [] id hostOffer
      .tcp "127.0.0.1:4000" rfl⟩
  · have htext := (hruns.1 hrun).2 [255] rfl
    exact absurd htext (by decide +kernel)
  · obtain ⟨⟨-, -, hcommand⟩, -⟩ := openSession_stages hopen
    obtain ⟨_, _, _, hresolve⟩ := Registry.resolve_of_registered hregistered
    have hparse : s.command.parse [utf8 "foo", strangeFlag] = .error (.usage .unknownArgument) := by
      have hread := readAll_plugin hresolve (by decide) [] [strangeFlag]
      rw [hcommand]
      refine hread.trans ?_
      have hhanded : Reading.handedOn [strangeFlag] = reject .unknownArgument := by
        rw [Reading.handedOn.eq_def]
        rfl
      rw [hhanded]
      rfl
    unfold Session.answer
    rw [hparse]
    rfl

end PluginHost.CommandLine

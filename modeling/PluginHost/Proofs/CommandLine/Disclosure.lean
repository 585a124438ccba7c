import PluginHost.Proofs.CommandLine.Passthrough

/-!
# What a run tells the plugins

All plugins are started before the command line is read, and what a run does after that starts no
other (`answer_startsNone`).  So whatever a command line asks for, every child of the run has been
started with the words behind its first command (`run_startsWith`), also when the run fails or is
interrupted.

For a command line that stores a token these words hold the token (`addToken_arguments`).
-/

namespace PluginHost.CommandLine

open Children

/-! ## What starts no child -/

section StartsNone

variable {ε : Type}

theorem onWorld_startsNone {α : Type} (task : Task ε α) : Moves StartsNone (Step.onWorld task) :=
  Step.moves_onWorld fun _ => .of_children rfl rfl

theorem print_startsNone (text : Bytes) : Moves StartsNone (Step.print text : Step ε Unit) :=
  Step.moves_modify fun _ => .of_children rfl rfl

theorem terminateAll_startsNone (plugins : PluginSet) :
    Moves StartsNone (plugins.terminate : Step ε PluginSet) :=
  terminateAll_moves (fun h pid => .of_tends (childEnds_tends h pid))
    (fun _ _ => .of_children rfl rfl) plugins

theorem run_startsNone (p : LoadedPlugin) :
    Moves StartsNone (p.run : Step ε (Except Rpc.RpcError Unit × LoadedPlugin)) := by
  have hsignal : ∀ h : Host, StartsNone h h.terminateAll := fun h =>
    Trans.trans (StartsNone.of_children rfl rfl : StartsNone h { h with tracked := [] })
      (StartsNone.of_tends (terminateAll_tends h))
  refine moves_bind (note_startsNone _) fun _ => moves_bind ?_ fun called => moves_pure _
  exact Step.moves_of_interruptible hsignal
    ((performCall_tends _ _ _).mono fun _ _ => StartsNone.of_tends)

theorem dispatch_startsNone (registry : Registry) (name : String) (plugins : PluginSet) :
    Moves StartsNone (registry.dispatch name plugins :
      Step ε (Except InvocationError Unit × PluginSet)) := by
  unfold Registry.dispatch
  split
  · exact moves_pure _
  · rename_i command _
    have hrunAt : Moves StartsNone (plugins.runAt command.place :
        Step ε (Option (Except Rpc.RpcError Unit) × PluginSet)) := by
      unfold PluginSet.runAt
      split
      · exact moves_pure _
      · exact moves_bind (run_startsNone _) fun _ => moves_pure _
    refine moves_bind hrunAt fun came => ?_
    split <;> exact moves_pure _

end StartsNone

/-! ## The command -/

section Session

variable (s : Session)

theorem save_startsNone (config : Config) : Moves StartsNone (s.save config) :=
  Step.moves_wrapped (onWorld_startsNone _)

theorem noPlugins_startsNone : Moves StartsNone Session.noPlugins := note_startsNone _

theorem install_startsNone (source : Manage.InstallSource) : Moves StartsNone (s.install source) :=
  moves_bind (moves_bind Step.moves_get fun _ => moves_pure _) fun _ =>
    moves_bind (Step.moves_wrapped (onWorld_startsNone _)) fun _ =>
      Step.moves_forM fun _ _ => print_startsNone _

theorem installRelease_startsNone (url : String) (token : Option String) :
    Moves StartsNone (s.installRelease url token) := by
  refine moves_bind (Step.moves_wrapped (Step.moves_ofExcept _)) fun repository => ?_
  cases token with
  | none => exact moves_bind (moves_pure _) fun _ => install_startsNone s _
  | some name =>
      exact moves_bind (Step.moves_wrapped (Step.moves_ofExcept _)) fun _ =>
        moves_bind (moves_pure _) fun _ => install_startsNone s _

theorem removePlugin_startsNone : Moves StartsNone s.removePlugin := by
  unfold Session.removePlugin
  split
  · exact noPlugins_startsNone
  · refine moves_bind (print_startsNone _) fun _ => moves_bind Step.moves_get fun h =>
      moves_bind (Step.moves_wrapped (Step.moves_ofExcept _)) fun chosen => ?_
    split
    · exact print_startsNone _
    · exact moves_bind (Step.moves_wrapped (onWorld_startsNone _)) fun _ => print_startsNone _

theorem addToken_startsNone (name : String) (token : Option String) :
    Moves StartsNone (s.addToken name token) := by
  have hobtain : Moves StartsNone (Session.obtainToken name token) := by
    cases token with
    | some token => exact moves_pure _
    | none =>
        refine moves_bind (print_startsNone _) fun _ => moves_bind Step.moves_get fun h => ?_
        split
        · exact moves_pure _
        · exact Step.moves_fail _
  refine moves_bind hobtain fun token => ?_
  split
  · exact Step.moves_fail _
  · exact moves_bind (save_startsNone s _) fun _ => print_startsNone _

theorem removeToken_startsNone (name : String) : Moves StartsNone (s.removeToken name) := by
  unfold Session.removeToken
  split
  · exact Step.moves_fail _
  · exact moves_bind (save_startsNone s _) fun _ => print_startsNone _

theorem printConfig_startsNone : Moves StartsNone s.printConfig := by
  unfold Session.printConfig
  split
  · exact Step.moves_fail _
  · exact moves_bind (print_startsNone _) fun _ => moves_bind Step.moves_get fun _ =>
      print_startsNone _

theorem setKey_startsNone (key value : String) : Moves StartsNone (s.setKey key value) := by
  unfold Session.setKey
  split
  · exact Step.moves_fail _
  · exact moves_bind (save_startsNone s _) fun _ => print_startsNone _

/-- Whatever is asked for, no child is started. -/
theorem perform_startsNone (registry : Registry) (request : Request) :
    Moves StartsNone (s.perform registry request) := by
  cases request with
  | listPlugins =>
      show Moves StartsNone s.listPlugins
      unfold Session.listPlugins
      split
      · exact noPlugins_startsNone
      · exact print_startsNone _
  | installRelease url token => exact installRelease_startsNone s url token
  | installFile path => exact install_startsNone s _
  | removePlugin => exact removePlugin_startsNone s
  | addToken name token => exact addToken_startsNone s name token
  | listTokens =>
      show Moves StartsNone s.listTokens
      unfold Session.listTokens
      split
      · exact note_startsNone _
      · exact Step.moves_forM fun _ _ => print_startsNone _
  | removeToken name => exact removeToken_startsNone s name
  | configPath => exact print_startsNone _
  | configPrint => exact printConfig_startsNone s
  | configSet key value => exact setKey_startsNone s key value
  | completions shell => exact Step.moves_forM fun _ _ => print_startsNone _
  | runPlugin name =>
      exact moves_bind (dispatch_startsNone registry name s.plugins) fun _ =>
        Step.moves_wrapped (Step.moves_ofExcept _)

/-- Whatever the command line says, no child is started. -/
theorem answer_startsNone (registry : Registry) (args : List Bytes) :
    Moves StartsNone (s.answer registry args) := by
  unfold Session.answer
  split
  · rename_i refusal _
    cases refusal with
    | help path command =>
        exact moves_bind Step.moves_get fun _ =>
          moves_bind (print_startsNone _) fun _ => moves_pure _
    | version => exact moves_bind (print_startsNone _) fun _ => moves_pure _
    | usage error => exact moves_pure _
  · split
    · exact moves_pure _
    · exact moves_bind (perform_startsNone s registry _) fun _ => moves_pure _

end Session

/-! ## The run -/

theorem opening_startsWith (executables : Bytes → Option Executable) (args : List Bytes) :
    OpeningMoves (Keeps (StartsWith executables (forwardedArgs args))) args where
  loading config :=
    have hloading : LoadingMoves (Keeps (StartsWith executables (loadOptionsOf config args).args))
        (loadOptionsOf config args) := loading_startsWith
    hloading
  listing _ := moves_keeps (onWorld_startsNone _)
  shown _ _ := StartsNone.keeps (.of_children rfl rfl)
  told _ _ := StartsNone.keeps (.of_children rfl rfl)

/-- Every child of a run has been started with the words behind the first command. -/
theorem run_startsWith (args : List Bytes) {h : Host} (hnew : h.children = []) :
    StartsWith h.executables (forwardedArgs args) (run args h).2 := by
  have hstart : StartsWith h.executables (forwardedArgs args) h :=
    ⟨rfl, fun c hc => by rw [hnew] at hc; exact absurd hc List.not_mem_nil⟩
  have hsession : Moves (Keeps (StartsWith h.executables (forwardedArgs args)))
      (runSession args) :=
    moves_bind (openSession_moves (opening_startsWith h.executables args)) fun opened =>
      moves_bind (Step.moves_attempt (moves_keeps (answer_startsNone _ _ _))) fun result =>
        moves_bind (moves_keeps (terminateAll_startsNone _)) fun _ => Step.moves_ofExcept _
  -- At most the report of a failure is still to be written.
  have hend : StartsNone (runSession args h).2 (run args h).2 := by
    unfold run
    rcases runSession args h with ⟨(failure | (_ | _)) | code, h'⟩ <;> exact .of_children rfl rfl
  exact hend.keeps (hsession h hstart)

/-! ## Storing a token -/

/-- The words of a command line that stores a token, behind the first command. -/
def addTokenWords (name : Bytes) (given : Option Bytes) : List Bytes :=
  [utf8 "auth", utf8 "add", name] ++
    match given with
    | some token => [utf8 "--token", token]
    | none => []

/-- A command line that stores a token: one that is given, or one that is typed. -/
def addTokenLine (name : Bytes) (given : Option Bytes) : List Bytes :=
  utf8 "plugins" :: addTokenWords name given

theorem forwardedArgs_addTokenLine (name : Bytes) (given : Option Bytes) :
    forwardedArgs (addTokenLine name given) = addTokenWords name given :=
  forwardedArgs_of_name false (by decide +kernel) _

/-- What the plugins are started with when a token is stored.  If the token is given on the command
line, it is the last argument of every plugin, and the arguments before it do not depend on it.  If
it is typed, it is no argument of any plugin. -/
theorem addToken_arguments {h : Host} (hnew : h.children = []) (name : Bytes) :
    (∀ token, ∀ c ∈ (run (addTokenLine name (some token)) h).2.children,
      StartedWith h.executables ([utf8 "auth", utf8 "add", name, utf8 "--token"] ++ [token]) c) ∧
    ∀ c ∈ (run (addTokenLine name none) h).2.children,
      StartedWith h.executables [utf8 "auth", utf8 "add", name] c := by
  have hstarts : ∀ given, ∀ c ∈ (run (addTokenLine name given) h).2.children,
      StartedWith h.executables (addTokenWords name given) c := by
    intro given
    rw [← forwardedArgs_addTokenLine]
    exact (run_startsWith _ hnew).children
  exact ⟨fun token => hstarts (some token), hstarts none⟩

/-- A program that listens at an address made of its arguments. -/
def telltale : Executable := fun start =>
  { stage := .serving .unix start.args.flatten fun _ _ => {} }

/-- A host that finds this program in its plugin directory. -/
def telltaleHost : Host :=
  { fooHost with executables := fun data => if data == utf8 "demo" then some telltale else none }

theorem children_telltale (token : Bytes) (htoken : token ∈ [utf8 "T1", utf8 "T2"]) :
    (run (addTokenLine (utf8 "work") (some token)) telltaleHost).2.children ≠ [] := by
  have hlengths : ∀ token ∈ [utf8 "T1", utf8 "T2"],
      (run (addTokenLine (utf8 "work") (some token)) telltaleHost).2.children.length = 1 := by
    decide +kernel
  intro hnone
  have hlength := hlengths token htoken
  rw [hnone] at hlength
  cases hlength

/-- The program is started, and its last argument is the token. -/
theorem addToken_arguments_telltale :
    telltaleHost.children = [] ∧
      ∃ c ∈ (run (addTokenLine (utf8 "work") (some (utf8 "T1"))) telltaleHost).2.children,
        StartedWith telltaleHost.executables
          [utf8 "auth", utf8 "add", utf8 "work", utf8 "--token", utf8 "T1"] c := by
  obtain ⟨c, hc⟩ := List.exists_mem_of_ne_nil _ (children_telltale (utf8 "T1") (by simp))
  exact ⟨rfl, c, hc, (addToken_arguments rfl (utf8 "work")).1 (utf8 "T1") c hc⟩

theorem stage_telltale {words : List Bytes} {c : Child}
    (hstarted : StartedWith telltaleHost.executables words c) :
    c.stage = .serving .unix words.flatten fun _ _ => {} := by
  obtain ⟨data, executable, start, hdata, rfl, -, hstage⟩ := hstarted
  have hexecutable : telltale = executable := by
    have hfound : (if data == utf8 "demo" then some telltale else none) = some executable := hdata
    split at hfound <;> cases hfound
    rfl
  rw [hstage, ← hexecutable]
  rfl

/-- The arguments of the plugins are not the same when different tokens are given. -/
theorem addToken_arguments_differ :
    ¬∀ h : Host, h.children = [] → ∀ name token other, ∃ words, ∀ given ∈ [token, other],
      ∀ c ∈ (run (addTokenLine name (some given)) h).2.children,
        StartedWith h.executables words c := by
  intro hsame
  obtain ⟨words, hwords⟩ := hsame telltaleHost rfl (utf8 "work") (utf8 "T1") (utf8 "T2")
  have haddress : ∀ given ∈ [utf8 "T1", utf8 "T2"],
      words.flatten = (addTokenWords (utf8 "work") (some given)).flatten := by
    intro given hgiven
    obtain ⟨c, hc⟩ := List.exists_mem_of_ne_nil _ (children_telltale given hgiven)
    have hstarts := run_startsWith (addTokenLine (utf8 "work") (some given))
      (show telltaleHost.children = [] from rfl)
    rw [forwardedArgs_addTokenLine] at hstarts
    have hstage := (stage_telltale (hwords given hgiven c hc)).symm.trans
      (stage_telltale (hstarts.children c hc))
    injection hstage
  have htokens : (addTokenWords (utf8 "work") (some (utf8 "T1"))).flatten ≠
      (addTokenWords (utf8 "work") (some (utf8 "T2"))).flatten := by
    decide +kernel
  exact htokens ((haddress _ (by simp)).symm.trans (haddress _ (by simp)))

end PluginHost.CommandLine

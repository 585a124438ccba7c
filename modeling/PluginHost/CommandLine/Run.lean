import PluginHost.CommandLine.Failure
import PluginHost.CommandLine.Host
import PluginHost.Log.Filter
import PluginHost.Log.Line
import PluginHost.Manage.Table

/-!
# Running the program

A run reads the configuration, loads the plugins and registers their commands; only then is the
command line read, for the plugins have a say in what it may hold.  The run ends with a code:
0 if all went well, 1 if it failed, 2 if the command line is wrong, and 130 if a signal ended it.
-/

namespace PluginHost.CommandLine

open Children Manage

/-- What a run works with once the plugins are loaded. -/
structure Session where
  /-- The configuration directory. -/
  directory : Path
  config : Config
  plugins : PluginSet
  command : Command

/-- A record of the program. -/
def programRecord (level : LogLevel) (message : String) : LogRecord := ⟨level, .program, message⟩

/-- Prints a line. -/
def printLine {ε : Type} (line : String) : Step ε Unit := Step.print (utf8 (line ++ "\n"))

namespace Session

/-- The plugin directory. -/
def pluginDirectory (s : Session) (environment : Environment) : Path :=
  s.config.pluginsIn environment s.directory

/-- The manager of the plugin directory. -/
def manager (s : Session) : Step Failure Manager := do
  pure { directory := s.pluginDirectory (← get).environment }

/-- Saves a changed configuration. -/
def save (s : Session) (config : Config) : Step Failure Path :=
  (Step.onWorld fun w =>
    match config.save w.files s.directory with
    | (r, t) => (r, { w with files := t })).wrapped Failure.ofConfig

/-- Tells that there are no plugins. -/
def noPlugins : Step Failure Unit :=
  Step.note (programRecord .warn "No plugins are currently installed")

/-- Lists the plugins. -/
def listPlugins (s : Session) : Step Failure Unit :=
  if s.plugins.isEmpty then noPlugins
  else Step.print (utf8 (table s.plugins.descriptors))

/-- Installs plugins and tells where they stand. -/
def install (s : Session) (source : InstallSource) : Step Failure Unit := do
  let manager ← s.manager
  let paths ← (Step.onWorld (manager.install source)).wrapped Failure.ofInstall
  paths.forM fun path => printLine ("Installed " ++ Path.display path)

/-- Installs plugins from the release of a repository. -/
def installRelease (s : Session) (url : String) (token : Option String) : Step Failure Unit := do
  let repository ← (Step.ofExcept (repositoryOf url)).wrapped Failure.ofInstall
  let token ← match token with
    | some name => do
        let token ← (Step.ofExcept (tokenOf s.config.tokens name)).wrapped Failure.ofInstall
        pure (some token)
    | none => pure none
  s.install (.repository repository.owner repository.name token)

/-- Lets the user choose a plugin and removes it. -/
def removePlugin (s : Session) : Step Failure Unit := do
  if s.plugins.isEmpty then noPlugins
  else
    let descriptors := s.plugins.descriptors
    Step.print (utf8 (choicePrompt descriptors))
    let chosen ← Step.wrapped (fun e => Failure.ofInstall (.ofChoice e))
      (Step.ofExcept (choose descriptors.length (← get).stdin))
    match chosen.bind (descriptors[·]?) with
    | none => printLine "Cancelled"
    | some d =>
        (Step.onWorld (Task.onFiles (Manager.remove d.path))).wrapped Failure.ofInstall
        printLine ("Successfully removed " ++ d.name)

/-- Asks the user for a token. -/
def askToken (name : String) : Step Failure String := do
  Step.print (utf8 ("Access token for '" ++ name ++ "': "))
  match chars? ((linesOf (← get).stdin).headD []) with
  | some line => pure (String.ofList (Text.trimChars line))
  | none => Step.fail ((Failure.ofIo .invalidText).withCauses "Failed to read access token")

/-- The token that is given, or else the one that the user is asked for. -/
def obtainToken (name : String) : Option String → Step Failure String
  | some token => pure token
  | none => askToken name

/-- Stores a token under a name. -/
def addToken (s : Session) (name : String) (token : Option String) : Step Failure Unit := do
  let token ← obtainToken name token
  if token.isEmpty then Step.fail ⟨"Access token must not be empty", []⟩
  else
    let _ ← s.save (s.config.putToken name token)
    let verb := if (s.config.token? name).isSome then "Updated" else "Added"
    printLine (verb ++ " access token '" ++ name ++ "'")

/-- Lists the names of the tokens. -/
def listTokens (s : Session) : Step Failure Unit :=
  if s.config.tokens.isEmpty then
    Step.note (programRecord .warn "No access tokens are configured")
  else s.config.tokens.forM fun (name, _) => printLine name

/-- Takes a token away. -/
def removeToken (s : Session) (name : String) : Step Failure Unit := do
  if (s.config.token? name).isNone then Step.fail ⟨"No access token named '" ++ name ++ "'", []⟩
  else
    let _ ← s.save (s.config.dropToken name)
    printLine ("Removed access token '" ++ name ++ "'")

/-- Shows the configuration with its tokens masked. -/
def printConfig (s : Session) : Step Failure Unit := do
  match s.config.masked.document? with
  | none => Step.fail (.ofConfig .serialize)
  | some text =>
      Step.print (utf8 text)
      printLine ("# plugins directory: "
        ++ Path.display (s.pluginDirectory (← get).environment))

/-- Changes a setting. -/
def setKey (s : Session) (key value : String) : Step Failure Unit := do
  match s.config.set key value with
  | .error e =>
      let keys := ", ".intercalate (Config.Key.all.map (·.name))
      Step.fail ⟨e.message ++ " (settable keys: " ++ keys ++ ")", []⟩
  | .ok config =>
      let path ← s.save config
      printLine ("Updated " ++ key ++ " in " ++ Path.display path)

/-- Prints the words that can stand behind the name of the program. -/
def printWords (s : Session) : Step Failure Unit :=
  s.command.subcommands.forM fun c => printLine c.name

/-- Lets a plugin do its work. -/
def runPlugin (s : Session) (registry : Registry) (name : String) : Step Failure Unit := do
  let (result, _) ← registry.dispatch name s.plugins
  (Step.ofExcept result).wrapped Failure.ofInvocation

/-- Does what is asked for. -/
def perform (s : Session) (registry : Registry) : Request → Step Failure Unit
  | .listPlugins => s.listPlugins
  | .installRelease url token => s.installRelease url token
  | .installFile path => s.install (.file path)
  | .removePlugin => s.removePlugin
  | .addToken name token => s.addToken name token
  | .listTokens => s.listTokens
  | .removeToken name => s.removeToken name
  | .configPath => printLine (Path.display (Config.fileIn s.directory))
  | .configPrint => s.printConfig
  | .configSet key value => s.setKey key value
  | .completions _ => s.printWords
  | .runPlugin name => s.runPlugin registry name

end Session

/-- The variable that sets what is shown of the log. -/
def logVariable : String := "RUST_LOG"

/-- The variable that sets the width of a page. -/
def widthVariable : String := "COLUMNS"

/-- The flags in front of the command ask for everything to be told. -/
def asksForAll (args : List Bytes) : Bool :=
  (args.takeWhile isHostFlag).any fun arg => arg == utf8 "-v" || arg == utf8 "--verbose"

/-- What is shown of the log, and what is wrong with the text that says so. -/
def filterOf (config : Config) (environment : Environment) (args : List Bytes) :
    LogFilter × List String :=
  if asksForAll args then LogFilter.parseLenient "debug"
  else
    match ((environment.lookup logVariable).bind text?).map LogFilter.parse with
    | some (.ok filter) => (filter, [])
    | _ => LogFilter.parseLenient config.level

/-- Lets log records be shown. -/
def showLog {ε : Type} (config : Config) (filter : LogFilter) : Step ε Unit :=
  modify fun h => { h with
    logView := fun r => if filter.shows r then r.line config.format else [] }

/-- How plugins are loaded under a configuration. -/
def loadOptionsOf (config : Config) (args : List Bytes) : LoadOptions where
  args := forwardedArgs args
  handshakeLimit := config.handshakeTimeout
  answerLimit := config.runTimeout

/-- Loads the plugins.  A directory that cannot be read holds none. -/
def loadPlugins {ε : Type} (options : LoadOptions) (directory : Path) : Step ε PluginSet := do
  match ← (PluginSet.loadAll options directory).attempt with
  | .ok plugins => pure plugins
  | .error e =>
      Step.note (programRecord .error
        ("Cannot read plugin directory " ++ Path.display directory ++ ": " ++ e.message))
      pure []

/-- Answers a command line that asks for no command. -/
def refuse {ε : Type} : Refusal → Step ε Nat
  | .help path command => do
      let width := pageWidth ((← get).environment.lookup widthVariable)
      Step.print (utf8 (command.help width (programName :: path)))
      pure 0
  | .version => do
      printLine (programName ++ " " ++ programVersion)
      pure 0
  | .usage _ => pure 2

/-- Reads the command line and does what it asks for. -/
def Session.answer (s : Session) (registry : Registry) (args : List Bytes) : Step Failure Nat :=
  match s.command.parse args with
  | .error refusal => refuse refusal
  | .ok invocation =>
      match Request.ofInvocation invocation with
      | none => pure 2
      | some request => do
          s.perform registry request
          pure 0

/-- Tells why the configuration could not be read. -/
def tellDefaults {ε : Type} : Except ConfigError Config → Step ε Unit
  | .error e => Step.note (programRecord .warn ("Using default configuration: " ++ e.message))
  | .ok _ => pure ()

/-- Registers the commands of plugins. -/
def registerPlugins {ε : Type} (plugins : PluginSet) : Step ε Registry := do
  let (registry, records) := Registry.ofDescriptors plugins.descriptors
  records.forM Step.note
  (registry.collisions (programCommand.subcommands.map (·.name))).forM Step.note
  pure registry

/-- Reads the configuration, loads the plugins and registers their commands. -/
def openSession (args : List Bytes) : Step Failure (Session × Registry) := do
  let environment := (← get).environment
  let directory ← (Step.ofExcept (Config.directoryOf environment)).wrapped Failure.ofConfig
  let loaded := Config.load (← get).world.files directory
  let config := loaded.toOption.getD Config.default
  let (filter, complaints) := filterOf config environment args
  showLog config filter
  complaints.forM fun line => Step.printError (utf8 (line ++ "\n"))
  tellDefaults loaded
  let plugins ← loadPlugins (loadOptionsOf config args) (config.pluginsIn environment directory)
  let registry ← registerPlugins plugins
  pure ({ directory, config, plugins, command := programCommand.augmented registry }, registry)

/-- Runs the program and returns its code. -/
def runSession (args : List Bytes) : Step Failure Nat := do
  let (session, registry) ← openSession args
  let result ← (session.answer registry args).attempt
  let _ ← session.plugins.terminate
  Step.ofExcept result

/-- How a run ends. -/
inductive Ending where
  | code (n : Nat)
  /-- It waits for something that never comes. -/
  | endless
  deriving DecidableEq, Repr

/-- Runs the program with arguments. -/
def run (args : List Bytes) (h : Host) : Ending × Host :=
  match runSession args h with
  | (.ok code, h) => (.code code, h)
  | (.error (.failed failure), h) =>
      (.code 1, { h with stderr := h.stderr ++ utf8 failure.report })
  | (.error (.halted .interrupted), h) => (.code 130, h)
  | (.error (.halted .endless), h) => (.endless, h)

end PluginHost.CommandLine

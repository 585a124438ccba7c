import PluginHost.Children.Host

/-!
# Starting programs

A file is started if it may be executed and its contents are those of a program, or name the
program that is to read them.  Otherwise the system refuses it.
-/

namespace PluginHost.Children

/-- A file of unknown contents cannot be executed. -/
def notExecutable : IoError := .system 8

/-- An argument is too long. -/
def argumentTooLong : IoError := .system 7

/-- The longest argument. -/
def maxArgumentLength : Nat := 131071

/-- A byte that stands between the words of the first line of a file. -/
def isWordBreak (b : UInt8) : Bool := b == 32 || b == 9

/-- The program that is to read the contents of a file, when they name one. -/
def interpreterOf (data : Bytes) : Option Path :=
  match data with
  | 35 :: 33 :: rest =>
      let line := (rest.takeWhile (· != 10)).dropWhile isWordBreak
      let path := line.takeWhile fun b => !(isWordBreak b || b == 0)
      if path.isEmpty then none else some path
  | _ => none

/-- The location of a file that may be executed, and its contents. -/
def executableFile (t : FileTree) (p : Path) : Except IoError (Location × Bytes) := do
  let l ← t.locate true p
  match t.get? l with
  | none => throw .notFound
  | some (.file mode data) =>
      if mode &&& 0o111 == 0 then throw .permissionDenied else pure (l, data)
  | some _ => throw .permissionDenied

/-- The program that a file starts, and the name it is started under. -/
def programOf (t : FileTree) (executables : Bytes → Option Executable) (p : Path) :
    Except IoError (Executable × Bytes) := do
  let (l, data) ← executableFile t p
  match executables data with
  | some program => pure (program, l.getLastD [])
  | none =>
      match interpreterOf data with
      | none => throw notExecutable
      | some q =>
          let (l, data) ← executableFile t q
          match executables data with
          | some program => pure (program, l.getLastD [])
          | none => throw notExecutable

/-- What keeps arguments from being passed on. -/
def refusedArgs (args : List Bytes) : Option IoError :=
  if args.any (·.contains 0) then some .zeroInArgument
  else if args.any (·.length > maxArgumentLength) then some argumentTooLong
  else none

/-- The environment with a variable set. -/
def setVariable (environment : Environment) (name : String) (value : Bytes) : Environment :=
  (name, value) :: environment.filter (·.1 != name)

/-- The environment of a plugin: that of the host, with the cookie and the versions. -/
def pluginEnvironment (environment : Environment) (offer : Offer) : Environment :=
  setVariable (setVariable environment offer.cookieVariable (utf8 offer.cookie))
    versionsVariable (utf8 offer.versionsValue)

/-- The new child of a program, with what it writes at once taken in. -/
def Host.start (h : Host) (program : Executable) (name : Bytes) (args : List Bytes)
    (environment : Environment) : Nat × Host :=
  let pid := h.nextPid
  let launch := program ⟨name, args, environment, pid⟩
  let isAlive := match launch.stage with
    | .ended => false
    | _ => true
  let child : Child := { pid, isAlive, output := {}, stage := launch.stage }
  let h := { h with
    children := h.children ++ [child], tracked := h.tracked ++ [pid], nextPid := pid + 1 }
  (pid, h.takeOutput pid launch.stdout launch.stderr)

/-- Starts a file as a plugin. -/
def Host.spawn (h : Host) (p : Path) (args : List Bytes) (offer : Offer) :
    Except IoError (Nat × Host) := do
  match refusedArgs args with
  | some e => throw e
  | none =>
      let (program, name) ← programOf h.world.files h.executables p
      pure (h.start program name args (pluginEnvironment h.environment offer))

end PluginHost.Children

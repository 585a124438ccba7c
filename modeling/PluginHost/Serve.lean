import PluginHost.Handshake
import PluginHost.Rpc.Message
import PluginHost.SystemError

/-!
# The plugin side

A plugin answers requests line by line until its input ends (`serveLines`).  Every line that is
not blank gets one answer: the description, the outcome of a run, or a failure.  A line that is
no UTF-8 ends the service.

`announce` decides how a plugin starts: without the cookie it refuses, and so it does when the
host speaks none of its versions.
-/

namespace PluginHost

open Rpc

/-- What a plugin program offers: its description, and its run, which may change its state `σ`
and fails with a message.  `afterInfo` is the state in which describing itself leaves it. -/
structure Program (σ : Type) where
  info : σ → PluginInfo
  run : σ → List String → Except String Unit × σ
  afterInfo : σ → σ := id

/-- Why a plugin does not start to serve. -/
inductive ServeError where
  | notLaunchedByHost
  | noCommonVersion (ours host : List Nat)
  /-- The service was broken off. -/
  | io (error : IoError)
  deriving DecidableEq, Repr

/-- The wording of each cause. -/
def ServeError.message : ServeError → String
  | .notLaunchedByHost =>
      "This binary is a plugin. These are not meant to be executed directly. " ++
      "Please execute the program that consumes these plugins, which will load " ++
      "any plugins automatically."
  | .noCommonVersion ours host =>
      "No protocol version in common with the host (plugin " ++ versionList ours ++ ", host "
        ++ versionList host ++ ")"
  | .io error => "IO error: " ++ error.message

/-- The version a plugin starts with, given the cookie and the versions it finds in its
environment.  Versions that are missing or no text count as its own. -/
def announce (offer : Offer) (cookie : Option Bytes) (versions : Option Bytes) :
    Except ServeError Nat :=
  if !offer.cookieMatches (cookie.bind text?) then .error .notLaunchedByHost
  else
    let host := match versions.bind text? with
      | some value => parseVersions value
      | none => offer.versions
    match negotiate offer.versions host with
    | some version => .ok version
    | none => .error (.noCommonVersion offer.versions host)

/-- The answer to a request. -/
def respond {σ : Type} (program : Program σ) (args : List String) (state : σ) (request : Request) :
    Response × σ :=
  let id := some request.id
  if request.version != messageVersion then
    (.refusal id (.new Code.invalidRequest.number
      ("Unsupported JSON-RPC version: " ++ request.version)), state)
  else if request.method == describeMethod then
    (.success id (program.info state).toValue, program.afterInfo state)
  else if request.method == runMethod then
    match program.run state args with
    | (.ok (), state) => (.success id .null, state)
    | (.error message, state) =>
        (.refusal id (.new Code.pluginFailure.number message), state)
  else
    (.refusal id (.new Code.methodNotFound.number ("Method not found: " ++ request.method)), state)

/-- The answer to a line that is not blank. -/
def respondToLine {σ : Type} (program : Program σ) (args : List String) (state : σ)
    (line : String) : Response × σ :=
  match Request.parse line with
  | .ok request => respond program args state request
  | .error e =>
      (.refusal none (.new Code.parseError.number ("Parse error: " ++ e.message)), state)

/-- The lines of a stream of bytes, each with its newline; only the last may lack one. -/
def linesOf : Bytes → List Bytes
  | [] => []
  | b :: rest =>
      if b == 10 then [b] :: linesOf rest
      else
        match linesOf rest with
        | line :: lines => (b :: line) :: lines
        | [] => [[b]]

/-- How a service ends. -/
inductive ServeEnd where
  /-- The input has ended. -/
  | endOfInput
  /-- A line was no UTF-8. -/
  | invalidText
  deriving DecidableEq, Repr

/-- What a service leaves behind: its answers, how it ended, and the state of the program. -/
structure Served (σ : Type) where
  replies : List Response
  outcome : ServeEnd
  state : σ

/-- Answers the lines in order. -/
def serveLines {σ : Type} (program : Program σ) (args : List String) (state : σ) :
    List Bytes → Served σ
  | [] => ⟨[], .endOfInput, state⟩
  | line :: lines =>
      match text? line with
      | none => ⟨[], .invalidText, state⟩
      | some text =>
          if Text.isAllBlank text.toList then serveLines program args state lines
          else
            let (reply, state) := respondToLine program args state text
            let served := serveLines program args state lines
            { served with replies := reply :: served.replies }

/-- Answers everything that arrives on a connection. -/
def serve {σ : Type} (program : Program σ) (args : List String) (state : σ) (input : Bytes) :
    Served σ :=
  serveLines program args state (linesOf input)

/-- An answer as it is sent: one line. -/
def replyLine (r : Response) : String := r.text ++ "\n"

theorem linesOf_flatten (input : Bytes) : (linesOf input).flatten = input := by
  induction input with
  | nil => rfl
  | cons b rest ih =>
      simp only [linesOf]
      split
      · simp [ih]
      · split
        · rename_i line lines h
          rw [h] at ih
          simpa using ih
        · rename_i h
          rw [h] at ih
          simp at ih
          simp [ih]

end PluginHost

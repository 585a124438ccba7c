import PluginHost.Config.Storage
import PluginHost.Handshake
import PluginHost.Children.Output
import PluginHost.Rpc.Connection
import PluginHost.World

/-!
# The host and its children

The host starts programs as child processes and keeps track of them.  What a program does is told
by its executable: what it writes at once, and whether it then ends, stays, or serves a connection
(`Launch`).  `Host` is all that the host can see and change: files, environment, children, its own
output.  A `Step` is a computation on it that may fail, or be stopped for good.
-/

namespace PluginHost.Children

open Rpc

/-- What a started program is given. -/
structure Start where
  /-- The name of its file, links resolved. -/
  name : Bytes
  args : List Bytes
  environment : Environment
  pid : Nat

/-- What a program does after what it has written at once. -/
inductive Stage where
  | ended
  | idle
  | serving (transport : Transport) (socket : Bytes) (peer : Peer)

/-- What comes of a started program. -/
structure Launch where
  stdout : Bytes := []
  stderr : Bytes := []
  stage : Stage

/-- A program that can be started. -/
abbrev Executable := Start → Launch

/-- A child of the host. -/
structure Child where
  pid : Nat
  isAlive : Bool
  /-- The first line of its output. -/
  output : FirstLine
  /-- The host has taken the first line. -/
  isTaken : Bool := false
  stage : Stage

/-- All that the host can see and change. -/
structure Host where
  world : World
  /-- What the contents of a file do when they are executed. -/
  executables : Bytes → Option Executable
  /-- The socket that a TCP address leads to, or why the system cannot reach it. -/
  resolve : String → Except IoError Bytes := fun address => .ok (utf8 address)
  environment : Environment
  children : List Child := []
  /-- The children that have to be ended before the host ends. -/
  tracked : List Nat := []
  nextPid : Nat := 1
  /-- What a record of the log looks like on the error output. -/
  logView : LogRecord → Bytes := fun _ => []
  stdin : Bytes := []
  stdout : Bytes := []
  stderr : Bytes := []

/-- Why a computation stops for good. -/
inductive Halt where
  /-- A signal has ended the host. -/
  | interrupted
  /-- It waits for something that never comes. -/
  | endless
  deriving DecidableEq, Repr

/-- Why a computation gives no result. -/
inductive Stop (ε : Type) where
  | failed (error : ε)
  | halted (halt : Halt)

/-- A computation on the host that may fail or be stopped. -/
abbrev Step (ε α : Type) := ExceptT (Stop ε) (StateM Host) α

namespace Step

variable {ε δ α : Type}

/-- Fails. -/
def fail (e : ε) : Step ε α := throw (.failed e)

/-- A result that may be a failure. -/
def ofExcept : Except ε α → Step ε α
  | .ok a => pure a
  | .error e => fail e

/-- The same computation with its failure as a result. -/
def attempt (step : Step ε α) : Step δ (Except ε α) := fun h =>
  match step h with
  | (.ok a, h) => (.ok (.ok a), h)
  | (.error (.failed e), h) => (.ok (.error e), h)
  | (.error (.halted s), h) => (.error (.halted s), h)

/-- The same computation with its failures told in other terms. -/
def wrapped (wrap : δ → ε) (step : Step δ α) : Step ε α := fun h =>
  match step h with
  | (.ok a, h) => (.ok a, h)
  | (.error (.failed e), h) => (.error (.failed (wrap e)), h)
  | (.error (.halted s), h) => (.error (.halted s), h)

/-- The host after a change of the world.  What is new in the log is shown. -/
def withWorld (h : Host) (w : World) : Host :=
  { h with
    world := w
    stderr := h.stderr ++ (w.log.drop h.world.log.length).flatMap h.logView }

/-- Works on the world alone. -/
def onWorld (task : Task ε α) : Step ε α := fun h =>
  match task h.world with
  | (.ok a, w) => (.ok a, withWorld h w)
  | (.error e, w) => (.error (.failed e), withWorld h w)

/-- Adds a record to the log. -/
def note (record : LogRecord) : Step ε Unit := onWorld (Task.note record)

/-- Writes to the output of the host. -/
def print (text : Bytes) : Step ε Unit := modify fun h => { h with stdout := h.stdout ++ text }

/-- Writes to the error output of the host. -/
def printError (text : Bytes) : Step ε Unit := modify fun h => { h with stderr := h.stderr ++ text }

end Step

namespace Host

/-- The child with a number. -/
def child? (h : Host) (pid : Nat) : Option Child := h.children.find? (·.pid == pid)

/-- Changes the child with a number. -/
def updateChild (h : Host) (pid : Nat) (f : Child → Child) : Host :=
  { h with children := h.children.map fun c => if c.pid == pid then f c else c }

/-- The child with a number is there and has not ended. -/
def isAlive (h : Host) (pid : Nat) : Bool :=
  match h.child? pid with
  | some c => c.isAlive
  | none => false

/-- Takes in what a child writes: its first line is kept, the rest is passed on. -/
def takeOutput (h : Host) (pid : Nat) (stdout stderr : Bytes) : Host :=
  match h.child? pid with
  | none => h
  | some c =>
      let (relayed, output) := c.output.feed stdout
      let h := h.updateChild pid fun c => { c with output }
      { h with stdout := h.stdout ++ relayed, stderr := h.stderr ++ stderr }

/-- A child ends. -/
def childEnds (h : Host) (pid : Nat) : Host :=
  h.updateChild pid fun c => { c with isAlive := false }

/-- Ends every child that is tracked. -/
def terminateAll (h : Host) : Host :=
  { h.tracked.foldl childEnds h with tracked := [] }

/-- What listens at a socket. -/
def listenerAt (h : Host) (transport : Transport) (socket : Bytes) : Option (Child × Peer) :=
  h.children.findSome? fun c =>
    match c.stage with
    | .serving t s peer =>
        if c.isAlive && t == transport && s == socket then some (c, peer) else none
    | _ => none

/-- A child does what it does when a line arrives: it writes, signals the host, or ends. -/
def react (h : Host) (pid : Nat) (r : Reaction) : Except Halt Unit × Host :=
  let h := h.takeOutput pid r.stdout r.stderr
  if r.signal.isSome then (.error .interrupted, h.terminateAll)
  else (.ok (), if r.ends then h.childEnds pid else h)

end Host

end PluginHost.Children

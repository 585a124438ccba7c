import PluginHost.Plugin.Error
import PluginHost.Children.Spawn

/-!
# Supervising plugins

A plugin process is started (`spawn`), announces itself in its first line of output
(`awaitHandshake`), and is ended (`terminate`).  Ended processes are no longer tracked; all that
are tracked can be ended at once.
-/

namespace PluginHost.Children

open Rpc

/-- A plugin process, as the one who started it holds it. -/
structure PluginProcess where
  path : Path
  pid : Nat
  isTerminated : Bool := false
  deriving DecidableEq, Repr

/-- Starts a file as a plugin. -/
def spawn (path : Path) (args : List Bytes) (offer : Offer) : Step PluginError PluginProcess :=
  fun h =>
    match h.spawn path args offer with
    | .ok (pid, h) => (.ok { path, pid }, h)
    | .error e => (.error (.failed (.ofSpawn path e)), h)

/-- What waiting for the first line of a child finds. -/
inductive Awaited where
  | line (bytes : Bytes)
  | timeout
  | nothing
  deriving DecidableEq, Repr

/-- The first line of a child, if it comes in time.  A line that is not complete comes when the
child has ended, and no line comes twice. -/
def Child.awaited (c : Child) (limit : Duration) : Awaited :=
  if limit.isZero then .timeout
  else if c.isTaken then .nothing
  else if c.output.isComplete || !c.isAlive && !c.output.bytes.isEmpty then .line c.output.bytes
  else if c.isAlive then .timeout
  else .nothing

/-- What a first line announces. -/
def announced (offer : Offer) (line : Bytes) : Except HandshakeError HandshakeLine :=
  match text? line with
  | some text => offer.accept text
  | none => .error (.malformed (Text.trim (lossyText line)))

/-- Waits for the first line of a plugin and checks it. -/
def awaitHandshake (p : PluginProcess) (limit : Duration) (offer : Offer) :
    Step PluginError HandshakeLine := fun h =>
  match h.child? p.pid with
  | none => (.error (.failed .exitedEarly), h)
  | some c =>
      match c.awaited limit with
      | .timeout => (.error (.failed (.handshakeTimeout limit)), h)
      | .nothing => (.error (.failed .exitedEarly), h)
      | .line line =>
          let h := h.updateChild p.pid fun c => { c with isTaken := true }
          match announced offer line with
          | .ok line => (.ok line, h)
          | .error e => (.error (.failed (.handshake e)), h)

/-- Ends a plugin process, which is then no longer tracked.  Ending it again does nothing. -/
def terminate {ε : Type} (p : PluginProcess) : Step ε PluginProcess := fun h =>
  if p.isTerminated then (.ok p, h)
  else
    let h := h.childEnds p.pid
    (.ok { p with isTerminated := true }, { h with tracked := h.tracked.filter (· != p.pid) })

/-- The text of a process in a report. -/
def PluginProcess.report (p : PluginProcess) (pid : String) : String :=
  "PluginProcess \x7b path: " ++ Text.quotedPath p.path ++ ", pid: " ++ pid ++ ", terminated: "
    ++ (if p.isTerminated then "true" else "false") ++ " \x7d"

/-! ## Connecting -/

/-- The text in front of the last colon, and behind it. -/
def splitPort (address : String) : Option (List Char × List Char) :=
  let reversed := address.toList.reverse
  let port := reversed.takeWhile (· != ':')
  if port.length < reversed.length then
    some ((reversed.drop (port.length + 1)).reverse, port.reverse)
  else none

/-- The longest path of a socket. -/
def maxSocketPathLength : Nat := 107

/-- What keeps an address from being used, before the system is asked. -/
def refusedAddress (transport : Transport) (address : String) : Option IoError :=
  match transport with
  | .tcp =>
      match splitPort address with
      | none => some .noSocketAddress
      | some (_, port) =>
          if (Text.readNat 65535 port).isNone then some .invalidPort else none
  | .unix =>
      let path := utf8 address
      if path.contains 0 then some .zeroInAddress
      else if path.length > maxSocketPathLength then some .addressTooLong
      else if path.isEmpty then some (.system 22)
      else none

/-- Nothing answers at an address. -/
def connectionRefused : IoError := .system 111

/-- The socket that an address leads to: a path is one itself. -/
def Host.socketAt (h : Host) (transport : Transport) (address : String) : Except IoError Bytes :=
  match refusedAddress transport address with
  | some e => .error e
  | none =>
      match transport with
      | .tcp => h.resolve address
      | .unix => .ok (utf8 address)

/-- Why nothing answers at a socket.  A path may not even lead to one. -/
def Host.unanswered (h : Host) (transport : Transport) (socket : Bytes) : IoError :=
  match transport with
  | .tcp => connectionRefused
  | .unix =>
      match h.world.files.node socket with
      | .ok _ => connectionRefused
      | .error e => e

/-- Connects to what listens at an address. -/
def Host.connect (h : Host) (transport : Transport) (address : String) :
    Except IoError (Nat × Peer) :=
  match h.socketAt transport address with
  | .error e => .error e
  | .ok socket =>
      match h.listenerAt transport socket with
      | some (c, peer) => .ok (c.pid, peer)
      | none => .error (h.unanswered transport socket)

/-- Connects to an announced plugin and sets the limit of its answers. -/
def connect (line : HandshakeLine) (limit : Option Duration) : Step RpcError (Nat × Client) :=
  fun h =>
    match h.connect line.transport line.address with
    | .error e => (.error (.failed (.connect line.address e)), h)
    | .ok (pid, peer) =>
        if limit.any (·.isZero) then
          (.error (.failed (.connect line.address .zeroTimeLimit)), h)
        else
          (.ok (pid, { address := line.address, connection := { peer }, limit }), h)

/-- Makes a call to the child that serves it.  A child that has ended is reached no more. -/
def performCall {ε α : Type} (pid : Nat) (client : Client) (call : Client → Call α) :
    Step ε (Except RpcError α × Client) := fun h =>
  let client := if h.isAlive pid then client
    else { client with connection := client.connection.abandon }
  let c := call client
  let (reacted, h) := match c.reaction with
    | some r => h.react pid r
    | none => (.ok (), h)
  match reacted, c.outcome with
  | .error halt, _ => (.error (.halted halt), h)
  | .ok (), .endless => (.error (.halted .endless), h)
  | .ok (), .finished result => (.ok (result, c.client), h)

end PluginHost.Children

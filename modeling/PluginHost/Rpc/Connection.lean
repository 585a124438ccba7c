import PluginHost.Bytes
import PluginHost.Serve

/-!
# Connections

A connection carries bytes in order between a client and a peer.  The peer reads lines and reacts
to each of them (`Peer`): it sends bytes, writes to its output, closes its side or ends.  A client
sends a line and reads one (`Connection.send`, `Connection.receive`); what the peer has sent beyond
that line stays in the connection for the next read.
-/

namespace PluginHost.Rpc

/-- Signals by which a host is asked to end. -/
inductive Signal where
  | interrupt
  | terminate
  | hangUp
  deriving DecidableEq, Repr

/-- What a peer does when a line arrives.  It writes to its output first, then signals its parent
or ends, then sends. -/
structure Reaction where
  stdout : Bytes := []
  stderr : Bytes := []
  signal : Option Signal := none
  ends : Bool := false
  sent : Bytes := []
  closes : Bool := false
  deriving DecidableEq, Repr

/-- A peer: what it does when a line arrives behind the lines that have arrived before. -/
abbrev Peer := List Bytes → Bytes → Reaction

/-- The client's end of a connection: the lines that the peer has received, what it has sent and
the client has not read, whether it will send more, and whether it is still there. -/
structure Connection where
  peer : Peer
  received : List Bytes := []
  waiting : Bytes := []
  isClosed : Bool := false
  isGone : Bool := false

/-- What a read finds. -/
inductive Received where
  /-- A line with its newline, or what stands before the end. -/
  | line (bytes : Bytes)
  /-- Nothing stands before the end. -/
  | ended
  /-- The line is not complete, and more may arrive. -/
  | incomplete
  deriving DecidableEq, Repr

namespace Connection

/-- Sends a line to the peer, which reacts to it.  Nothing can be sent to a peer that is gone. -/
def send (c : Connection) (line : Bytes) : Option (Reaction × Connection) :=
  if c.isGone then none
  else
    let r := c.peer c.received line
    some (r, { c with
      received := c.received ++ [line]
      waiting := if c.isClosed || r.ends then c.waiting else c.waiting ++ r.sent
      isClosed := c.isClosed || r.closes || r.ends
      isGone := r.ends })

/-- Takes a line out of the connection.  The bytes of an incomplete line are lost. -/
def receive (c : Connection) : Received × Connection :=
  match linesOf c.waiting with
  | [] => (if c.isClosed then .ended else .incomplete, c)
  | line :: rest =>
      let c := { c with waiting := rest.flatten }
      if line.getLast? == some 10 || c.isClosed then (.line line, c) else (.incomplete, c)

/-- A connection whose peer has gone away. -/
def abandon (c : Connection) : Connection := { c with isClosed := true, isGone := true }

end Connection

/-- A peer that serves a program.  What the program has written is part of its state.  A line that
is no UTF-8 ends the service. -/
def servingPeer {σ : Type} (program : Program σ) (args : List String) (start : σ)
    (written : σ → Bytes) : Peer := fun before line =>
  let served := serveLines program args start before
  match served.outcome with
  | .invalidText => { ends := true }
  | .endOfInput =>
      let now := serveLines program args served.state [line]
      { stdout := (written now.state).drop (written served.state).length
        stderr := if now.outcome == .invalidText then
            utf8 ((ServeError.io .invalidText).message ++ "\n")
          else []
        sent := now.replies.flatMap fun r => utf8 (replyLine r)
        ends := now.outcome == .invalidText }

end PluginHost.Rpc

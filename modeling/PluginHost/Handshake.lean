import PluginHost.Text.Numeral
import PluginHost.Text.Quoted

/-!
# The handshake

The host puts a cookie and the protocol versions it speaks into the environment of a plugin.  A
plugin that finds the cookie picks a version and announces, in one line of five fields, where it
can be reached:

    1|1|tcp|127.0.0.1:50123|jsonrpc

`HandshakeLine.parse` reads such a line and `HandshakeLine.display` writes it; `Offer.accept`
checks a line against what the host offered.
-/

namespace PluginHost

open Text

/-- The version of the handshake line itself. -/
def coreVersion : Nat := 1

/-- The name of the protocol spoken on the channel. -/
def channelProtocol : String := "jsonrpc"

/-- The variable that tells a plugin which protocol versions the host speaks. -/
def versionsVariable : String := "SPRIG_PLUGIN_PROTOCOL_VERSIONS"

/-- How a plugin can be reached. -/
inductive Transport where
  | tcp
  | unix
  deriving DecidableEq, Repr

/-- The name of a transport. -/
def Transport.name : Transport → String
  | .tcp => "tcp"
  | .unix => "unix"

/-- What a plugin announces. -/
structure HandshakeLine where
  core : Nat
  version : Nat
  transport : Transport
  address : String
  protocol : String
  deriving DecidableEq, Repr

/-- Why a handshake fails. -/
inductive HandshakeError where
  | malformed (line : String)
  | coreVersion (version : Nat)
  | unsupportedVersion (version : Nat) (supported : List Nat)
  | unsupportedTransport (name : String)
  | unsupportedProtocol (name : String)
  deriving DecidableEq, Repr

/-- Numbers with commas between. -/
def commaSeparated (sep : String) (numbers : List Nat) : String :=
  sep.intercalate (numbers.map toString)

/-- Versions as a list in brackets. -/
def versionList (versions : List Nat) : String := "[" ++ commaSeparated ", " versions ++ "]"

/-- The wording of each cause. -/
def HandshakeError.message : HandshakeError → String
  | .malformed line => "Malformed handshake line: " ++ quoted line
  | .coreVersion v =>
      s!"Incompatible core handshake version {v} (host speaks {PluginHost.coreVersion})"
  | .unsupportedVersion v supported =>
      s!"Plugin negotiated protocol version {v}, host supports " ++ versionList supported
  | .unsupportedTransport name => "Unsupported transport " ++ quoted name
  | .unsupportedProtocol name => "Unsupported channel protocol " ++ quoted name

/-- The transport of a name. -/
def Transport.parse (name : String) : Except HandshakeError Transport :=
  if name == "tcp" then .ok .tcp
  else if name == "unix" then .ok .unix
  else .error (.unsupportedTransport name)

namespace HandshakeLine

/-- A line of the current handshake. -/
def new (version : Nat) (transport : Transport) (address : String) : HandshakeLine :=
  ⟨coreVersion, version, transport, address, channelProtocol⟩

/-- The line as it is announced. -/
def display (line : HandshakeLine) : String :=
  "|".intercalate [toString line.core, toString line.version, line.transport.name, line.address,
    line.protocol]

/-- A number of 32 bits in a field of a line. -/
def number (line : String) (field : List Char) : Except HandshakeError Nat :=
  match readNat maxUInt32 field with
  | some n => .ok n
  | none => .error (.malformed line)

/-- The line of five fields; blanks around it are ignored. -/
def parse (text : String) : Except HandshakeError HandshakeLine :=
  let line := trim text
  match splitOn '|' line.toList with
  | [core, version, transport, address, protocol] =>
      if address.isEmpty then .error (.malformed line)
      else do
        let core ← number line core
        let version ← number line version
        let transport ← Transport.parse (String.ofList transport)
        pure ⟨core, version, transport, String.ofList address, String.ofList protocol⟩
  | _ => .error (.malformed line)

end HandshakeLine

/-- What the host offers to a plugin: the cookie, and the protocol versions it speaks. -/
structure Offer where
  cookieVariable : String
  cookie : String
  versions : List Nat
  deriving DecidableEq, Repr

/-- The offer of this host. -/
def hostOffer : Offer where
  cookieVariable := "SPRIG_PLUGIN_COOKIE"
  cookie := "4c6b0e3f9d2a4e8c8f1b7a5d3e9c2f60"
  versions := [1]

namespace Offer

/-- The cookie that was found is the offered one. -/
def cookieMatches (offer : Offer) (found : Option String) : Bool :=
  found == some offer.cookie

/-- The host speaks a version. -/
def supports (offer : Offer) (version : Nat) : Bool := offer.versions.contains version

/-- The versions as they are put into the environment. -/
def versionsValue (offer : Offer) : String := commaSeparated "," offer.versions

/-- A line that fits the offer.  The core version is checked before the protocol version, and
that before the protocol. -/
def accept (offer : Offer) (text : String) : Except HandshakeError HandshakeLine := do
  let line ← HandshakeLine.parse text
  if line.core != coreVersion then throw (.coreVersion line.core)
  else if !offer.supports line.version then
    throw (.unsupportedVersion line.version offer.versions)
  else if line.protocol != channelProtocol then throw (.unsupportedProtocol line.protocol)
  else pure line

end Offer

/-- The highest version that both sides speak. -/
def negotiate (ours theirs : List Nat) : Option Nat :=
  (ours.filter theirs.contains).max?

/-- The versions of a list with commas; what is no number is left out. -/
def parseVersions (value : String) : List Nat :=
  (splitOn ',' value.toList).filterMap fun part => readNat maxUInt32 (trimChars part)

end PluginHost

import PluginHost.Duration
import PluginHost.Rpc.Connection
import PluginHost.SystemError

/-!
# The client of a plugin

A client numbers its requests from one on, with signed numbers of 64 bits that wrap around, sends
each as a line and waits for a line in answer (`Client.call`).  The answer has to be a response
with the number of the request.  `describe` and `run` are the two calls that the host makes.
-/

namespace PluginHost.Rpc

open Json (Value)

/-- Why a call fails. -/
inductive RpcError where
  | connect (address : String) (error : IoError)
  | io (error : IoError)
  | timeout (limit : Duration)
  | disconnected
  | malformed (reason : String)
  | status (failure : Failure)
  deriving Repr

namespace RpcError

/-- The wording of each cause. -/
def message : RpcError → String
  | .connect address error =>
      "Failed to connect to plugin at " ++ address ++ ": " ++ error.message
  | .io error => "Transport error: " ++ error.message
  | .timeout limit => "Plugin did not respond within " ++ limit.text
  | .disconnected => "Plugin closed the connection"
  | .malformed reason => "Malformed response: " ++ reason
  | .status failure => s!"rpc error: code = {failure.code} desc = " ++ failure.message

/-- The plugin itself has refused. -/
def isStatus : RpcError → Bool
  | .status _ => true
  | _ => false

/-- What the plugin says when it refuses. -/
def statusMessage : RpcError → Option String
  | .status failure => some failure.message
  | _ => none

end RpcError

/-- A client with its connection. -/
structure Client where
  address : String
  connection : Connection
  nextId : Int64 := 1
  limit : Option Duration := none

/-- The end of a call: what it gives, or that it waits forever. -/
inductive CallEnd (α : Type) where
  | finished (result : Except RpcError α)
  | endless

/-- What comes of a call: its end, what the plugin did, and the client after it. -/
structure Call (α : Type) where
  outcome : CallEnd α
  reaction : Option Reaction
  client : Client

/-- A call whose value is read further. -/
def Call.bind {α β : Type} (c : Call α) (f : α → Except RpcError β) : Call β :=
  ⟨match c.outcome with
    | .finished (.ok a) => .finished (f a)
    | .finished (.error e) => .finished (.error e)
    | .endless => .endless,
    c.reaction, c.client⟩

/-- The text of an identifier in a report. -/
def Id.report : Option Id → String
  | none => "None"
  | some (.number n) => s!"Some(Number({n}))"
  | some (.text s) => "Some(String(" ++ Text.quoted s ++ "))"

/-- What a line means as the answer to a request. -/
def answerOf (id : Int) (line : Bytes) : Except RpcError Value :=
  match text? line with
  | none => .error (.io .invalidText)
  | some text =>
      match Response.parse text with
      | .error e => .error (.malformed e.message)
      | .ok r =>
          if r.id != some (.number id) then
            .error (.malformed
              ("response id " ++ Id.report r.id ++ s!" does not match request id {id}"))
          else
            match r.outcome with
            | .ok value => .ok value
            | .error failure => .error (.status failure)

/-- The line of a request. -/
def requestLine (id : Int) (method : String) : Bytes :=
  utf8 ((Request.new (.number id) method none).text ++ "\n")

namespace Client

/-- Sends a request and waits for its answer. -/
def call (c : Client) (method : String) : Call Value :=
  let id := c.nextId
  let c := { c with nextId := id + 1 }
  match c.connection.send (requestLine id.toInt method) with
  | none => ⟨.finished (.error (.io (.system 32))), none, c⟩
  | some (reaction, connection) =>
      match connection.receive with
      | (.line line, connection) =>
          ⟨.finished (answerOf id.toInt line), some reaction, { c with connection }⟩
      | (.ended, connection) =>
          ⟨.finished (.error .disconnected), some reaction, { c with connection }⟩
      | (.incomplete, connection) =>
          ⟨match c.limit with
            | some limit => .finished (.error (.timeout limit))
            | none => .endless,
            some reaction, { c with connection }⟩

/-- A description, which has to have a name. -/
def infoOf (value : Value) : Except RpcError PluginInfo :=
  match PluginInfo.ofValue value with
  | .error e => .error (.malformed e.message)
  | .ok info =>
      if Text.isAllBlank info.name.toList then .error (.malformed "plugin reported an empty name")
      else .ok info

/-- Asks the plugin to describe itself. -/
def describe (c : Client) : Call PluginInfo := (c.call describeMethod).bind infoOf

/-- Lets the plugin run. -/
def run (c : Client) : Call Unit := (c.call runMethod).bind fun _ => .ok ()

end Client

end PluginHost.Rpc

import PluginHost.Json.Reader

/-!
# Messages between host and plugin

Host and plugin talk in JSON-RPC 2.0, one message per line.  A request names a method, a response
carries a result or a failure, and both carry the id of the request.  `Request.text` and
`Response.text` write a message; `Request.parse` and `Response.parse` read one.
-/

namespace PluginHost.Rpc

open Json

/-- The version of the message format. -/
def messageVersion : String := "2.0"

/-- The method that asks a plugin to describe itself. -/
def describeMethod : String := "Plugin.GetInfo"

/-- The method that runs a plugin. -/
def runMethod : String := "Plugin.Run"

/-- The codes of failures. -/
inductive Code where
  | parseError
  | invalidRequest
  | methodNotFound
  | internalError
  | pluginFailure
  deriving DecidableEq, Repr

/-- The number of a failure code. -/
def Code.number : Code → Int
  | .parseError => -32700
  | .invalidRequest => -32600
  | .methodNotFound => -32601
  | .internalError => -32603
  | .pluginFailure => 2

/-- The id of a request: a text, or a signed number of 64 bits. -/
inductive Id where
  | text (s : String)
  | number (i : Int)
  deriving DecidableEq, Repr

/-- A call of a method. -/
structure Request where
  version : String
  id : Id
  method : String
  params : Option Value
  deriving Repr

/-- Why a call failed. -/
structure Failure where
  code : Int
  message : String
  data : Option Value
  deriving Repr

/-- The answer to a call. -/
structure Response where
  version : String
  id : Option Id
  result : Option Value
  failure : Option Failure
  deriving Repr

/-- How a plugin describes itself. -/
structure PluginInfo where
  name : String
  description : String
  version : String
  deriving DecidableEq, Repr

/-- A request of the current version. -/
def Request.new (id : Id) (method : String) (params : Option Value) : Request :=
  ⟨messageVersion, id, method, params⟩

/-- A failure without further data. -/
def Failure.new (code : Int) (message : String) : Failure := ⟨code, message, none⟩

/-- The code and the message of a failure. -/
def Failure.display (f : Failure) : String := s!"[{f.code}] " ++ f.message

/-- An answer with a result. -/
def Response.success (id : Option Id) (result : Value) : Response :=
  ⟨messageVersion, id, some result, none⟩

/-- An answer that reports a failure. -/
def Response.refusal (id : Option Id) (failure : Failure) : Response :=
  ⟨messageVersion, id, none, some failure⟩

/-- An answer is a success when it reports no failure, whatever its result. -/
def Response.isSuccess (r : Response) : Bool := r.failure.isNone

/-- The result of an answer: its failure first, then its result, null when there is none. -/
def Response.outcome (r : Response) : Except Failure Value :=
  match r.failure with
  | some f => .error f
  | none => .ok (r.result.getD .null)

/-! ## Writing -/

/-- The characters of an id. -/
def Id.chars : Id → List Char
  | .text s => stringChars s
  | .number i => (toString i).toList

/-- A member that is written only when it is there. -/
def optionalMember (name : String) (value : Option (List Char)) : List (String × List Char) :=
  match value with
  | some v => [(name, v)]
  | none => []

/-- The characters of a request. -/
def Request.chars (r : Request) : List Char :=
  recordChars ([("jsonrpc", stringChars r.version), ("id", r.id.chars),
    ("method", stringChars r.method)] ++ optionalMember "params" (r.params.map Value.chars))

/-- The text of a request. -/
def Request.text (r : Request) : String := String.ofList r.chars

/-- The characters of a failure. -/
def Failure.chars (f : Failure) : List Char :=
  recordChars ([("code", (toString f.code).toList), ("message", stringChars f.message)]
    ++ optionalMember "data" (f.data.map Value.chars))

/-- The characters of a response. -/
def Response.chars (r : Response) : List Char :=
  recordChars ([("jsonrpc", stringChars r.version),
      ("id", (r.id.map Id.chars).getD "null".toList)]
    ++ optionalMember "result" (r.result.map Value.chars)
    ++ optionalMember "error" (r.failure.map Failure.chars))

/-- The text of a response. -/
def Response.text (r : Response) : String := String.ofList r.chars

/-- The description of a plugin as the result of a call. -/
def PluginInfo.toValue (info : PluginInfo) : Value :=
  .object [("description", .string info.description), ("name", .string info.name),
    ("version", .string info.version)]

/-! ## Reading -/

/-- The id that a value stands for. -/
def Id.ofValue? : Value → Option Id
  | .string s => some (.text s)
  | .number (.integer i) =>
      if -(Text.maxInt64 + 1 : Int) ≤ i && i ≤ Text.maxInt64 then some (.number i) else none
  | _ => none

/-- Reads an id: any value is read to its end before it is judged. -/
def readId (levels : Nat) : Reader Id := fun cs => do
  let (v, cs) ← readValue levels cs
  match Id.ofValue? v with
  | some id => pure (id, cs)
  | none => throw (.noVariant "RequestId")

/-- The fields of a request that have been read. -/
structure RequestDraft where
  version : Option String
  id : Option Id
  method : Option String
  params : Option (Option Value)

/-- A request as a record. -/
def requestRecord : Record RequestDraft where
  name := "JsonRpcRequest"
  fields := [
    ⟨"jsonrpc", false, (·.version.isSome), fun _ d cs => do
      let (v, cs) ← readText cs
      pure ({ d with version := some v }, cs)⟩,
    ⟨"id", false, (·.id.isSome), fun levels d cs => do
      let (v, cs) ← readId levels cs
      pure ({ d with id := some v }, cs)⟩,
    ⟨"method", false, (·.method.isSome), fun _ d cs => do
      let (v, cs) ← readText cs
      pure ({ d with method := some v }, cs)⟩,
    ⟨"params", true, (·.params.isSome), fun levels d cs => do
      let (v, cs) ← readOptional (readValue levels) cs
      pure ({ d with params := some v }, cs)⟩]

/-- The request of a whole text. -/
def Request.parse (s : String) : Except Json.Error Request := do
  let read : Reader RequestDraft := requestRecord.read maxNesting ⟨none, none, none, none⟩
  let (d, cs) ← read s.toList
  let version ← required "jsonrpc" d.version
  let id ← required "id" d.id
  let method ← required "method" d.method
  endOfText (⟨version, id, method, d.params.getD none⟩, cs)

/-- The fields of a failure that have been read. -/
structure FailureDraft where
  code : Option Int
  message : Option String
  data : Option (Option Value)

/-- A failure as a record. -/
def failureRecord : Record FailureDraft where
  name := "JsonRpcError"
  fields := [
    ⟨"code", false, (·.code.isSome), fun _ d cs => do
      let (v, cs) ← readInteger (-2147483648) 2147483647 "i32" cs
      pure ({ d with code := some v }, cs)⟩,
    ⟨"message", false, (·.message.isSome), fun _ d cs => do
      let (v, cs) ← readText cs
      pure ({ d with message := some v }, cs)⟩,
    ⟨"data", true, (·.data.isSome), fun levels d cs => do
      let (v, cs) ← readOptional (readValue levels) cs
      pure ({ d with data := some v }, cs)⟩]

/-- Reads a failure. -/
def readFailure (levels : Nat) : Reader Failure := fun cs => do
  let (d, cs) ← failureRecord.read levels ⟨none, none, none⟩ cs
  let code ← required "code" d.code
  let message ← required "message" d.message
  pure (⟨code, message, d.data.getD none⟩, cs)

/-- The fields of a response that have been read. -/
structure ResponseDraft where
  version : Option String
  id : Option (Option Id)
  result : Option (Option Value)
  failure : Option (Option Failure)

/-- A response as a record. -/
def responseRecord : Record ResponseDraft where
  name := "JsonRpcResponse"
  fields := [
    ⟨"jsonrpc", false, (·.version.isSome), fun _ d cs => do
      let (v, cs) ← readText cs
      pure ({ d with version := some v }, cs)⟩,
    ⟨"id", false, (·.id.isSome), fun levels d cs => do
      let (v, cs) ← readOptional (readId levels) cs
      pure ({ d with id := some v }, cs)⟩,
    ⟨"result", true, (·.result.isSome), fun levels d cs => do
      let (v, cs) ← readOptional (readValue levels) cs
      pure ({ d with result := some v }, cs)⟩,
    ⟨"error", true, (·.failure.isSome), fun levels d cs => do
      let (v, cs) ← readOptional (readFailure levels) cs
      pure ({ d with failure := some v }, cs)⟩]

/-- The response of a whole text.  In an object the id may be missing, in a list it may not. -/
def Response.parse (s : String) : Except Json.Error Response := do
  let read : Reader ResponseDraft := responseRecord.read maxNesting ⟨none, none, none, none⟩
  let (d, cs) ← read s.toList
  let version ← required "jsonrpc" d.version
  endOfText (⟨version, d.id.getD none, d.result.getD none, d.failure.getD none⟩, cs)

/-! ## The description of a plugin -/

/-- The text of a value that is one. -/
def textOf : Value → Except Json.Error String
  | .string s => .ok s
  | v => .error (.invalidType v.found "a string")

/-- The text of a member, empty when it is missing.  The members are read in their order. -/
def PluginInfo.ofMembers (members : List (String × Value)) : Except Json.Error PluginInfo := do
  let mut name : Option String := none
  let mut description := ""
  let mut version := ""
  for (k, v) in members do
    if k == "name" then name := some (← textOf v)
    else if k == "description" then description := ← textOf v
    else if k == "version" then version := ← textOf v
  pure ⟨← required "name" name, description, version⟩

/-- The description that the items of a list give. -/
def PluginInfo.ofItems (items : List Value) : Except Json.Error PluginInfo :=
  match items with
  | [] => .error (.invalidLength 0 "struct PluginInfo with 3 elements")
  | [n] => do pure ⟨← textOf n, "", ""⟩
  | [n, d] => do pure ⟨← textOf n, ← textOf d, ""⟩
  | n :: d :: v :: more => do
      let info : PluginInfo := ⟨← textOf n, ← textOf d, ← textOf v⟩
      if more.isEmpty then pure info
      else throw (.invalidLength items.length "fewer elements in array")

/-- The description that the result of a call gives. -/
def PluginInfo.ofValue : Value → Except Json.Error PluginInfo
  | .object members => PluginInfo.ofMembers members
  | .array items => PluginInfo.ofItems items
  | v => .error (.invalidType v.found "struct PluginInfo")

end PluginHost.Rpc

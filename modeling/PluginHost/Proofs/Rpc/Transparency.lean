import PluginHost.Plugin.Registry
import PluginHost.Proofs.Serving

/-!
# Calls over a connection

A client that is connected to the service of a plugin gets what calling the plugin directly gives
(`askAll_serving`).  The direct calls are `Program.ask` and `Program.askAll`; nothing in them knows
of messages.

`Serving` is the invariant of a connection between two calls: nothing waits in it, and the service
of the lines that have arrived has come to a given state.  `call_serving` is the step: a call sends
one request, the service answers it, and the answer is what the service would have said to the
request itself.  `ask_serving` reads the two kinds of calls off it, and `askAll_serving` is the
induction over the calls.
-/

namespace PluginHost

open Rpc Json Text

/-! ## Direct calls -/

/-- What a host asks of a plugin. -/
inductive Ask where
  | info
  | run
  deriving DecidableEq, Repr

/-- What it gets. -/
inductive Answer where
  | info (result : Except RpcError PluginInfo)
  | run (result : Except RpcError Unit)

/-- The call of the plugin that is behind it. -/
def Ask.call (args : List String) : Ask → PluginCall
  | .info => .info
  | .run => .run args

/-- Asks the plugin itself.  A description has to have a name, and a run that fails is a failure of
the plugin with its message. -/
def Program.ask {σ : Type} (program : Program σ) (args : List String) (state : σ) :
    Ask → Answer × σ
  | .info =>
      (.info (if trim (program.info state).name = "" then
          .error (.malformed "plugin reported an empty name")
        else .ok (program.info state)), program.afterInfo state)
  | .run =>
      match program.run state args with
      | (.ok (), state) => (.run (.ok ()), state)
      | (.error message, state) => (.run (.error (.status ⟨2, message, none⟩)), state)

/-- Asks the plugin itself, again and again. -/
def Program.askAll {σ : Type} (program : Program σ) (args : List String) (state : σ) :
    List Ask → List Answer × σ
  | [] => ([], state)
  | ask :: asks =>
      let (answer, state) := program.ask args state ask
      let (answers, state) := program.askAll args state asks
      (answer :: answers, state)

/-! ## Calls of a client -/

/-- The end of a call, with what it gives put in another way. -/
def Rpc.CallEnd.map {α : Type} {β : Type} (f : Except RpcError α → β) : CallEnd α → Option β
  | .finished result => some (f result)
  | .endless => none

/-- Asks over the connection; there is no answer when the call waits forever. -/
def Rpc.Client.ask (c : Client) : Ask → Option Answer × Client
  | .info => (c.describe.outcome.map .info, c.describe.client)
  | .run => (c.run.outcome.map .run, c.run.client)

/-- Asks over the connection, again and again. -/
def Rpc.Client.askAll (c : Client) : List Ask → List (Option Answer) × Client
  | [] => ([], c)
  | ask :: asks =>
      let (answer, c) := c.ask ask
      let (answers, c) := c.askAll asks
      (answer :: answers, c)

/-! ## One call -/

/-- What a response says is kept by reading it back, when its failure has no data. -/
theorem outcome_plain_of_no_data {r : Response} (h : ∀ f, r.failure = some f → f.data = none) :
    r.plain.outcome = r.outcome := by
  rw [Response.outcome_plain]
  cases hfailure : r.failure with
  | none => simp [Response.outcome, hfailure, Except.mapError]
  | some f =>
      have hplain : f.plain = f := congrArg (Failure.mk f.code f.message) (by simp [h f hfailure])
      simp [Response.outcome, hfailure, Except.mapError, hplain]

/-- A description is read back from the result of a call. -/
theorem ofValue_toValue (info : PluginInfo) : PluginInfo.ofValue info.toValue = .ok info := by
  rfl

variable {σ : Type} {program : Program σ} {args : List String} {start : σ} {written : σ → Bytes}

/-- Between two calls nothing waits in the connection, and the service has come so far: its state,
and the calls that the program has got. -/
structure Serving (program : Program σ) (args : List String) (start : σ) (written : σ → Bytes)
    (state : σ) (log : List PluginCall) (c : Connection) : Prop where
  peer : c.peer = servingPeer program args start written
  waiting : c.waiting = []
  isOpen : c.isClosed = false
  isThere : c.isGone = false
  goesOn : (serveLines program.recorded args (start, []) c.received).outcome = .endOfInput
  reached : (serveLines program.recorded args (start, []) c.received).state = (state, log)

/-- The request that the next call sends. -/
def Rpc.Client.request (c : Client) (method : String) : Request :=
  Request.new (.number c.nextId.toInt) method none

/-- A request with a number of 64 bits reads back. -/
theorem readsBack_numbered (n : Int64) (method : String) :
    (Request.new (.number n.toInt) method none).ReadsBack := by
  have hlow := n.le_toInt
  have hhigh := n.toInt_lt
  refine ⟨⟨?_, ?_⟩, ?_⟩
  · simp only [maxInt64]
    omega
  · simp only [maxInt64]
    omega
  · rintro v ⟨⟩

theorem readsBack_request (c : Client) (method : String) : (c.request method).ReadsBack :=
  readsBack_numbered c.nextId method

/-- The service reads the request that a client has sent. -/
theorem parse_request (c : Client) (method : String) :
    Request.parse ((c.request method).text ++ "\n") = .ok (c.request method) := by
  have hblanks : skipSpace "\n".toList = [] := by decide
  have hparse := parse_request_chars (readsBack_request c method) hblanks
  rw [String.ofList_append, String.ofList_toList] at hparse
  exact hparse

/-- The client reads the reply that the service has sent. -/
theorem answerOf_replyLine {r : Response} {id : Int} (h : r.ReadsBack)
    (hid : r.id = some (.number id)) (hdata : ∀ f, r.failure = some f → f.data = none) :
    answerOf id (utf8 (replyLine r)) = r.outcome.mapError .status := by
  have hblanks : skipSpace "\n".toList = [] := by decide
  have hparse := parse_response_chars h hblanks
  rw [String.ofList_append, String.ofList_toList] at hparse
  have hplain : r.plain.id = some (.number id) := hid
  unfold answerOf
  rw [text?_utf8]
  simp only [replyLine, Response.text, hparse, hplain, bne_self_eq_false, Bool.false_eq_true,
    if_false, outcome_plain_of_no_data hdata]
  cases r.outcome <;> rfl

/-- A line that is asked is served by itself. -/
theorem serveLines_one (program : Program σ) (args : List String) (state : σ) {line : Bytes}
    {text : String} (h : text? line = some text) (hasked : trim text ≠ "") :
    serveLines program args state [line] =
      ⟨[(respondToLine program args state text).1], .endOfInput,
        (respondToLine program args state text).2⟩ := by
  rw [serveLines_asked program args state h hasked]
  rfl

/-- The peer of a client reacts to a line that is asked by sending the reply, and stays there. -/
theorem servingPeer_asked {state : σ} {log : List PluginCall} {c : Connection}
    (h : Serving program args start written state log c) {line : Bytes} {text : String}
    (htext : text? line = some text) (hasked : trim text ≠ "") :
    (c.peer c.received line).sent = utf8 (replyLine (respondToLine program args state text).1) ∧
      (c.peer c.received line).ends = false ∧ (c.peer c.received line).closes = false := by
  have hrecorded := serveLines_recorded program args start [] c.received
  have hgoesOn : (serveLines program args start c.received).outcome = .endOfInput := by
    rw [← h.goesOn, hrecorded]
  have hreached : (serveLines program args start c.received).state = state := by
    have hpair := h.reached
    rw [hrecorded] at hpair
    exact congrArg Prod.fst hpair
  rw [h.peer]
  unfold servingPeer
  simp only [hgoesOn, hreached, serveLines_one program args state htext hasked]
  refine ⟨?_, rfl, trivial⟩
  rw [List.flatMap_cons, List.flatMap_nil, List.append_nil]

/-- The lines of a reply that stands alone in a connection. -/
theorem linesOf_replyLine {r : Response} (h : r.ReadsBack) :
    linesOf (utf8 (replyLine r)) = [utf8 (replyLine r)] := by
  have hnewline : '\n' ∉ r.text.toList := by
    rw [Response.text, String.toList_ofList]
    exact newline_notMem_response h
  have hlines := linesOf_utf8_append hnewline []
  rw [List.append_nil] at hlines
  exact hlines

theorem getLast?_replyLine (r : Response) : (utf8 (replyLine r)).getLast? = some 10 := by
  have hnewline : utf8 "\n" = [10] := by decide
  rw [replyLine, utf8_append, hnewline, List.getLast?_append]
  rfl

/-- A reply that has been sent is received, and nothing waits behind it. -/
theorem receive_replyLine {c : Connection} {r : Response} (h : r.ReadsBack)
    (hwaiting : c.waiting = utf8 (replyLine r)) :
    c.receive = (.line (utf8 (replyLine r)), { c with waiting := [] }) := by
  unfold Connection.receive
  rw [hwaiting, linesOf_replyLine h]
  simp only [getLast?_replyLine, beq_self_eq_true, Bool.true_or, if_true, List.flatten_nil]

/-- When a line that is asked has been sent, the reply waits in the connection; the invariant
holds again as soon as it has been taken out. -/
theorem send_serving {state : σ} {log : List PluginCall} {c : Connection}
    (h : Serving program args start written state log c) {line : Bytes} {text : String}
    (htext : text? line = some text) (hasked : trim text ≠ "") :
    ∃ reaction sent, c.send line = some (reaction, sent) ∧
      sent.waiting = utf8 (replyLine (respondToLine program args state text).1) ∧
      Serving program args start written (respondToLine program args state text).2
        (log ++ (callOf args text).toList) { sent with waiting := [] } := by
  obtain ⟨hsent, hends, hcloses⟩ := servingPeer_asked h htext hasked
  have hsend : c.send line = some (c.peer c.received line,
      { c with
        received := c.received ++ [line]
        waiting := utf8 (replyLine (respondToLine program args state text).1) }) := by
    unfold Connection.send
    simp only [h.isThere, h.isOpen, h.waiting, hsent, hends, hcloses, Bool.or_self,
      Bool.false_eq_true, if_false, List.nil_append]
  have happend := serveLines_append program.recorded args h.goesOn [line]
  rw [serveLines_one _ args _ htext hasked] at happend
  refine ⟨_, _, hsend, ?_, ⟨h.peer, rfl, h.isOpen, h.isThere, ?_, ?_⟩⟩
  · dsimp only
  · rw [happend]
  · rw [happend, h.reached, respondToLine_recorded]

/-- The answer to a request of a client has its number, and no further data. -/
theorem respond_request (program : Program σ) (args : List String) (state : σ) (c : Client)
    (method : String) :
    (respond program args state (c.request method)).1.id = some (.number c.nextId.toInt) ∧
      ∀ f, (respond program args state (c.request method)).1.failure = some f → f.data = none := by
  rcases respond_cases program args state (c.request method) with ⟨v, hr, -⟩ | ⟨code, message, hr⟩
  · rw [hr]
    refine ⟨rfl, ?_⟩
    rintro f ⟨⟩
  · rw [hr]
    refine ⟨rfl, ?_⟩
    rintro f ⟨⟩
    rfl

/-- A call whose request is sent and whose answer is received. -/
theorem call_of_exchange {c : Client} {method : String} {reaction : Reaction}
    {sent after : Connection} {line : Bytes}
    (hsend : c.connection.send (requestLine c.nextId.toInt method) = some (reaction, sent))
    (hreceive : sent.receive = (.line line, after)) :
    c.call method = ⟨.finished (answerOf c.nextId.toInt line), some reaction,
      { c with nextId := c.nextId + 1, connection := after }⟩ := by
  unfold Client.call
  simp only [hsend, hreceive]

/-- One call over the connection is one request to the plugin: the call ends with what the reply
says, and the connection is as before, one request further. -/
theorem call_serving {state : σ} {log : List PluginCall} {c : Client}
    (h : Serving program args start written state log c.connection) (method : String) :
    (c.call method).outcome =
        .finished ((respond program args state (c.request method)).1.outcome.mapError .status) ∧
      Serving program args start written (respond program args state (c.request method)).2
        (log ++ (callOf args ((c.request method).text ++ "\n")).toList)
        (c.call method).client.connection := by
  have htext : text? (requestLine c.nextId.toInt method) = some ((c.request method).text ++ "\n") :=
    text?_utf8 _
  have hparse := parse_request c method
  have hasked : trim ((c.request method).text ++ "\n") ≠ "" :=
    fun hblank => parse_request_ne_ok hblank _ hparse
  have hrespond : respondToLine program args state ((c.request method).text ++ "\n") =
      respond program args state (c.request method) := by
    unfold respondToLine
    rw [hparse]
  have hback := readsBack_respond program args state (readsBack_request c method).1
  obtain ⟨hid, hdata⟩ := respond_request program args state c method
  obtain ⟨reaction, sent, hsend, hwaiting, hserving⟩ := send_serving h htext hasked
  rw [hrespond] at hwaiting hserving
  rw [call_of_exchange hsend (receive_replyLine hback hwaiting),
    answerOf_replyLine hback hid hdata]
  exact ⟨rfl, hserving⟩

/-! ## Many calls -/

theorem callOf_describe (c : Client) :
    callOf args ((c.request describeMethod).text ++ "\n") = some .info := by
  unfold callOf
  rw [parse_request]
  rfl

theorem callOf_run (c : Client) :
    callOf args ((c.request runMethod).text ++ "\n") = some (.run args) := by
  unfold callOf
  rw [parse_request]
  rfl

/-- Asking over the connection gives what asking the plugin gives, and calls the plugin once. -/
theorem ask_serving {state : σ} {log : List PluginCall} {c : Client}
    (h : Serving program args start written state log c.connection) (ask : Ask) :
    (c.ask ask).1 = some (program.ask args state ask).1 ∧
      Serving program args start written (program.ask args state ask).2
        (log ++ [ask.call args]) (c.ask ask).2.connection := by
  cases ask with
  | info =>
      have hrespond : respond program args state (c.request describeMethod) =
          (.success (some (c.request describeMethod).id) (program.info state).toValue,
            program.afterInfo state) := by
        unfold respond
        rfl
      obtain ⟨houtcome, hserving⟩ := call_serving h describeMethod
      rw [callOf_describe] at hserving
      rw [hrespond] at houtcome hserving
      refine ⟨?_, hserving⟩
      show (c.describe.outcome.map Answer.info) = _
      unfold Client.describe Call.bind
      rw [houtcome]
      simp only [Response.outcome, Response.success, Except.mapError, Option.getD_some,
        Client.infoOf, ofValue_toValue, CallEnd.map, Program.ask, isAllBlank_iff_trim]
  | run =>
      obtain ⟨houtcome, hserving⟩ := call_serving h runMethod
      rw [callOf_run] at hserving
      have hrespond : respond program args state (c.request runMethod) =
          match program.run state args with
          | (.ok (), next) => (.success (some (c.request runMethod).id) .null, next)
          | (.error message, next) =>
              (.refusal (some (c.request runMethod).id)
                (.new Code.pluginFailure.number message), next) := by
        unfold respond
        rfl
      rw [hrespond] at houtcome hserving
      show (c.run.outcome.map Answer.run) = _ ∧ _
      unfold Client.run Call.bind Program.ask
      cases hrun : program.run state args with
      | mk result next =>
          rw [hrun] at houtcome hserving
          cases result with
          | error message =>
              refine ⟨?_, hserving⟩
              rw [houtcome]
              rfl
          | ok u =>
              refine ⟨?_, hserving⟩
              rw [houtcome]
              rfl

theorem askAll_cons (c : Client) (ask : Ask) (asks : List Ask) :
    c.askAll (ask :: asks) =
      ((c.ask ask).1 :: ((c.ask ask).2.askAll asks).1, ((c.ask ask).2.askAll asks).2) :=
  rfl

theorem askAll_invariant {state : σ} {log : List PluginCall} {c : Client}
    (h : Serving program args start written state log c.connection) (asks : List Ask) :
    (c.askAll asks).1 = (program.askAll args state asks).1.map some ∧
      Serving program args start written (program.askAll args state asks).2
        (log ++ asks.map (Ask.call args)) (c.askAll asks).2.connection := by
  induction asks generalizing state log c with
  | nil =>
      rw [List.map_nil, List.append_nil]
      exact ⟨rfl, h⟩
  | cons ask asks ih =>
      obtain ⟨hanswer, hone⟩ := ask_serving h ask
      obtain ⟨hanswers, hall⟩ := ih hone
      rw [List.append_assoc] at hall
      refine ⟨?_, hall⟩
      rw [askAll_cons, hanswer, hanswers]
      rfl

/-- Calls over a connection to the service of a plugin are calls of the plugin.  Every call is
answered as the plugin itself answers it, the plugin is left in the same state, the calls that it has
got are those that were made, in order, and a failed run is reported in the words of the plugin. -/
theorem askAll_serving (program : Program σ) (args : List String) (start : σ) (written : σ → Bytes)
    (address : String) (asks : List Ask) :
    let client : Client :=
      { address, connection := { peer := servingPeer program args start written } }
    let after := client.askAll asks
    let served := serveLines program.recorded args (start, []) after.2.connection.received
    after.1 = (program.askAll args start asks).1.map some ∧
      served.state = ((program.askAll args start asks).2, asks.map (Ask.call args)) ∧
      ∀ message, (InvocationError.ofRpc (.status ⟨2, message, none⟩)).message = message := by
  intro client after served
  have hstart : Serving program args start written start [] client.connection :=
    ⟨rfl, rfl, rfl, rfl, rfl, rfl⟩
  obtain ⟨hanswers, hserving⟩ := askAll_invariant hstart asks
  exact ⟨hanswers, hserving.reached, fun message => rfl⟩

end PluginHost

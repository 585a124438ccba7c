import PluginHost.Proofs.Rpc.Transparency

/-!
# Every call reads its own line

A client numbers its requests, and answers come without any other sign than their place in the
stream and the number in them.  `answers_in_order` says that the two agree, whatever the peer sends:
the call at each place is judged by the line at the same place of the stream (`Judged`), succeeds or
is refused only by a response with its own number, and leaves all lines behind that one to the calls
behind it.

The stream is what the client finds in its connection while it makes its calls
(`Rpc.Client.stream`).  `call_spec` says what one call does to the connection, and
`ask_takes_line` is the step: a call that ends takes exactly the first line out of the stream.
`askAll_takes_lines` is the induction over the calls.
-/

namespace PluginHost

open Rpc Json Text

/-! ## Answers to a line -/

/-- The method that a call asks for. -/
def Ask.method : Ask → String
  | .info => describeMethod
  | .run => runMethod

/-- A call that fails. -/
def Ask.failed : Ask → RpcError → Answer
  | .info, e => .info (.error e)
  | .run, e => .run (.error e)

/-- The line is a response with the number of the request. -/
def Responds (id : Int) (line : Bytes) (r : Response) : Prop :=
  ∃ text, text? line = some text ∧ Response.parse text = .ok r ∧ r.id = some (.number id)

/-- The result of a response describes a plugin. -/
def Describes (r : Response) (info : PluginInfo) : Prop :=
  Client.infoOf (r.result.getD .null) = .ok info

/-- What a call gives for its line of the stream.  There is no line when the stream has ended before
it. -/
inductive Judged (id : Int) : Ask → Option Bytes → Answer → Prop where
  | disconnected (ask : Ask) : Judged id ask none (ask.failed .disconnected)
  | noText (ask : Ask) {line : Bytes} (h : text? line = none) :
      Judged id ask (some line) (ask.failed (.io .invalidText))
  | noResponse (ask : Ask) {line : Bytes} {text : String} (htext : text? line = some text)
      (h : ∀ r, ¬Responds id line r) (reason : String) :
      Judged id ask (some line) (ask.failed (.malformed reason))
  | status (ask : Ask) {line : Bytes} {r : Response} {f : Failure} (h : Responds id line r)
      (hfailure : r.failure = some f) : Judged id ask (some line) (ask.failed (.status f))
  | run {line : Bytes} {r : Response} (h : Responds id line r) (hfailure : r.failure = none) :
      Judged id .run (some line) (.run (.ok ()))
  | info {line : Bytes} {r : Response} {info : PluginInfo} (h : Responds id line r)
      (hfailure : r.failure = none) (hdescribes : Describes r info) :
      Judged id .info (some line) (.info (.ok info))
  | noInfo {line : Bytes} {r : Response} (h : Responds id line r) (hfailure : r.failure = none)
      (hnone : ∀ info, ¬Describes r info) (reason : String) :
      Judged id .info (some line) (.info (.error (.malformed reason)))

/-- The answer that a call makes of the value it has got. -/
def Ask.answer : Ask → Except RpcError Value → Answer
  | .info, result => .info (result.bind Client.infoOf)
  | .run, result => .run (result.map fun _ => ())

theorem infoOf_error {value : Value} {e : RpcError} (h : Client.infoOf value = .error e) :
    ∃ reason, e = .malformed reason := by
  unfold Client.infoOf at h
  split at h
  · cases h
    exact ⟨_, rfl⟩
  · split at h
    · cases h
      exact ⟨_, rfl⟩
    · cases h

theorem Ask.answer_error (ask : Ask) (e : RpcError) : ask.answer (.error e) = ask.failed e := by
  cases ask <;> rfl

theorem responds_iff_parse {id : Int} {line : Bytes} {text : String}
    (htext : text? line = some text) {r : Response} :
    Responds id line r ↔ Response.parse text = .ok r ∧ r.id = some (.number id) := by
  constructor
  · rintro ⟨text', htext', hread⟩
    obtain rfl := Option.some.inj (htext.symm.trans htext')
    exact hread
  · exact fun hread => ⟨text, htext, hread⟩

theorem answerOf_of_responds {id : Int} {line : Bytes} {r : Response} (h : Responds id line r) :
    answerOf id line = match r.failure with
      | some f => .error (.status f)
      | none => .ok (r.result.getD .null) := by
  obtain ⟨text, htext, hparse, hid⟩ := h
  unfold answerOf
  rw [htext]
  dsimp only
  rw [hparse]
  dsimp only
  rw [hid, if_neg (by simp), Response.outcome]
  cases r.failure <;> rfl

theorem answerOf_of_not_responds {id : Int} {line : Bytes} {text : String}
    (htext : text? line = some text) (h : ∀ r, ¬Responds id line r) :
    ∃ reason, answerOf id line = .error (.malformed reason) := by
  unfold answerOf
  rw [htext]
  dsimp only
  cases hparse : Response.parse text with
  | error e => exact ⟨_, rfl⟩
  | ok r =>
      have hid : r.id ≠ some (.number id) := fun hid =>
        h r ((responds_iff_parse htext).2 ⟨hparse, hid⟩)
      dsimp only
      rw [if_pos (by simpa using hid)]
      exact ⟨_, rfl⟩

/-- A response with the number of the request is the answer to it. -/
theorem Responds.judged {id : Int} {line : Bytes} {r : Response} (h : Responds id line r)
    (ask : Ask) : Judged id ask (some line) (ask.answer (answerOf id line)) := by
  rw [answerOf_of_responds h]
  cases hfailure : r.failure with
  | some f =>
      rw [Ask.answer_error]
      exact .status ask h hfailure
  | none =>
      cases ask with
      | run => exact .run h hfailure
      | info =>
          show Judged id .info (some line) (.info (Client.infoOf (r.result.getD .null)))
          cases hinfo : Client.infoOf (r.result.getD .null) with
          | ok info => exact .info h hfailure hinfo
          | error e =>
              obtain ⟨reason, rfl⟩ := infoOf_error hinfo
              refine .noInfo h hfailure (fun info hdescribes => ?_) reason
              rw [Describes, hinfo] at hdescribes
              cases hdescribes

/-- What a line means as the answer to a request is judged by the line. -/
theorem judged_answerOf (id : Int) (ask : Ask) (line : Bytes) :
    Judged id ask (some line) (ask.answer (answerOf id line)) := by
  cases htext : text? line with
  | none =>
      rw [answerOf, htext, Ask.answer_error]
      exact .noText ask htext
  | some text =>
      by_cases hresponds : ∃ r, Responds id line r
      · obtain ⟨r, hr⟩ := hresponds
        exact hr.judged ask
      · obtain ⟨reason, hreason⟩ := answerOf_of_not_responds htext (not_exists.1 hresponds)
        rw [hreason, Ask.answer_error]
        exact .noResponse ask htext (not_exists.1 hresponds) reason

/-! ## One call -/

/-- What arrives in a connection when a line is sent: all that the peer sends then, as long as it is
there and its side is open. -/
def Rpc.Connection.arriving (c : Connection) (line : Bytes) : Bytes :=
  if c.isGone || c.isClosed || (c.peer c.received line).ends then []
  else (c.peer c.received line).sent

/-- The line that the next call sends. -/
def Rpc.Client.nextLine (c : Client) (ask : Ask) : Bytes := requestLine c.nextId.toInt ask.method

/-- The bytes that the next call finds in the connection. -/
def Rpc.Client.found (c : Client) (ask : Ask) : Bytes :=
  c.connection.waiting ++ c.connection.arriving (c.nextLine ask)

theorem map_outcome_bind {α β γ : Type} (call : Call α) (f : α → Except RpcError β)
    (g : Except RpcError β → γ) :
    (call.bind f).outcome.map g = call.outcome.map fun result => g (result.bind f) := by
  obtain ⟨outcome, reaction, client⟩ := call
  cases outcome with
  | endless => rfl
  | finished result => cases result <;> rfl

theorem ask_eq (c : Client) (ask : Ask) :
    c.ask ask = ((c.call ask.method).outcome.map ask.answer, (c.call ask.method).client) := by
  cases ask with
  | info => exact Prod.ext (map_outcome_bind _ Client.infoOf Answer.info) rfl
  | run => exact Prod.ext (map_outcome_bind _ (fun _ => .ok ()) Answer.run) rfl

/-- The connection when the next line has been sent. -/
def Rpc.Client.sent (c : Client) (ask : Ask) : Connection :=
  let reaction := c.connection.peer c.connection.received (c.nextLine ask)
  { c.connection with
    received := c.connection.received ++ [c.nextLine ask]
    waiting := c.found ask
    isClosed := c.connection.isClosed || reaction.closes || reaction.ends
    isGone := reaction.ends }

theorem send_next {c : Client} (hthere : c.connection.isGone = false) (ask : Ask) :
    c.connection.send (requestLine c.nextId.toInt ask.method) =
      some (c.connection.peer c.connection.received (c.nextLine ask), c.sent ask) := by
  unfold Connection.send
  rw [if_neg (by simp [hthere]), Option.some_inj, Prod.mk.injEq]
  refine ⟨rfl, ?_⟩
  rw [Client.sent, Connection.mk.injEq]
  refine ⟨rfl, rfl, ?_, rfl, rfl⟩
  rw [Client.found, Connection.arriving]
  split <;> simp_all [Client.nextLine]

/-- A call is what is received behind the line that it sends. -/
theorem call_eq {c : Client} (hlimit : c.limit = none) (hthere : c.connection.isGone = false)
    (ask : Ask) :
    (c.call ask.method).outcome =
        (match (c.sent ask).receive.1 with
        | .line line => .finished (answerOf c.nextId.toInt line)
        | .ended => .finished (.error .disconnected)
        | .incomplete => .endless) ∧
      (c.call ask.method).client =
        { c with nextId := c.nextId + 1, connection := (c.sent ask).receive.2 } := by
  unfold Client.call
  simp only [send_next hthere, hlimit]
  cases (c.sent ask).receive with
  | mk received connection => cases received <;> exact ⟨rfl, rfl⟩

/-- What is received is the first line, if it has its newline or the stream is at its end, and that
line is gone then. -/
theorem receive_eq (c : Connection) :
    c.receive =
      (match (linesOf c.waiting).head? with
        | some line => if line.getLast? == some 10 || c.isClosed then .line line else .incomplete
        | none => if c.isClosed then .ended else .incomplete,
        { c with waiting := (linesOf c.waiting).tail.flatten }) := by
  unfold Connection.receive
  cases hlines : linesOf c.waiting with
  | nil =>
      have hwaiting : c.waiting = [] := by
        rw [← linesOf_flatten c.waiting, hlines]
        rfl
      rw [Prod.mk.injEq]
      refine ⟨rfl, ?_⟩
      rw [List.tail_nil, List.flatten_nil, ← hwaiting]
  | cons line rest =>
      dsimp only [List.head?_cons, List.tail_cons]
      split <;> rfl

/-- The next call finds a line with its newline, or the end of the stream. -/
def Rpc.Client.FindsEnd (c : Client) (ask : Ask) : Prop :=
  (c.sent ask).isClosed = true ∨
    ∃ line, (linesOf (c.found ask)).head? = some line ∧ line.getLast? = some 10

/-- What one call does.  It sends one line and takes one line, the first of those it finds.  It ends
when that line has its newline or the stream is at its end. -/
structure CallSpec (c : Client) (ask : Ask) (answer : Option Answer) (after : Client) : Prop where
  nextId : after.nextId = c.nextId + 1
  limit : after.limit = none
  received : after.connection.received = c.connection.received ++ [c.nextLine ask]
  waiting : after.connection.waiting = (linesOf (c.found ask)).tail.flatten
  closed : after.connection.isClosed = (c.sent ask).isClosed
  ends : answer ≠ none ↔ c.FindsEnd ask
  judged : ∀ a, answer = some a → Judged c.nextId.toInt ask (linesOf (c.found ask)).head? a

theorem call_spec {c : Client} (hlimit : c.limit = none) (hthere : c.connection.isGone = false)
    (ask : Ask) : CallSpec c ask (c.ask ask).1 (c.ask ask).2 := by
  obtain ⟨houtcome, hclient⟩ := call_eq hlimit hthere ask
  have hwaiting : (c.sent ask).waiting = c.found ask := rfl
  have hdisconnected : ask.answer (.error .disconnected) = ask.failed .disconnected := by
    cases ask <;> rfl
  rw [ask_eq, houtcome, hclient, receive_eq, hwaiting]
  refine ⟨rfl, hlimit, rfl, rfl, rfl, ?_, ?_⟩
  · unfold Client.FindsEnd
    cases (linesOf (c.found ask)).head? with
    | none => cases (c.sent ask).isClosed <;> simp [CallEnd.map]
    | some line =>
        by_cases hline : line.getLast? = some 10
        · simp [hline, CallEnd.map]
        · cases (c.sent ask).isClosed <;> simp [hline, CallEnd.map]
  · cases (linesOf (c.found ask)).head? with
    | none =>
        cases (c.sent ask).isClosed with
        | false => rintro a ⟨⟩
        | true =>
            rintro a ⟨⟩
            rw [hdisconnected]
            exact .disconnected ask
    | some line =>
        dsimp only
        split
        · rename_i hreceived
          split at hreceived
          · cases hreceived
            rintro a ⟨⟩
            exact judged_answerOf _ ask line
          · cases hreceived
        · rename_i hreceived
          split at hreceived <;> cases hreceived
        · rintro a ⟨⟩

/-! ## Many calls -/

/-- What arrives in the connection during the calls. -/
def Rpc.Client.arriving (c : Client) : List Ask → Bytes
  | [] => []
  | ask :: asks => c.connection.arriving (c.nextLine ask) ++ (c.ask ask).2.arriving asks

/-- The stream that the calls read: what waits in the connection, and what arrives during them. -/
def Rpc.Client.stream (c : Client) (asks : List Ask) : Bytes :=
  c.connection.waiting ++ c.arriving asks

/-- The request of every call can be sent, and every call ends. -/
def Rpc.Client.Completes (c : Client) : List Ask → Prop
  | [] => True
  | ask :: asks =>
      c.connection.isGone = false ∧ (c.ask ask).1 ≠ none ∧ (c.ask ask).2.Completes asks

theorem ask_gone {c : Client} (hgone : c.connection.isGone = true) (ask : Ask) :
    (c.ask ask).2 = { c with nextId := c.nextId + 1 } := by
  have hsend : ∀ line, c.connection.send line = none := fun line => by
    rw [Connection.send, if_pos hgone]
  rw [ask_eq]
  unfold Client.call
  simp only [hsend]

/-- Nothing arrives behind the end of a stream. -/
theorem arriving_of_closed {c : Client} (hlimit : c.limit = none)
    (hclosed : c.connection.isClosed = true) (asks : List Ask) : c.arriving asks = [] := by
  induction asks generalizing c with
  | nil => rfl
  | cons ask asks ih =>
      have hafter : (c.ask ask).2.limit = none ∧ (c.ask ask).2.connection.isClosed = true := by
        cases hgone : c.connection.isGone with
        | true =>
            rw [ask_gone hgone]
            exact ⟨hlimit, hclosed⟩
        | false =>
            have hspec := call_spec hlimit hgone ask
            refine ⟨hspec.limit, hspec.closed.trans ?_⟩
            simp [Client.sent, hclosed]
      rw [Client.arriving, ih hafter.1 hafter.2, List.append_nil, Connection.arriving,
        if_pos (by simp [hclosed])]

/-- A call that ends takes the first line out of the stream, and leaves the rest to the calls behind
it. -/
theorem ask_takes_line {c : Client} (hlimit : c.limit = none)
    (hthere : c.connection.isGone = false) {ask : Ask} (hends : (c.ask ask).1 ≠ none)
    (asks : List Ask) :
    (linesOf (c.stream (ask :: asks))).head? = (linesOf (c.found ask)).head? ∧
      (c.ask ask).2.stream asks = (linesOf (c.stream (ask :: asks))).tail.flatten := by
  have hspec := call_spec hlimit hthere ask
  have hstream : c.stream (ask :: asks) = c.found ask ++ (c.ask ask).2.arriving asks := by
    rw [Client.stream, Client.arriving, ← List.append_assoc]
    rfl
  rcases hspec.ends.1 hends with hclosed | ⟨line, hfirst, hline⟩
  · have hnone := arriving_of_closed hspec.limit (hspec.closed.trans hclosed) asks
    rw [hstream, Client.stream, hspec.waiting, hnone, List.append_nil, List.append_nil]
    exact ⟨rfl, rfl⟩
  · rw [hstream, Client.stream, hspec.waiting, linesOf_append_of_first hfirst hline]
    refine ⟨hfirst.symm, ?_⟩
    rw [List.tail_cons, linesOf_flatten]

/-- The requests that the calls send. -/
def Rpc.Client.requests (c : Client) (asks : List Ask) : List Bytes :=
  asks.mapIdx fun k ask => requestLine (c.nextId + Int64.ofNat k).toInt ask.method

/-- Calls that all end take one line each, whatever calls follow. -/
theorem askAll_takes_lines {c : Client} (hlimit : c.limit = none) {asks : List Ask}
    (h : c.Completes asks) (rest : List Ask) :
    (c.askAll asks).2.limit = none ∧
      (c.askAll asks).2.connection.received = c.connection.received ++ c.requests asks ∧
      (c.askAll asks).2.stream rest =
        ((linesOf (c.stream (asks ++ rest))).drop asks.length).flatten ∧
      ∀ k ask, asks[k]? = some ask →
        ∃ answer, (c.askAll asks).1[k]? = some (some answer) ∧
          Judged (c.nextId + Int64.ofNat k).toInt ask (linesOf (c.stream (asks ++ rest)))[k]?
            answer := by
  induction asks generalizing c with
  | nil =>
      refine ⟨hlimit, (List.append_nil _).symm, ?_, fun k ask hask => by simp at hask⟩
      rw [List.nil_append, List.length_nil, List.drop_zero, linesOf_flatten]
      rfl
  | cons ask asks ih =>
      obtain ⟨hthere, hends, hmore⟩ := h
      have hspec := call_spec hlimit hthere ask
      obtain ⟨hfirst, hleft⟩ := ask_takes_line hlimit hthere hends (asks ++ rest)
      obtain ⟨hlimit', hreceived, hstream, hanswers⟩ := ih hspec.limit hmore
      have hlines : linesOf ((c.ask ask).2.stream (asks ++ rest)) =
          (linesOf (c.stream (ask :: asks ++ rest))).tail := by
        rw [List.cons_append, hleft, linesOf_tail]
      have hnumber : ∀ k, (c.ask ask).2.nextId + Int64.ofNat k = c.nextId + Int64.ofNat (k + 1) := by
        intro k
        rw [hspec.nextId, Int64.ofNat_add, Int64.add_assoc, Int64.add_comm 1]
        rfl
      rw [hlines] at hstream hanswers
      rw [askAll_cons]
      refine ⟨hlimit', ?_, ?_, ?_⟩
      · rw [hreceived, hspec.received, List.append_assoc]
        simp only [Client.requests, List.mapIdx_cons, hnumber]
        rw [show Int64.ofNat 0 = 0 from rfl, Int64.add_zero]
        rfl
      · rw [hstream, List.drop_tail]
        rfl
      · intro k a hk
        cases k with
        | zero =>
            cases hk
            obtain ⟨answer, hanswer⟩ := Option.ne_none_iff_exists'.1 hends
            refine ⟨answer, congrArg some hanswer, ?_⟩
            rw [← List.head?_eq_getElem?, List.cons_append, hfirst]
            rw [show Int64.ofNat 0 = 0 from rfl, Int64.add_zero]
            exact hspec.judged answer hanswer
        | succ k =>
            obtain ⟨answer, hanswer, hjudged⟩ := hanswers k a hk
            refine ⟨answer, hanswer, ?_⟩
            rw [hnumber, List.getElem?_tail] at hjudged
            exact hjudged

/-! ## From the first call on -/

/-- The number of the request behind so many others. -/
def requestNumber (k : Nat) : Int := (1 + Int64.ofNat k).toInt

/-- Requests are numbered from one on, as far as the numbers go. -/
theorem requestNumber_of_lt {k : Nat} (h : k < maxInt64) : requestNumber k = k + 1 := by
  have hsum : 1 + Int64.ofNat k = Int64.ofNat (k + 1) := by
    rw [Int64.ofNat_add, Int64.add_comm]
    rfl
  rw [requestNumber, hsum, Int64.toInt_ofNat_of_lt (by simp only [maxInt64] at h; omega)]
  rfl

/-- The line is the request for a call, under its number, on a line of its own. -/
def IsRequest (id : Int) (ask : Ask) (line : Bytes) : Prop :=
  ∃ text, line = utf8 (text ++ "\n") ∧ '\n' ∉ text.toList ∧
    Request.parse text = .ok (Request.new (.number id) ask.method none)

theorem isRequest_requestLine (n : Int64) (ask : Ask) :
    IsRequest n.toInt ask (requestLine n.toInt ask.method) := by
  have hback := readsBack_numbered n ask.method
  refine ⟨_, rfl, ?_, parse_request_text hback⟩
  rw [Request.text, String.toList_ofList]
  exact newline_notMem_request hback

/-- A client that has made no call and waits without limit.  The peer may have sent something, or
closed its side, before the first call. -/
structure Rpc.Client.IsNew (c : Client) : Prop where
  nextId : c.nextId = 1
  limit : c.limit = none
  received : c.connection.received = []

theorem completes_take {c : Client} {asks : List Ask} (h : c.Completes asks) (k : Nat) :
    c.Completes (asks.take k) := by
  induction asks generalizing c k with
  | nil => simpa using h
  | cons ask asks ih =>
      cases k with
      | zero => trivial
      | succ k => exact ⟨h.1, h.2.1, ih h.2.2 k⟩

/-- Answers are not mixed up, whatever the peer sends.  The peer gets one request for each call,
numbered from one on.  A call is answered by the line at its own place in the stream, as `Judged`
says, and leaves what stands behind that line to the calls behind it.  The call after them ends as
soon as it finds a line with its newline, or the end of the stream. -/
theorem answers_in_order {c : Client} (hnew : c.IsNew) {asks : List Ask} (h : c.Completes asks)
    (rest : List Ask) :
    (∀ k < maxInt64, requestNumber k = k + 1) ∧
      (c.askAll asks).2.connection.received.length = asks.length ∧
      (∀ k ask, asks[k]? = some ask →
        (∃ line, (c.askAll asks).2.connection.received[k]? = some line ∧
          IsRequest (requestNumber k) ask line) ∧
        ∃ answer, (c.askAll asks).1[k]? = some (some answer) ∧
          Judged (requestNumber k) ask (linesOf (c.stream (asks ++ rest)))[k]? answer) ∧
      (∀ k ≤ asks.length, (c.askAll (asks.take k)).2.stream (asks.drop k ++ rest) =
        ((linesOf (c.stream (asks ++ rest))).drop k).flatten) ∧
      ∀ ask, (c.askAll asks).2.connection.isGone = false →
        (((c.askAll asks).2.ask ask).1 ≠ none ↔ (c.askAll asks).2.FindsEnd ask) := by
  obtain ⟨hlimit, hreceived, -, hanswers⟩ := askAll_takes_lines hnew.limit h rest
  rw [hnew.received, List.nil_append] at hreceived
  refine ⟨fun k => requestNumber_of_lt, ?_, fun k ask hask => ⟨?_, ?_⟩, fun k hk => ?_,
    fun ask hthere => (call_spec hlimit hthere ask).ends⟩
  · rw [hreceived, Client.requests, List.length_mapIdx]
  · refine ⟨requestLine (requestNumber k) ask.method, ?_, isRequest_requestLine _ ask⟩
    rw [hreceived, Client.requests, List.getElem?_mapIdx, hask, hnew.nextId]
    rfl
  · obtain ⟨answer, hanswer, hjudged⟩ := hanswers k ask hask
    rw [hnew.nextId] at hjudged
    exact ⟨answer, hanswer, hjudged⟩
  · obtain ⟨-, -, hstream, -⟩ :=
      askAll_takes_lines hnew.limit (completes_take h k) (asks.drop k ++ rest)
    rw [← List.append_assoc, List.take_append_drop, List.length_take, Nat.min_eq_left hk]
      at hstream
    exact hstream

/-- A success without a result. -/
def bareSuccess (id : Nat) : String := s!"\x7b\"jsonrpc\":\"2.0\",\"id\":{id}\x7d\n"

/-- A client of a peer that answers the second request before the first, and has closed its side by
the time of the third. -/
def hastyClient : Client where
  address := "plugin"
  connection := {
    peer := fun before _ =>
      match before.length with
      | 0 => { sent := utf8 (bareSuccess 2) ++ utf8 (bareSuccess 2) }
      | 1 => { closes := true }
      | _ => {} }

/-- The first call takes the early line, which does not answer it, and the second gets its own. -/
theorem answers_in_order_hasty :
    Responds 2 (utf8 (bareSuccess 2)) ⟨messageVersion, some (.number 2), none, none⟩ ∧
      ∃ first second third,
        (hastyClient.askAll [.run, .run, .info]).1[0]? = some (some first) ∧
        (hastyClient.askAll [.run, .run, .info]).1[1]? = some (some second) ∧
        (hastyClient.askAll [.run, .run, .info]).1[2]? = some (some third) ∧
        Judged 1 .run (some (utf8 (bareSuccess 2))) first ∧
        Judged 2 .run (some (utf8 (bareSuccess 2))) second ∧ Judged 3 .info none third := by
  have hnew : hastyClient.IsNew := ⟨rfl, rfl, rfl⟩
  have hends : hastyClient.Completes [.run, .run, .info] :=
    ⟨rfl, (call_spec rfl rfl _).ends.2 (.inr ⟨_, rfl, rfl⟩),
      rfl, (call_spec rfl rfl _).ends.2 (.inl rfl),
      rfl, (call_spec rfl rfl _).ends.2 (.inl rfl), trivial⟩
  have hlines : linesOf (hastyClient.stream ([.run, .run, .info] ++ [])) =
      [utf8 (bareSuccess 2), utf8 (bareSuccess 2)] := rfl
  obtain ⟨-, -, hcalls, -, -⟩ := answers_in_order hnew hends []
  rw [hlines] at hcalls
  obtain ⟨-, first, hfirst, hone⟩ := hcalls 0 .run rfl
  obtain ⟨-, second, hsecond, htwo⟩ := hcalls 1 .run rfl
  obtain ⟨-, third, hthird, hthree⟩ := hcalls 2 .info rfl
  exact ⟨⟨_, text?_utf8 _, rfl, rfl⟩, first, second, third, hfirst, hsecond, hthird, hone, htwo,
    hthree⟩

end PluginHost

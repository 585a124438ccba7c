import Mathlib.Data.List.TakeWhile
import PluginHost.Proofs.Rpc.Messages
import PluginHost.Serve

/-!
# The service of a plugin

What a plugin sends back for a stream of bytes (`serve_law`).  The lines of the stream count up to
the first that is no text (`textLines`), and those that are not blank are asked (`asked`); each of
them gets one line in answer, in order, and the calls of the plugin are those that the lines name.

There are three groups.

* One reply.  `readsBack_respondToLine` says that every reply is a message that is read back, so
  `isReply_respondToLine` finds the properties of its line.
* The calls.  `Program.recorded` is a program that writes down the calls it gets; `callOf` is the
  call that a line of input names.  `respondToLine_recorded` compares the two on one line.
* The loop.  `serveLines_append` cuts a service in two.  Each law of the loop is an induction over
  the lines, with the fact about one line in its step.
-/

namespace PluginHost

open Rpc Json

/-! ## What a service is asked and what it sends -/

/-- The lines up to the first that is no text. -/
def textLines : List Bytes → List String
  | [] => []
  | line :: lines =>
      match text? line with
      | none => []
      | some text => text :: textLines lines

/-- The lines that get an answer: those with more than white space. -/
def asked (input : Bytes) : List String :=
  (textLines (linesOf input)).filter fun line => Text.trim line != ""

/-- Everything that a service sends. -/
def Served.sent {σ : Type} (served : Served σ) : Bytes :=
  served.replies.flatMap fun r => utf8 (replyLine r)

/-- What a line sent in answer to a line is: the text of an object, in which it has either a result
or an error, and a response with the id of the request, or with none when the line is no request. -/
structure IsReply (line : String) (reply : Bytes) (text : String)
    (members : List (String × Value)) (response : Response) : Prop where
  bytes : reply = utf8 (text ++ "\n")
  oneLine : '\n' ∉ text.toList
  isObject : Json.parse text = .ok (.object members)
  oneOutcome : (member? "result" members).isSome = !(member? "error" members).isSome
  isResponse : Response.parse text = .ok response
  ofRequest : ∀ request, Request.parse line = .ok request →
    response.id = some request.id ∧ member? "id" members = some request.id.toValue
  ofNoRequest : ∀ e, Request.parse line = .error e →
    response.id = none ∧ member? "id" members = some .null ∧
      response.failure.map (·.code) = some (-32700)

/-- The second line is the answer to the first. -/
def Answers (line : String) (reply : Bytes) : Prop :=
  ∃ text members response, IsReply line reply text members response

/-! ## One reply -/

theorem isAllBlank_iff_trim (s : String) : Text.isAllBlank s.toList = true ↔ Text.trim s = "" := by
  have hstart : ∀ cs, Text.trimStart cs = [] ↔ Text.isAllBlank cs = true := by
    intro cs
    unfold Text.trimStart Text.isAllBlank
    rw [List.dropWhile_eq_nil_iff, List.all_eq_true]
  have hempty : Text.trim s = "" ↔ Text.trimChars s.toList = [] := by
    rw [Text.trim, ← String.toList_inj, String.toList_ofList, String.toList_empty]
  rw [hempty, Text.trimChars, Text.trimEnd, List.reverse_eq_nil_iff, hstart]
  constructor
  · intro h
    rw [(hstart _).2 h]
    rfl
  · intro h
    have hrest : ∀ c ∈ Text.trimStart s.toList, Text.isBlank c = true := by
      simpa [Text.isAllBlank] using h
    cases hcs : Text.trimStart s.toList with
    | nil => exact (hstart _).1 hcs
    | cons c cs =>
        have hhead : Text.isBlank c = false := by
          have := List.head?_dropWhile_not Text.isBlank s.toList
          rw [← Text.trimStart, hcs] at this
          simpa using this
        rw [hcs] at hrest
        rw [hrest c (by simp)] at hhead
        contradiction

/-- A description is an object of three texts, in the order of their keys. -/
theorem readsBack_toValue_info (info : PluginInfo) (levels : Nat) :
    Json.ReadsBack (levels + 1) info.toValue := by
  have hkeys : (["description", "name", "version"] : List String).Pairwise (· < ·) := by decide
  refine .object hkeys fun m hm => ?_
  simp only [List.mem_cons, List.not_mem_nil, or_false] at hm
  rcases hm with rfl | rfl | rfl <;> exact .string _

theorem readsBack_success {id : Option Id} {v : Value} (hid : ∀ i, id = some i → i.ReadsBack)
    (hv : Json.ReadsBack (maxNesting - 1) v) : (Response.success id v).ReadsBack := by
  refine ⟨hid, ?_, ?_⟩
  · rintro w ⟨⟩
    exact hv
  · rintro f ⟨⟩

theorem readsBack_refusal {id : Option Id} (hid : ∀ i, id = some i → i.ReadsBack) (code : Code)
    (message : String) :
    (Response.refusal id (.new code.number message)).ReadsBack := by
  have hcode : -2147483648 ≤ code.number ∧ code.number ≤ 2147483647 := by cases code <;> decide
  refine ⟨hid, ?_, ?_⟩
  · rintro v ⟨⟩
  · rintro f ⟨⟩
    refine ⟨hcode.1, hcode.2, ?_⟩
    rintro d ⟨⟩

/-- What the members of a response hold: the id always, a result or an error where it has one. -/
theorem member?_members (r : Response) :
    member? "id" (membersOf (r.members.map fun m => (m.1, m.2.2))) = some (idValue r.id) ∧
      (member? "result" (membersOf (r.members.map fun m => (m.1, m.2.2)))).isSome =
        r.result.isSome ∧
      (member? "error" (membersOf (r.members.map fun m => (m.1, m.2.2)))).isSome =
        r.failure.isSome := by
  unfold Response.members membersOf
  cases r.result <;> cases r.failure <;> refine ⟨?_, ?_, ?_⟩ <;>
    simp [member?_insertMember_self, member?_insertMember_of_ne, member?]

/-- A response that is read back is a reply to every line whose request it answers. -/
theorem isReply_replyLine {line : String} {r : Response} (h : r.ReadsBack)
    (hone : r.result.isSome = !r.failure.isSome)
    (hrequest : ∀ request, Request.parse line = .ok request → r.id = some request.id)
    (hnone : ∀ e, Request.parse line = .error e →
      r.id = none ∧ r.failure.map (·.code) = some (-32700)) :
    IsReply line (utf8 (replyLine r)) r.text (membersOf (r.members.map fun m => (m.1, m.2.2)))
      r.plain where
  bytes := rfl
  oneLine := by
    rw [Response.text, String.toList_ofList]
    exact newline_notMem_response h
  isObject := parse_response_object h
  oneOutcome := by
    obtain ⟨-, hresult, herror⟩ := member?_members r
    rw [hresult, herror, hone]
  isResponse := parse_response_text h
  ofRequest request hparse := by
    have hid := hrequest request hparse
    refine ⟨hid, ?_⟩
    rw [(member?_members r).1, hid]
    rfl
  ofNoRequest e hparse := by
    obtain ⟨hid, hcode⟩ := hnone e hparse
    refine ⟨hid, ?_, ?_⟩
    · rw [(member?_members r).1, hid]
      rfl
    · rw [Response.plain, Option.map_map]
      exact hcode

variable {σ : Type} (program : Program σ) (args : List String)

/-- The answers to a request carry its id, and are a result or a refusal. -/
theorem respond_cases (state : σ) (request : Request) :
    (∃ v, (respond program args state request).1 = .success (some request.id) v ∧
        Json.ReadsBack (maxNesting - 1) v) ∨
      ∃ code message, (respond program args state request).1 =
        .refusal (some request.id) (.new (Code.number code) message) := by
  unfold respond
  split
  · exact .inr ⟨.invalidRequest, _, rfl⟩
  · split
    · exact .inl ⟨_, rfl, readsBack_toValue_info _ _⟩
    · split
      · split
        · exact .inl ⟨_, rfl, .null⟩
        · exact .inr ⟨.pluginFailure, _, rfl⟩
      · exact .inr ⟨.methodNotFound, _, rfl⟩

theorem readsBack_respond (state : σ) {request : Request} (h : request.id.ReadsBack) :
    (respond program args state request).1.ReadsBack := by
  have hid : ∀ i, some request.id = some i → i.ReadsBack := by
    rintro i ⟨⟩
    exact h
  rcases respond_cases program args state request with ⟨v, hr, hv⟩ | ⟨code, message, hr⟩
  · rw [hr]
    exact readsBack_success hid hv
  · rw [hr]
    exact readsBack_refusal hid code message

/-- Every line that is asked gets a reply. -/
theorem answers_respondToLine (state : σ) (line : String) :
    Answers line (utf8 (replyLine (respondToLine program args state line).1)) := by
  cases hparse : Request.parse line with
  | error e =>
      have hreply : (respondToLine program args state line).1 =
          .refusal none (.new Code.parseError.number ("Parse error: " ++ e.message)) := by
        rw [respondToLine, hparse]
      have hback : (respondToLine program args state line).1.ReadsBack := by
        rw [hreply]
        exact readsBack_refusal (by rintro i ⟨⟩) _ _
      refine ⟨_, _, _, isReply_replyLine hback ?_ ?_ ?_⟩
      · rw [hreply]
        rfl
      · intro request hrequest
        rw [hparse] at hrequest
        contradiction
      · intro e' _
        rw [hreply]
        exact ⟨rfl, rfl⟩
  | ok request =>
      have hreply : respondToLine program args state line = respond program args state request := by
        rw [respondToLine, hparse]
      have hback : (respondToLine program args state line).1.ReadsBack := by
        rw [hreply]
        exact readsBack_respond program args state (isRead_of_parse_request hparse).1
      refine ⟨_, _, _, isReply_replyLine hback ?_ ?_ ?_⟩
      · rw [hreply]
        rcases respond_cases program args state request with ⟨v, hr, -⟩ | ⟨code, message, hr⟩ <;>
          rw [hr] <;> rfl
      · intro other hother
        rw [hparse] at hother
        cases hother
        rw [hreply]
        rcases respond_cases program args state request with ⟨v, hr, -⟩ | ⟨code, message, hr⟩ <;>
          rw [hr] <;> rfl
      · intro e he
        rw [hparse] at he
        contradiction

/-! ## The calls -/

/-- A call that a program gets. -/
inductive PluginCall where
  | info
  | run (args : List String)
  deriving DecidableEq, Repr

/-- The program, with the calls that it gets written down behind its state. -/
def Program.recorded {σ : Type} (program : Program σ) : Program (σ × List PluginCall) where
  info s := program.info s.1
  run s args := ((program.run s.1 args).1, (program.run s.1 args).2, s.2 ++ [.run args])
  afterInfo s := (program.afterInfo s.1, s.2 ++ [.info])

/-- The call that a line asks for. -/
def callOf (args : List String) (line : String) : Option PluginCall :=
  match Request.parse line with
  | .error _ => none
  | .ok request =>
      if request.version = "2.0" then
        if request.method = "Plugin.GetInfo" then some .info
        else if request.method = "Plugin.Run" then some (.run args)
        else none
      else none

/-- On one line, a recorded program answers as the program does, and writes down the call. -/
theorem respondToLine_recorded (state : σ) (log : List PluginCall) (line : String) :
    respondToLine program.recorded args (state, log) line =
      ((respondToLine program args state line).1, (respondToLine program args state line).2,
        log ++ (callOf args line).toList) := by
  unfold respondToLine callOf
  cases Request.parse line with
  | error e => simp
  | ok request =>
      simp only [respond, messageVersion, describeMethod, runMethod, bne_iff_ne, beq_iff_eq]
      by_cases hversion : request.version = "2.0"
      · rw [if_neg (not_not.2 hversion), if_neg (not_not.2 hversion), if_pos hversion]
        by_cases hinfo : request.method = "Plugin.GetInfo"
        · simp [hinfo, Program.recorded]
        · by_cases hrun : request.method = "Plugin.Run"
          · simp only [if_neg hinfo, if_pos hrun, Program.recorded]
            cases program.run state args with
            | mk result next => cases result <;> rfl
          · simp [hinfo, hrun]
      · rw [if_pos hversion, if_pos hversion, if_neg hversion]
        simp

/-- A line of white space is no request. -/
theorem parse_request_ne_ok {line : String} (h : Text.trim line = "") (request : Request) :
    Request.parse line ≠ .ok request := by
  have hblank : ∀ c ∈ skipSpace line.toList, Text.isBlank c = true := by
    have hall : ∀ c ∈ line.toList, Text.isBlank c = true := by
      simpa [Text.isAllBlank] using (isAllBlank_iff_trim line).2 h
    exact fun c hc => hall c (List.dropWhile_subset isSpace hc)
  have hread : ∀ p, requestRecord.read maxNesting ⟨none, none, none, none⟩ line.toList ≠ .ok p := by
    intro p hp
    unfold Record.read at hp
    split at hp
    · contradiction
    · rename_i heq
      rw [heq] at hblank
      exact absurd (hblank '[' (by simp)) (by decide)
    · rename_i heq
      rw [heq] at hblank
      exact absurd (hblank '\x7b' (by simp)) (by decide)
    · exact refuse_ne_ok _ _ _ hp
  intro hparse
  simp only [Request.parse, bind, Except.bind] at hparse
  split at hparse
  · contradiction
  · rename_i p hp
    exact hread p hp

theorem callOf_blank {line : String} (h : Text.trim line = "") : callOf args line = none := by
  unfold callOf
  split
  · rfl
  · rename_i request hparse
    exact absurd hparse (parse_request_ne_ok h request)

/-! ## The loop -/

theorem serveLines_invalid (state : σ) {line : Bytes} (h : text? line = none)
    (lines : List Bytes) :
    serveLines program args state (line :: lines) = ⟨[], .invalidText, state⟩ := by
  rw [serveLines, h]

theorem serveLines_blank (state : σ) {line : Bytes} {text : String} (h : text? line = some text)
    (hblank : Text.trim text = "") (lines : List Bytes) :
    serveLines program args state (line :: lines) = serveLines program args state lines := by
  have hall := (isAllBlank_iff_trim text).2 hblank
  simp only [serveLines, h, hall, if_true]

theorem serveLines_asked (state : σ) {line : Bytes} {text : String} (h : text? line = some text)
    (hasked : Text.trim text ≠ "") (lines : List Bytes) :
    serveLines program args state (line :: lines) =
      { serveLines program args (respondToLine program args state text).2 lines with
        replies := (respondToLine program args state text).1 ::
          (serveLines program args (respondToLine program args state text).2 lines).replies } := by
  have hall : Text.isAllBlank text.toList = false := by
    rw [Bool.eq_false_iff]
    exact fun hall => hasked ((isAllBlank_iff_trim text).1 hall)
  simp only [serveLines, h, hall, Bool.false_eq_true, if_false]

/-- A service of two streams of lines goes on where it stands after the first. -/
theorem serveLines_append {state : σ} {before : List Bytes}
    (h : (serveLines program args state before).outcome = .endOfInput) (lines : List Bytes) :
    serveLines program args state (before ++ lines) =
      { serveLines program args (serveLines program args state before).state lines with
        replies := (serveLines program args state before).replies ++
          (serveLines program args (serveLines program args state before).state lines).replies } := by
  induction before generalizing state with
  | nil => rfl
  | cons line before ih =>
      rw [List.cons_append]
      cases htext : text? line with
      | none =>
          rw [serveLines_invalid program args state htext] at h
          contradiction
      | some text =>
          by_cases hblank : Text.trim text = ""
          · rw [serveLines_blank program args state htext hblank] at h ⊢
            rw [serveLines_blank program args state htext hblank, ih h]
          · rw [serveLines_asked program args state htext hblank] at h ⊢
            rw [serveLines_asked program args state htext hblank, ih h]
            rfl

theorem serveLines_answers (state : σ) (lines : List Bytes) :
    List.Forall₂ Answers ((textLines lines).filter fun line => Text.trim line != "")
      ((serveLines program args state lines).replies.map fun r => utf8 (replyLine r)) := by
  induction lines generalizing state with
  | nil => exact .nil
  | cons line lines ih =>
      cases htext : text? line with
      | none =>
          rw [serveLines_invalid program args state htext, textLines, htext]
          exact .nil
      | some text =>
          have hlines : textLines (line :: lines) = text :: textLines lines := by
            rw [textLines, htext]
          rw [hlines]
          by_cases hblank : Text.trim text = ""
          · rw [serveLines_blank program args state htext hblank,
              List.filter_cons_of_neg (by simp [hblank])]
            exact ih state
          · rw [serveLines_asked program args state htext hblank,
              List.filter_cons_of_pos (by simp [hblank])]
            exact .cons (answers_respondToLine program args state text) (ih _)

theorem serveLines_outcome (state : σ) (lines : List Bytes) :
    (serveLines program args state lines).outcome = .invalidText ↔
      ∃ line ∈ lines, text? line = none := by
  induction lines generalizing state with
  | nil => simp [serveLines]
  | cons line lines ih =>
      cases htext : text? line with
      | none =>
          rw [serveLines_invalid program args state htext]
          exact ⟨fun _ => ⟨line, by simp, htext⟩, fun _ => rfl⟩
      | some text =>
          have hline : (∃ l ∈ line :: lines, text? l = none) ↔ ∃ l ∈ lines, text? l = none := by
            simp [htext]
          rw [hline]
          by_cases hblank : Text.trim text = ""
          · rw [serveLines_blank program args state htext hblank]
            exact ih state
          · rw [serveLines_asked program args state htext hblank]
            exact ih _

/-- A recorded program serves as the program does, and writes down the calls of the lines. -/
theorem serveLines_recorded (state : σ) (log : List PluginCall) (lines : List Bytes) :
    serveLines program.recorded args (state, log) lines =
      ⟨(serveLines program args state lines).replies, (serveLines program args state lines).outcome,
        (serveLines program args state lines).state,
        log ++ (textLines lines).filterMap (callOf args)⟩ := by
  induction lines generalizing state log with
  | nil => simp [serveLines, textLines]
  | cons line lines ih =>
      cases htext : text? line with
      | none =>
          rw [serveLines_invalid _ args _ htext, serveLines_invalid _ args _ htext, textLines, htext]
          simp
      | some text =>
          have hlines : textLines (line :: lines) = text :: textLines lines := by
            rw [textLines, htext]
          rw [hlines]
          by_cases hblank : Text.trim text = ""
          · rw [serveLines_blank _ args _ htext hblank, serveLines_blank _ args _ htext hblank, ih,
              List.filterMap_cons_none (callOf_blank args hblank)]
          · rw [serveLines_asked _ args _ htext hblank, serveLines_asked _ args _ htext hblank,
              respondToLine_recorded, ih, List.append_assoc]
            cases hcall : callOf args text with
            | none => rw [List.filterMap_cons_none hcall]; rfl
            | some call => rw [List.filterMap_cons_some hcall]; rfl

/-- Answers that follow one another in a stream are its lines. -/
theorem linesOf_flatten_answers {lines : List String} {replies : List Bytes}
    (h : List.Forall₂ Answers lines replies) : linesOf replies.flatten = replies := by
  induction h with
  | nil => rfl
  | cons hanswers _ ih =>
      obtain ⟨text, members, response, hreply⟩ := hanswers
      rw [List.flatten_cons, hreply.bytes, linesOf_utf8_append hreply.oneLine, ih]

/-- The law of the service.  The lines that are asked are answered one by one, the service is broken
off exactly at a line that is no text, and the calls of the program are those that the lines ask
for. -/
theorem serve_law (state : σ) (input : Bytes) :
    List.Forall₂ Answers (asked input) (linesOf (serve program args state input).sent) ∧
      ((serve program args state input).outcome = .invalidText ↔
        ∃ line ∈ linesOf input, text? line = none) ∧
      serve program.recorded args (state, []) input =
        ⟨(serve program args state input).replies, (serve program args state input).outcome,
          (serve program args state input).state,
          (textLines (linesOf input)).filterMap (callOf args)⟩ := by
  refine ⟨?_, ?_, ?_⟩
  · have hanswers := serveLines_answers program args state (linesOf input)
    have hsent := linesOf_flatten_answers hanswers
    rw [← List.flatMap_def] at hsent
    unfold Served.sent serve
    rw [hsent]
    exact hanswers
  · exact serveLines_outcome program args state (linesOf input)
  · exact serveLines_recorded program args state [] (linesOf input)

end PluginHost

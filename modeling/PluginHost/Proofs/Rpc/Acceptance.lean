import PluginHost.Proofs.Rpc.Answers

/-!
# What counts as success

A call succeeds when its line is a response with its number and without a failure, whatever the
version and whether or not there is a result.  `success_iff` sets this (`IsAccepted`) beside what
the message format asks of a success (`IsSuccess`).

Both are about the members of a response, as they have been read of a line (`Gives`);
`parse_response_iff` makes that the first half of reading a response.  `Judged.isOk_iff` says which
of the ways to judge a line are successes.
-/

namespace PluginHost

open Rpc Json Text

/-! ## The members of a response -/

/-- The line is a response with these members, written as an object or as a list. -/
def Gives (line : Bytes) (d : ResponseDraft) : Prop :=
  ∃ text rest, text? line = some text ∧
    responseRecord.read maxNesting ⟨none, none, none, none⟩ text.toList = .ok (d, rest) ∧
    skipSpace rest = []

/-- The line holds an object. -/
def IsObject (line : Bytes) : Prop :=
  ∃ text more, text? line = some text ∧ skipSpace text.toList = '\x7b' :: more

/-- The response is of the current version. -/
def NamesVersion (line : Bytes) : Prop := ∃ d, Gives line d ∧ d.version = some messageVersion

/-- The response has a result, which may be null. -/
def HasResult (line : Bytes) : Prop := ∃ d, Gives line d ∧ d.result ≠ none

/-- What the message format asks of the line that tells of a success: an object of the current
version, with the id of the request, a result, and no failure. -/
def IsSuccess (id : Int) (line : Bytes) : Prop :=
  IsObject line ∧ ∃ d, Gives line d ∧ d.version = some messageVersion ∧
    d.id = some (some (.number id)) ∧ d.result ≠ none ∧ d.failure.getD none = none

/-- What a client asks of it: any version, the id of the request, and no failure. -/
structure IsAccepted (id : Int) (d : ResponseDraft) : Prop where
  version : d.version ≠ none
  id : d.id = some (some (.number id))
  noFailure : d.failure.getD none = none

theorem Gives.unique {line : Bytes} {d d' : ResponseDraft} (h : Gives line d) (h' : Gives line d') :
    d = d' := by
  obtain ⟨text, rest, htext, hread, -⟩ := h
  obtain ⟨text', rest', htext', hread', -⟩ := h'
  obtain rfl := Option.some.inj (htext.symm.trans htext')
  exact congrArg Prod.fst (Except.ok.inj (hread.symm.trans hread'))

/-- An accepted line is a success of the format as soon as it is an object, names the version and
has a result. -/
theorem isSuccess_iff_of_isAccepted {id : Int} {line : Bytes} {d : ResponseDraft}
    (hgives : Gives line d) (h : IsAccepted id d) :
    IsSuccess id line ↔ IsObject line ∧ NamesVersion line ∧ HasResult line := by
  constructor
  · rintro ⟨hobject, d', hgives', hversion, -, hresult, -⟩
    exact ⟨hobject, ⟨d', hgives', hversion⟩, d', hgives', hresult⟩
  · rintro ⟨hobject, ⟨d₁, hgives₁, hversion⟩, d₂, hgives₂, hresult⟩
    rw [hgives₁.unique hgives] at hversion
    rw [hgives₂.unique hgives] at hresult
    exact ⟨hobject, d, hgives, hversion, h.id, hresult, h.noFailure⟩

theorem isAccepted_of_isSuccess {id : Int} {line : Bytes} (h : IsSuccess id line) :
    ∃ d, Gives line d ∧ IsAccepted id d := by
  obtain ⟨-, d, hgives, hversion, hid, -, hfailure⟩ := h
  exact ⟨d, hgives, by rw [hversion]; exact Option.some_ne_none _, hid, hfailure⟩

/-- A response is made of the members that have been read. -/
theorem parse_response_iff {text : String} {r : Response} :
    Response.parse text = .ok r ↔
      ∃ d rest, responseRecord.read maxNesting ⟨none, none, none, none⟩ text.toList =
          .ok (d, rest) ∧ skipSpace rest = [] ∧ d.version = some r.version ∧
        r = ⟨r.version, d.id.getD none, d.result.getD none, d.failure.getD none⟩ := by
  simp only [Response.parse, bind, Except.bind]
  cases hread : responseRecord.read maxNesting ⟨none, none, none, none⟩ text.toList with
  | error e => simp
  | ok p =>
      obtain ⟨d, rest⟩ := p
      obtain ⟨version, id, result, failure⟩ := d
      cases version with
      | none => simp [required]
      | some version =>
          simp only [required, endOfText]
          constructor
          · intro h
            split at h
            · rename_i hrest
              cases h
              exact ⟨_, _, rfl, hrest, rfl, rfl⟩
            · cases h
          · rintro ⟨d, rest', heq, hrest, hversion, hr⟩
            cases heq
            cases hversion
            rw [hrest, hr]

/-- The responses to a request that report no failure are the lines that a client accepts. -/
theorem responds_iff {id : Int} {line : Bytes} {result : Option Value} :
    (∃ r, Responds id line r ∧ r.failure = none ∧ r.result = result) ↔
      ∃ d, Gives line d ∧ IsAccepted id d ∧ d.result.getD none = result := by
  constructor
  · rintro ⟨r, ⟨text, htext, hparse, hid⟩, hfailure, hresult⟩
    obtain ⟨d, rest, hread, hrest, hversion, hr⟩ := parse_response_iff.1 hparse
    rw [hr] at hid hfailure hresult
    refine ⟨d, ⟨text, rest, htext, hread, hrest⟩, ⟨?_, ?_, hfailure⟩, hresult⟩
    · rw [hversion]
      exact Option.some_ne_none _
    · exact eq_some_some_of_getD hid
  · rintro ⟨d, ⟨text, rest, htext, hread, hrest⟩, ⟨hversion, hid, hfailure⟩, hresult⟩
    obtain ⟨version, hversion⟩ := Option.ne_none_iff_exists'.1 hversion
    refine ⟨⟨version, d.id.getD none, d.result.getD none, d.failure.getD none⟩,
      ⟨text, htext, parse_response_iff.2 ⟨d, rest, hread, hrest, hversion, rfl⟩, ?_⟩, hfailure,
      hresult⟩
    rw [hid]
    rfl

/-! ## Calls -/

/-- The call reads this line. -/
def Rpc.Client.Reads (c : Client) (ask : Ask) (line : Bytes) : Prop :=
  c.connection.isGone = false ∧ (c.sent ask).receive.1 = .line line

/-- The call succeeds. -/
def Answer.IsOk : Answer → Prop
  | .info result => ∃ info, result = .ok info
  | .run result => result = .ok ()

theorem not_isOk_failed (ask : Ask) (e : RpcError) : ¬(ask.failed e).IsOk := by
  cases ask with
  | info =>
      rintro ⟨info, h⟩
      cases h
  | run =>
      intro h
      cases h

theorem Responds.unique {id : Int} {line : Bytes} {r r' : Response} (h : Responds id line r)
    (h' : Responds id line r') : r = r' := by
  obtain ⟨text, htext, hparse, -⟩ := h
  exact Except.ok.inj (hparse.symm.trans ((responds_iff_parse htext).1 h').1)

/-- A call is successful when its line is a response without a failure; one that asks for a
description has to get it. -/
theorem Judged.isOk_iff {id : Int} {ask : Ask} {line : Bytes} {a : Answer}
    (h : Judged id ask (some line) a) :
    a.IsOk ↔ ∃ r, Responds id line r ∧ r.failure = none ∧
      (ask = .info → ∃ info, Describes r info) := by
  cases h with
  | noText ask htext =>
      refine ⟨fun hok => absurd hok (not_isOk_failed _ _), ?_⟩
      rintro ⟨r, ⟨text, htext', -⟩, -⟩
      rw [htext] at htext'
      cases htext'
  | noResponse ask htext hnone reason =>
      refine ⟨fun hok => absurd hok (not_isOk_failed _ _), ?_⟩
      rintro ⟨r, hresponds, -⟩
      exact absurd hresponds (hnone r)
  | status ask hresponds hfailure =>
      refine ⟨fun hok => absurd hok (not_isOk_failed _ _), ?_⟩
      rintro ⟨r, hresponds', hnone, -⟩
      rw [hresponds.unique hresponds', hnone] at hfailure
      cases hfailure
  | run hresponds hfailure =>
      exact ⟨fun _ => ⟨_, hresponds, hfailure, nofun⟩, fun _ => rfl⟩
  | info hresponds hfailure hdescribes =>
      exact ⟨fun _ => ⟨_, hresponds, hfailure, fun _ => ⟨_, hdescribes⟩⟩, fun _ => ⟨_, rfl⟩⟩
  | noInfo hresponds hfailure hnone reason =>
      refine ⟨fun hok => absurd hok (not_isOk_failed .info _), ?_⟩
      rintro ⟨r, hresponds', -, hdescribed⟩
      obtain ⟨info, hdescribes⟩ := hdescribed rfl
      rw [← hresponds.unique hresponds'] at hdescribes
      exact absurd hdescribes (hnone info)

/-- Null is no description. -/
theorem result_of_describes {r : Response} {info : PluginInfo} (h : Describes r info) :
    r.result ≠ none := by
  intro hnone
  rw [Describes, hnone] at h
  cases h

theorem ask_of_reads {c : Client} {ask : Ask} {line : Bytes} (h : c.Reads ask line) :
    (c.ask ask).1 = some (ask.answer (answerOf c.nextId.toInt line)) := by
  obtain ⟨hthere, hline⟩ := h
  rw [ask_eq, call_of_exchange (send_next hthere ask) (Prod.ext hline rfl)]
  rfl

/-- The result describes the plugin; a description is not null. -/
def DescribesPlugin (d : ResponseDraft) : Prop :=
  d.result ≠ none ∧ ∃ info, Client.infoOf ((d.result.getD none).getD .null) = .ok info

/-- A call succeeds when the client accepts its line and, where it asks for one, gets a
description. -/
theorem isOk_iff_isAccepted {id : Int} {ask : Ask} {line : Bytes} :
    (ask.answer (answerOf id line)).IsOk ↔
      ∃ d, Gives line d ∧ IsAccepted id d ∧ (ask = .info → DescribesPlugin d) := by
  rw [(judged_answerOf id ask line).isOk_iff]
  constructor
  · rintro ⟨r, hresponds, hfailure, hdescribed⟩
    obtain ⟨d, hgives, haccepted, hresult⟩ := responds_iff.1 ⟨r, hresponds, hfailure, rfl⟩
    refine ⟨d, hgives, haccepted, fun hinfo => ?_⟩
    obtain ⟨info, hdescribes⟩ := hdescribed hinfo
    refine ⟨fun hnone => result_of_describes hdescribes ?_, info, ?_⟩
    · rw [← hresult, hnone]
      rfl
    · rw [hresult]
      exact hdescribes
  · rintro ⟨d, hgives, haccepted, hdescribed⟩
    obtain ⟨r, hresponds, hfailure, hresult⟩ := responds_iff.2 ⟨d, hgives, haccepted, rfl⟩
    refine ⟨r, hresponds, hfailure, fun hinfo => ?_⟩
    obtain ⟨-, info, hdescribes⟩ := hdescribed hinfo
    rw [← hresult] at hdescribes
    exact ⟨info, hdescribes⟩

/-- What counts as success, whatever line a call reads.  The line has to be a response of some
version with the number of the request and without a failure, and one that is asked for a
description has to describe the plugin.  Every success of the message format counts for a run.  What
counts is a success of the format when it is an object of the current version with a result; what
describes a plugin has a result. -/
theorem success_iff {c : Client} {ask : Ask} {line : Bytes} (h : c.Reads ask line) :
    ∃ answer, (c.ask ask).1 = some answer ∧
      (answer.IsOk ↔ ∃ d, Gives line d ∧ IsAccepted c.nextId.toInt d ∧
        (ask = .info → DescribesPlugin d)) ∧
      (ask = .run → IsSuccess c.nextId.toInt line → answer.IsOk) ∧
      (answer.IsOk →
        (IsSuccess c.nextId.toInt line ↔
          IsObject line ∧ NamesVersion line ∧ HasResult line) ∧
        (ask = .info → HasResult line)) := by
  refine ⟨_, ask_of_reads h, isOk_iff_isAccepted, fun hrun hsuccess => ?_, fun hok => ?_⟩
  · obtain ⟨d, hgives, haccepted⟩ := isAccepted_of_isSuccess hsuccess
    refine isOk_iff_isAccepted.2 ⟨d, hgives, haccepted, fun hinfo => ?_⟩
    rw [hrun] at hinfo
    cases hinfo
  · obtain ⟨d, hgives, haccepted, hdescribed⟩ := isOk_iff_isAccepted.1 hok
    exact ⟨isSuccess_iff_of_isAccepted hgives haccepted,
      fun hinfo => ⟨d, hgives, (hdescribed hinfo).1⟩⟩

/-- A success of another version. -/
def otherVersion : String := "\x7b\"jsonrpc\":\"1.0\",\"id\":1,\"result\":null\x7d\n"

/-- A client that is answered so. -/
def outdatedClient : Client where
  address := "plugin"
  connection := { peer := fun _ _ => { sent := utf8 otherVersion } }

/-- A run counts as done though the answer is no message of the current version. -/
theorem success_iff_otherVersion :
    (∃ answer, (outdatedClient.ask .run).1 = some answer ∧ answer.IsOk) ∧
      IsObject (utf8 otherVersion) ∧ HasResult (utf8 otherVersion) ∧
      ¬IsSuccess 1 (utf8 otherVersion) := by
  have hreads : outdatedClient.Reads .run (utf8 otherVersion) := ⟨rfl, rfl⟩
  have hgives : Gives (utf8 otherVersion) ⟨some "1.0", some (some (.number 1)), some none, none⟩ :=
    ⟨_, _, text?_utf8 _, rfl, rfl⟩
  have haccepted :
      IsAccepted 1 ⟨some "1.0", some (some (.number 1)), some none, none⟩ := ⟨nofun, rfl, rfl⟩
  obtain ⟨answer, hanswer, hok, -, hformat⟩ := success_iff hreads
  have hsucceeds : answer.IsOk := hok.2 ⟨_, hgives, haccepted, nofun⟩
  refine ⟨⟨answer, hanswer, hsucceeds⟩, ⟨_, _, text?_utf8 _, rfl⟩, ⟨_, hgives, nofun⟩, fun h => ?_⟩
  obtain ⟨-, ⟨d, hgives', hversion⟩, -⟩ := (hformat hsucceeds).1.1 h
  rw [hgives'.unique hgives] at hversion
  exact absurd hversion (by decide)

end PluginHost

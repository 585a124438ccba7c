import PluginHost.Proofs.Rpc.Messages

/-!
# Messages that are written, read and written again

`parse_text_codec` is about both directions, for requests and responses.

* From a text.  However a message is written, as an object or as a list, with members in any order
  and further ones among them, what is read of it is a message that the writer gives back on one
  line (`Request.readsBack_of_isRead`, `Response.readsBack_of_isRead`).  It is the same message to
  the last member, since nothing that has been read is null (`Request.plain_of_isRead`,
  `Response.plain_of_isRead`).
* From a message.  A value for a message keeps the bounds of the format and leaves the text no
  deeper than reading goes (`FitsInside`).  A member that is null is then missing, and the answer to
  the call is the same, up to the data of a failure (`Response.outcome_plain`).

Numbers with a fraction are left out on both sides.
-/

namespace PluginHost.Rpc

open Json PluginHost.Text

/-! ## Messages without fractions -/

/-- No number in the parameters has a fraction. -/
def Request.IsWhole (r : Request) : Prop := ∀ v, r.params = some v → v.IsWhole

/-- No number in the data has a fraction. -/
def Failure.IsWhole (f : Failure) : Prop := ∀ d, f.data = some d → d.IsWhole

/-- No number in the result has a fraction, and none in the data of the failure. -/
def Response.IsWhole (r : Response) : Prop :=
  (∀ v, r.result = some v → v.IsWhole) ∧ ∀ f, r.failure = some f → f.IsWhole

/-- A value of the data format without fractions, for a place inside so many lists and objects: with
those around it, it is nested no deeper than reading goes. -/
def FitsInside (outer : Nat) (v : Value) : Prop :=
  v.Proper ∧ v.IsWhole ∧ v.depth + outer ≤ maxNesting

theorem FitsInside.readsBack {outer : Nat} {v : Value} (h : FitsInside outer v) :
    Json.ReadsBack (maxNesting - outer) v :=
  readsBack_of_depth h.1 h.2.1 (by have := h.2.2; omega)

/-! ## From a text -/

theorem Request.readsBack_of_isRead {r : Request} (hread : r.IsRead) (hwhole : r.IsWhole) :
    r.ReadsBack :=
  ⟨hread.1, fun v hv => (hread.2 v hv).2 (hwhole v hv)⟩

theorem Failure.readsBack_of_isRead {levels : Nat} {f : Failure} (hread : f.IsRead levels)
    (hwhole : f.IsWhole) : f.ReadsBack levels :=
  ⟨hread.1, hread.2.1, fun d hd => (hread.2.2 d hd).2 (hwhole d hd)⟩

theorem Response.readsBack_of_isRead {r : Response} (hread : r.IsRead) (hwhole : r.IsWhole) :
    r.ReadsBack :=
  ⟨hread.1, fun v hv => (hread.2.1 v hv).2 (hwhole.1 v hv),
    fun f hf => Failure.readsBack_of_isRead (hread.2.2 f hf) (hwhole.2 f hf)⟩

/-- Where no null stands, none is left out. -/
theorem bind_present {value : Option Value} (h : ∀ v, value = some v → v ≠ .null) :
    value.bind present = value := by
  cases value with
  | none => rfl
  | some v =>
      have hnull := h v rfl
      cases v <;> first | rfl | contradiction

theorem Request.plain_of_isRead {r : Request} (h : r.IsRead) : r.plain = r := by
  rw [Request.plain, bind_present fun v hv => (h.2 v hv).1]

theorem Failure.plain_of_isRead {levels : Nat} {f : Failure} (h : f.IsRead levels) :
    f.plain = f := by
  rw [Failure.plain, bind_present fun d hd => (h.2.2 d hd).1]

theorem Response.plain_of_isRead {r : Response} (h : r.IsRead) : r.plain = r := by
  have hfailure : r.failure.map Failure.plain = r.failure := by
    cases hcase : r.failure with
    | none => rfl
    | some f => exact congrArg some (Failure.plain_of_isRead (h.2.2 f hcase))
  rw [Response.plain, bind_present fun v hv => (h.2.1 v hv).1, hfailure]

/-- A request as it has been read is written on one line, and read again. -/
theorem Request.parse_text_of_parse {text : String} {r : Request} (h : Request.parse text = .ok r)
    (hwhole : r.IsWhole) : '\n' ∉ r.text.toList ∧ Request.parse r.text = .ok r := by
  have hread := isRead_of_parse_request h
  have hback := Request.readsBack_of_isRead hread hwhole
  have hparse := parse_request_text hback
  rw [Request.plain_of_isRead hread] at hparse
  refine ⟨?_, hparse⟩
  rw [Request.text, String.toList_ofList]
  exact newline_notMem_request hback

/-- A response as it has been read is written on one line, and read again. -/
theorem Response.parse_text_of_parse {text : String} {r : Response}
    (h : Response.parse text = .ok r) (hwhole : r.IsWhole) :
    '\n' ∉ r.text.toList ∧ Response.parse r.text = .ok r := by
  have hread := isRead_of_parse_response h
  have hback := Response.readsBack_of_isRead hread hwhole
  have hparse := parse_response_text hback
  rw [Response.plain_of_isRead hread] at hparse
  refine ⟨?_, hparse⟩
  rw [Response.text, String.toList_ofList]
  exact newline_notMem_response hback

/-! ## From a message -/

/-- A request, from its parts. -/
theorem parse_request_new {id : Id} (hid : id.ReadsBack) (method : String) {params : Option Value}
    (hparams : ∀ v, params = some v → FitsInside 1 v) :
    Request.parse (Request.new id method params).text =
      .ok (Request.new id method (params.bind present)) :=
  parse_request_text ⟨hid, fun v hv => (hparams v hv).readsBack⟩

theorem parse_response_success {id : Option Id} (hid : ∀ i, id = some i → i.ReadsBack)
    {result : Value} (hresult : FitsInside 1 result) :
    Response.parse (Response.success id result).text =
      .ok { Response.success id result with result := present result } := by
  refine parse_response_text ⟨hid, ?_, ?_⟩
  · rintro v ⟨⟩
    exact hresult.readsBack
  · rintro f ⟨⟩

theorem parse_response_refusal {id : Option Id} (hid : ∀ i, id = some i → i.ReadsBack)
    {f : Failure} (hcode : -2147483648 ≤ f.code ∧ f.code ≤ 2147483647)
    (hdata : ∀ d, f.data = some d → FitsInside 2 d) :
    Response.parse (Response.refusal id f).text = .ok (Response.refusal id f.plain) := by
  refine parse_response_text ⟨hid, ?_, ?_⟩
  · rintro v ⟨⟩
  · rintro g ⟨⟩
    exact ⟨hcode.1, hcode.2, fun d hd => (hdata d hd).readsBack⟩

/-- Reading gives back what has been written.  What has been read of any text is written on one line
and read again as the same message; a message of the current version is read as it was made, with
nothing in place of what is null, and answers the call as before. -/
theorem parse_text_codec :
    (∀ text r, Request.parse text = .ok r → r.IsWhole →
      '\n' ∉ r.text.toList ∧ Request.parse r.text = .ok r ∧
        (Request.parse r.text).map Request.text = .ok r.text) ∧
    (∀ text r, Response.parse text = .ok r → r.IsWhole →
      '\n' ∉ r.text.toList ∧ Response.parse r.text = .ok r ∧
        (Response.parse r.text).map Response.text = .ok r.text) ∧
    (∀ id method params, id.ReadsBack → (∀ v, params = some v → FitsInside 1 v) →
      Request.parse (Request.new id method params).text =
        .ok (Request.new id method (params.bind present))) ∧
    (∀ id result, (∀ i, id = some i → i.ReadsBack) → FitsInside 1 result →
      ∃ r, Response.parse (Response.success id result).text = .ok r ∧
        r = { Response.success id result with result := present result } ∧
        r.outcome = (Response.success id result).outcome) ∧
    ∀ id (f : Failure), (∀ i, id = some i → i.ReadsBack) →
      (-2147483648 ≤ f.code ∧ f.code ≤ 2147483647) → (∀ d, f.data = some d → FitsInside 2 d) →
      ∃ r, Response.parse (Response.refusal id f).text = .ok r ∧
        r = Response.refusal id f.plain ∧
        r.outcome = (Response.refusal id f).outcome.mapError Failure.plain := by
  refine ⟨fun text r h hwhole => ?_, fun text r h hwhole => ?_,
    fun id method params hid hparams => parse_request_new hid method hparams,
    fun id result hid hresult => ?_, fun id f hid hcode hdata => ?_⟩
  · obtain ⟨hline, hparse⟩ := Request.parse_text_of_parse h hwhole
    exact ⟨hline, hparse, by rw [hparse]; rfl⟩
  · obtain ⟨hline, hparse⟩ := Response.parse_text_of_parse h hwhole
    exact ⟨hline, hparse, by rw [hparse]; rfl⟩
  · exact ⟨_, parse_response_success hid hresult, rfl,
      (Response.success id result).outcome_plain⟩
  · exact ⟨_, parse_response_refusal hid hcode hdata, rfl,
      (Response.refusal id f).outcome_plain⟩

/-- A request that is a list, a response with its members in another order and one more among them,
and messages of the host that hold null. -/
theorem parse_text_codec_null :
    (∃ r, Request.parse "[\"2.0\", 7, \"m\", \x7b\"b\": true, \"a\": null\x7d]" = .ok r ∧
      '\n' ∉ r.text.toList ∧ Request.parse r.text = .ok r ∧
        (Request.parse r.text).map Request.text = .ok r.text) ∧
    (∃ r, Response.parse "\x7b\"error\": [-3, \"no\", []], \"more\": 1.5, \"jsonrpc\": \"1.0\"\x7d" =
        .ok r ∧
      '\n' ∉ r.text.toList ∧ Response.parse r.text = .ok r ∧
        (Response.parse r.text).map Response.text = .ok r.text) ∧
    Request.parse (Request.new (.number 1) runMethod (some .null)).text =
      .ok (Request.new (.number 1) runMethod none) ∧
    (∃ r, Response.parse (Response.success (some (.number 1)) .null).text = .ok r ∧
      r = { Response.success (some (.number 1)) .null with result := none } ∧
      r.outcome = .ok .null) ∧
    ∃ r, Response.parse (Response.refusal none ⟨2, "boom", some (.null)⟩).text = .ok r ∧
      r = Response.refusal none ⟨2, "boom", none⟩ ∧
      r.outcome = (Response.refusal none ⟨2, "boom", some (.null)⟩).outcome.mapError Failure.plain := by
  obtain ⟨hrequest, hresponse, hnew, hsuccess, hrefusal⟩ := parse_text_codec
  have hnull : ∀ outer, outer ≤ maxNesting → FitsInside outer .null := fun outer houter =>
    ⟨.null, .null, by simpa [Value.depth] using houter⟩
  have hid : ∀ i, some (Id.number 1) = some i → i.ReadsBack := by
    rintro i ⟨⟩
    exact ⟨by decide, by decide⟩
  have hlist : Request.parse "[\"2.0\", 7, \"m\", \x7b\"b\": true, \"a\": null\x7d]" =
      .ok ⟨"2.0", .number 7, "m", some (.object [("a", .null), ("b", .bool true)])⟩ := rfl
  have hobject :
      Response.parse "\x7b\"error\": [-3, \"no\", []], \"more\": 1.5, \"jsonrpc\": \"1.0\"\x7d" =
        .ok ⟨"1.0", none, none, some ⟨-3, "no", some (.array [])⟩⟩ := rfl
  refine ⟨⟨_, hlist, hrequest _ _ hlist ?_⟩, ⟨_, hobject, hresponse _ _ hobject ⟨?_, ?_⟩⟩,
    hnew _ _ _ ⟨by decide, by decide⟩ ?_, hsuccess _ _ hid (hnull 1 (by decide)),
    hrefusal _ _ ?_ ⟨by decide, by decide⟩ ?_⟩
  · rintro v ⟨⟩
    refine .object fun m hm => ?_
    simp only [List.mem_cons, List.not_mem_nil, or_false] at hm
    rcases hm with rfl | rfl
    · exact .null
    · exact .bool true
  · rintro v ⟨⟩
  · rintro f ⟨⟩ d ⟨⟩
    exact .array fun v hv => absurd hv List.not_mem_nil
  · rintro v ⟨⟩
    exact hnull 1 (by decide)
  · rintro i ⟨⟩
  · rintro d ⟨⟩
    exact hnull 2 (by decide)

end PluginHost.Rpc

import Mathlib.Data.List.DropRight
import PluginHost.Proofs.Encoding
import PluginHost.Proofs.Json.Reading
import PluginHost.Rpc.Message

/-!
# Messages read back

A request or a response that is written is read back, on a line of its own or followed by a newline
(`parse_request_text`, `parse_response_text`).  A member that is null is read as missing: `plain` is
the message without such members.

`ReadsBack` says of an id, a failure, a request and a response that its numbers have their size and
that its values are nested no deeper than reading goes.  Readers of single fields come first, then
each record is one run of `Folds`, member by member.  The same text read as a JSON value gives the
object of its members (`parse_response_object`).

`IsRead` says the same of what comes out of reading, for any text that is accepted
(`isRead_of_parse_request`, `isRead_of_parse_response`): the values have the depth they need, nothing
is null, and only fractions may fail to be read back.
-/

namespace PluginHost.Rpc

open Json PluginHost.Text

/-! ## Readers of single fields -/

theorem readText_stringChars (s : String) (rest : List Char) :
    readText (stringChars s ++ rest) = .ok (s, rest) := by
  rw [stringChars_append, readText, skipSpace_cons (by decide)]
  exact readString_flatMap s rest

theorem readOptional_null {α : Type} (read : Reader α) (rest : List Char) :
    readOptional read ("null".toList ++ rest) = .ok (none, rest) := by
  have hnull : "null".toList ++ rest = 'n' :: ("ull".toList ++ rest) := rfl
  rw [hnull, readOptional, skipSpace_cons (by decide)]
  rfl

theorem readOptional_cons {α : Type} (read : Reader α) {c : Char} (hspace : isSpace c = false)
    (hn : c ≠ 'n') (cs : List Char) :
    readOptional read (c :: cs) = (read (c :: cs)).map fun p => (some p.1, p.2) := by
  rw [readOptional, skipSpace_cons hspace]
  split
  · rename_i heq; exact absurd (List.cons.inj heq).1 hn
  · cases read (c :: cs) <;> rfl

/-- Whole numbers within the bounds are read back. -/
theorem readInteger_toString {low high : Int} (kind : String) {i : Int} (hlow : low ≤ i)
    (hhigh : i ≤ high) (hmin : -(maxInt64 + 1 : Int) ≤ i) (hmax : i ≤ maxUInt64) {rest : List Char}
    (hrest : EndsNumber rest) :
    readInteger low high kind ((toString i).toList ++ rest) = .ok (i, rest) := by
  have hbounds : (decide (low ≤ i) && decide (i ≤ high)) = true := by simp [hlow, hhigh]
  rw [toList_toString_int]
  split
  · rename_i hpos
    obtain ⟨d, ds, hd, hdigit⟩ := toDigits_cons i.toNat
    have hread := readNumber_toDigits false (n := i.toNat) (by omega) hrest
    rw [hd, List.cons_append] at hread ⊢
    rw [readInteger, skipSpace_cons (startsValue_digit hdigit).1]
    split
    · rename_i heq; exact absurd (List.cons.inj heq).1 (digit_ne hdigit (by decide))
    · contradiction
    · rename_i heq
      obtain ⟨rfl, rfl⟩ := List.cons.inj heq
      rw [if_pos hdigit, hread]
      simp only [wholeNumber, Bool.not_false, if_true, boundedInteger, Int.toNat_of_nonneg hpos,
        hbounds, bind, Except.bind, pure, Except.pure]
  · rename_i hneg
    have hread := readNumber_toDigits true (n := (-i).toNat)
      (by simp only [maxInt64, maxUInt64] at *; omega) hrest
    have hsize : (decide (0 < (-i).toNat) && decide ((-i).toNat ≤ maxInt64 + 1)) = true := by
      simp only [Bool.and_eq_true, decide_eq_true_eq]
      omega
    have hback : -((-i).toNat : Int) = i := by omega
    rw [List.cons_append, readInteger, skipSpace_cons (by decide)]
    simp only [hread, wholeNumber, Bool.not_true, Bool.false_eq_true, if_false, hsize, if_true,
      hback, boundedInteger, hbounds, bind, Except.bind, pure, Except.pure]

theorem bounds_of_boundedInteger {low high : Int} {kind : String} {n : Number} {i : Int}
    (h : boundedInteger low high kind n = .ok i) : low ≤ i ∧ i ≤ high := by
  unfold boundedInteger at h
  split at h
  · split at h
    · rename_i hbounds
      cases h
      simpa using hbounds
    · cases h
  · cases h

/-- A whole number that has been read lies within the bounds. -/
theorem bounds_of_readInteger {low high : Int} {kind : String} {cs rest : List Char} {i : Int}
    (h : readInteger low high kind cs = .ok (i, rest)) : low ≤ i ∧ i ≤ high := by
  simp only [readInteger, bind, Except.bind, pure, Except.pure] at h
  split at h
  · split at h
    · cases h
    · split at h
      · cases h
      · rename_i hbounded
        cases h
        exact bounds_of_boundedInteger hbounded
  · cases h
  · split at h
    · split at h
      · cases h
      · split at h
        · cases h
        · rename_i hbounded
          cases h
          exact bounds_of_boundedInteger hbounded
    · exact absurd h (refuse_ne_ok _ _ _)

/-- What an optional field holds when null counts as missing. -/
def present : Value → Option Value
  | .null => none
  | v => some v

/-- Behind an optional field stands a value that is not null: it is read as if it were required. -/
theorem readOptional_chars {α : Type} (read : Reader α) {levels : Nat} {v : Value}
    (h : ReadsBack levels v) (hnull : v ≠ .null) (rest : List Char) :
    readOptional read (v.chars ++ rest) =
      (read (v.chars ++ rest)).map fun p => (some p.1, p.2) := by
  obtain ⟨c, cs, hchars, ⟨hspace, -⟩, hn⟩ := h.chars_cons
  rw [hchars, List.cons_append]
  exact readOptional_cons read hspace (fun hc => hnull (hn hc)) _

theorem readOptional_readValue {levels : Nat} {v : Value} (h : ReadsBack levels v) {rest : List Char}
    (hrest : EndsNumber rest) :
    readOptional (readValue levels) (v.chars ++ rest) = .ok (present v, rest) := by
  by_cases hnull : v = .null
  · subst hnull
    exact readOptional_null (readValue levels) rest
  · have hpresent : present v = some v := by cases v <;> simp_all [present]
    rw [readOptional_chars _ h hnull, readValue_chars h hrest, hpresent]
    rfl

/-- What a value behind an optional field can be: never null, and read back unless it holds a
fraction. -/
def PresentValue (levels : Nat) (v : Value) : Prop :=
  v ≠ .null ∧ (v.IsWhole → Json.ReadsBack levels v)

/-- What has been read of an optional field has been read where no null stands. -/
theorem readOptional_some {α : Type} {read : Reader α} {cs rest : List Char} {a : α}
    (h : readOptional read cs = .ok (some a, rest)) :
    read (skipSpace cs) = .ok (a, rest) ∧ ∀ more, skipSpace cs ≠ 'n' :: more := by
  simp only [readOptional, bind, Except.bind, pure, Except.pure] at h
  split at h
  · split at h <;> cases h
  · rename_i hnull
    split at h
    · cases h
    · rename_i p hread
      cases h
      exact ⟨hread, hnull⟩

theorem presentValue_of_readOptional {levels : Nat} {cs rest : List Char} {v : Value}
    (h : readOptional (readValue levels) cs = .ok (some v, rest)) : PresentValue levels v := by
  obtain ⟨hread, hnull⟩ := readOptional_some h
  refine ⟨?_, readsBack_of_readValue hread⟩
  rintro rfl
  have hspace : skipSpace (skipSpace cs) = skipSpace cs :=
    List.dropWhile_idempotent isSpace cs
  rcases readValue_cases hread with ⟨-, more, hmore⟩ | ⟨b, hb⟩ | ⟨t, ht⟩ | ⟨_, _, n, hn, -⟩ |
    ⟨_, _, items, -, hitems, -⟩ | ⟨_, _, members, -, hmembers, -⟩
  · exact hnull more (hspace ▸ hmore)
  · cases hb
  · cases ht
  · cases hn
  · cases hitems
  · cases hmembers

/-! ## Ids -/

/-- The number of an id has 64 bits. -/
def Id.ReadsBack : Id → Prop
  | .text _ => True
  | .number i => -(maxInt64 + 1 : Int) ≤ i ∧ i ≤ maxInt64

/-- An id as a value. -/
def Id.toValue : Id → Value
  | .text s => .string s
  | .number i => .number (.integer i)

theorem Id.chars_toValue (id : Id) : id.toValue.chars = id.chars := by
  cases id with
  | text s => rw [Id.toValue, Value.chars, Id.chars]
  | number i => rw [Id.toValue, Value.chars, Id.chars, Number.text]

theorem Id.readsBack_toValue {id : Id} (h : id.ReadsBack) (levels : Nat) :
    Json.ReadsBack levels id.toValue := by
  cases id with
  | text s => exact .string s
  | number i => exact .integer h.1 (by have := h.2; simp only [maxInt64, maxUInt64] at *; omega)

theorem Id.ofValue?_toValue {id : Id} (h : id.ReadsBack) : Id.ofValue? id.toValue = some id := by
  cases id with
  | text s => rfl
  | number i =>
      have hbounds : (decide (-(maxInt64 + 1 : Int) ≤ i) && decide (i ≤ maxInt64)) = true := by
        simpa [Id.ReadsBack] using h
      rw [Id.toValue, Id.ofValue?, if_pos hbounds]

theorem readId_chars {levels : Nat} {id : Id} (h : id.ReadsBack) {rest : List Char}
    (hrest : EndsNumber rest) : readId levels (id.chars ++ rest) = .ok (id, rest) := by
  have hread := readValue_chars (Id.readsBack_toValue h levels) hrest
  rw [Id.chars_toValue] at hread
  simp only [readId, hread, Id.ofValue?_toValue h, bind, Except.bind, pure, Except.pure]

theorem readOptional_readId {levels : Nat} {id : Id} (h : id.ReadsBack) {rest : List Char}
    (hrest : EndsNumber rest) :
    readOptional (readId levels) (id.chars ++ rest) = .ok (some id, rest) := by
  have hnull : id.toValue ≠ .null := by cases id <;> simp [Id.toValue]
  have hread := readOptional_chars (readId levels) (Id.readsBack_toValue h levels) hnull rest
  rw [Id.chars_toValue] at hread
  rw [hread, readId_chars h hrest]
  rfl

theorem Id.readsBack_of_ofValue? {v : Value} {id : Id} (h : Id.ofValue? v = some id) :
    id.ReadsBack := by
  rw [Id.ofValue?.eq_def] at h
  split at h
  · cases h; trivial
  · split at h
    · rename_i hbounds
      cases h
      simpa [Id.ReadsBack] using hbounds
    · cases h
  · cases h

/-- The id that has been read is one that is read back. -/
theorem readsBack_of_readId {levels : Nat} {cs rest : List Char} {id : Id}
    (h : readId levels cs = .ok (id, rest)) : id.ReadsBack := by
  simp only [readId, bind, Except.bind, pure, Except.pure] at h
  split at h
  · cases h
  · split at h
    · rename_i id hvalue
      cases h
      exact Id.readsBack_of_ofValue? hvalue
    · cases h

/-! ## Records -/

/-- A record is read from an object by folding its members. -/
theorem read_recordChars {σ : Type} {record : Record σ} {levels : Nat} {empty s : σ}
    {fields : List (String × List Char)} (h : Folds (record.readMember levels) empty fields s)
    (rest : List Char) :
    record.read (levels + 1) empty (recordChars fields ++ rest) = .ok (s, rest) := by
  have hlength := length_le_length_bodyChars fields
  rw [recordChars_eq, List.cons_append, List.append_assoc, Record.read, skipSpace_cons (by decide)]
  exact readMembers_of_folds h (by simp; omega) rest

/-- One member of a record, behind its key, is read by the field of that name. -/
theorem readMember_of_find {σ : Type} {record : Record σ} {field : Json.Field σ} {levels : Nat}
    {s s' : σ} {key : String} {text rest : List Char}
    (hfind : record.fields.find? (·.name == key) = some field) (hgiven : field.given s = false)
    (hread : field.read levels s (text ++ rest) = .ok (s', rest)) :
    record.readMember levels s key (':' :: (text ++ rest)) = .ok (s', rest) := by
  simp only [Record.readMember, hfind, hgiven, Bool.false_eq_true, if_false, readColon_colon, bind,
    Except.bind, hread]

theorem eq_some_of_required {α : Type} {name : String} {value : Option α} {a : α}
    (h : required name value = .ok a) : value = some a := by
  cases value with
  | none => cases h
  | some b => cases h; rfl

theorem eq_some_some_of_getD {α : Type} {value : Option (Option α)} {a : α}
    (h : value.getD none = some a) : value = some (some a) := by
  cases value with
  | none => cases h
  | some value => exact congrArg some h

/-! ## Failures -/

/-- The code has 32 bits, and the data is nested at most so deep. -/
def Failure.ReadsBack (levels : Nat) (f : Failure) : Prop :=
  -2147483648 ≤ f.code ∧ f.code ≤ 2147483647 ∧ ∀ d, f.data = some d → Json.ReadsBack levels d

/-- A failure without data that is null. -/
def Failure.plain (f : Failure) : Failure := { f with data := f.data.bind present }

/-- The members of a failure: their names, how they are written, and what they stand for. -/
def Failure.members (f : Failure) : List (String × List Char × Value) :=
  [("code", (toString f.code).toList, .number (.integer f.code)),
    ("message", stringChars f.message, .string f.message)]
    ++ (f.data.toList.map fun d => ("data", d.chars, d))

theorem Failure.chars_eq (f : Failure) :
    f.chars = recordChars (f.members.map fun m => (m.1, m.2.1)) := by
  rw [Failure.chars, Failure.members]
  cases f.data <;> rfl

theorem folds_failureRecord {levels : Nat} {f : Failure} (h : f.ReadsBack levels) :
    Folds (failureRecord.readMember levels) ⟨none, none, none⟩
      (f.members.map fun m => (m.1, m.2.1))
      ⟨some f.code, some f.message, f.data.map present⟩ := by
  obtain ⟨hlow, hhigh, hdata⟩ := h
  have hcode : ∀ rest, EndsNumber rest → failureRecord.readMember levels ⟨none, none, none⟩ "code"
      (':' :: ((toString f.code).toList ++ rest)) = .ok (⟨some f.code, none, none⟩, rest) := by
    intro rest hrest
    have hread := readInteger_toString "i32" hlow hhigh (by simp only [maxInt64]; omega)
      (by simp only [maxUInt64]; omega) hrest
    refine readMember_of_find rfl rfl ?_
    simp only [hread, bind, Except.bind, pure, Except.pure]
  have hmessage : ∀ rest, EndsNumber rest →
      failureRecord.readMember levels ⟨some f.code, none, none⟩ "message"
        (':' :: (stringChars f.message ++ rest)) =
          .ok (⟨some f.code, some f.message, none⟩, rest) := by
    intro rest _
    refine readMember_of_find rfl rfl ?_
    simp only [readText_stringChars, bind, Except.bind, pure, Except.pure]
  refine Folds.cons hcode (Folds.cons hmessage ?_)
  cases hd : f.data with
  | none => exact Folds.nil
  | some d =>
      refine Folds.cons (fun rest hrest => ?_) Folds.nil
      refine readMember_of_find rfl rfl ?_
      simp only [readOptional_readValue (hdata d hd) hrest, bind, Except.bind, pure, Except.pure,
        Option.map_some]

theorem readFailure_chars {levels : Nat} {f : Failure} (h : f.ReadsBack levels)
    (rest : List Char) : readFailure (levels + 1) (f.chars ++ rest) = .ok (f.plain, rest) := by
  have hread := read_recordChars (folds_failureRecord h) rest
  have hdata : (f.data.map present).getD none = f.data.bind present := by cases f.data <;> rfl
  rw [← Failure.chars_eq] at hread
  simp only [readFailure, hread, required, hdata, Failure.plain, bind, Except.bind, pure,
    Except.pure]

/-- What is read of a failure: a code of 32 bits, and data that is not null. -/
def Failure.IsRead (levels : Nat) (f : Failure) : Prop :=
  -2147483648 ≤ f.code ∧ f.code ≤ 2147483647 ∧ ∀ d, f.data = some d → PresentValue levels d

theorem isRead_of_readFailure {levels : Nat} {cs rest : List Char} {f : Failure}
    (h : readFailure (levels + 1) cs = .ok (f, rest)) : f.IsRead levels := by
  have hfields : ∀ field ∈ failureRecord.fields, ∀ d cs d' rest,
      field.read levels d cs = .ok (d', rest) →
        ((∀ i, d.code = some i → -2147483648 ≤ i ∧ i ≤ 2147483647) ∧
          ∀ v, d.data = some (some v) → PresentValue levels v) →
        (∀ i, d'.code = some i → -2147483648 ≤ i ∧ i ≤ 2147483647) ∧
          ∀ v, d'.data = some (some v) → PresentValue levels v := by
    rintro field hfield d cs d' rest hread ⟨hcode, hdata⟩
    simp only [failureRecord, List.mem_cons, List.not_mem_nil, or_false] at hfield
    rcases hfield with rfl | rfl | rfl <;>
      simp only [bind, Except.bind, pure, Except.pure] at hread <;> split at hread <;>
      cases hread
    · rename_i hread
      refine ⟨?_, hdata⟩
      rintro i ⟨⟩
      exact bounds_of_readInteger hread
    · exact ⟨hcode, hdata⟩
    · rename_i p hread
      obtain ⟨found, more⟩ := p
      refine ⟨hcode, ?_⟩
      rintro v ⟨⟩
      exact presentValue_of_readOptional hread
  simp only [readFailure, bind, Except.bind, pure, Except.pure] at h
  split at h
  · cases h
  · rename_i p hread
    obtain ⟨hcode, hdata⟩ := read_keeps hfields hread ⟨(by rintro _ ⟨⟩), (by rintro _ ⟨⟩)⟩
    split at h
    · cases h
    · rename_i code hrequired
      split at h
      · cases h
      · cases h
        have hbounds := hcode code (eq_some_of_required hrequired)
        exact ⟨hbounds.1, hbounds.2, fun d hd => hdata d (eq_some_some_of_getD hd)⟩

theorem Failure.reads_chars {levels : Nat} {f : Failure} (h : f.ReadsBack levels) :
    Reads (levels + 1) f.chars (Value.ofMembers (f.members.map fun m => (m.1, m.2.2))) := by
  rw [Failure.chars_eq]
  refine reads_recordChars fun m hm rest hrest => ?_
  obtain ⟨hlow, hhigh, hdata⟩ := h
  simp only [Failure.members, List.cons_append, List.nil_append, List.mem_cons, List.mem_map,
    Option.mem_toList] at hm
  rcases hm with rfl | rfl | ⟨d, hd, rfl⟩
  · exact readValue_integer levels (by simp only [maxInt64]; omega)
      (by simp only [maxUInt64]; omega) hrest
  · exact readValue_quote levels f.message rest
  · exact readValue_chars (hdata d hd) hrest

theorem newline_notMem_failure {levels : Nat} {f : Failure} (h : f.ReadsBack levels) :
    '\n' ∉ f.chars := by
  rw [Failure.chars_eq]
  refine newline_notMem_recordChars fun m hm => ?_
  simp only [Failure.members, List.cons_append, List.nil_append, List.map_cons, List.map_map,
    List.mem_cons, List.mem_map, Option.mem_toList] at hm
  rcases hm with rfl | rfl | ⟨d, hd, rfl⟩
  · exact newline_notMem_integer f.code
  · exact newline_notMem_stringChars f.message
  · exact newline_notMem_chars (h.2.2 d hd)

/-! ## Responses -/

/-- Id, result and failure are read back: the result may be nested one level less deep than a whole
text, the data of the failure two. -/
def Response.ReadsBack (r : Response) : Prop :=
  (∀ id, r.id = some id → id.ReadsBack) ∧
    (∀ v, r.result = some v → Json.ReadsBack (maxNesting - 1) v) ∧
    ∀ f, r.failure = some f → f.ReadsBack (maxNesting - 2)

/-- A response without members that are null. -/
def Response.plain (r : Response) : Response :=
  { r with result := r.result.bind present, failure := r.failure.map Failure.plain }

/-- Leaving out what is null changes no answer, but for the data of a failure. -/
theorem Response.outcome_plain (r : Response) :
    r.plain.outcome = r.outcome.mapError Failure.plain := by
  cases hfailure : r.failure with
  | some f => simp [Response.outcome, Response.plain, hfailure, Except.mapError]
  | none =>
      have hresult : (r.result.bind present).getD .null = r.result.getD .null := by
        cases r.result with
        | none => rfl
        | some v => cases v <;> rfl
      simp [Response.outcome, Response.plain, hfailure, hresult, Except.mapError]

/-- The id of a response as a value, null when there is none. -/
def idValue (id : Option Id) : Value := (id.map Id.toValue).getD .null

/-- The members of a response: their names, how they are written, and what they stand for. -/
def Response.members (r : Response) : List (String × List Char × Value) :=
  [("jsonrpc", stringChars r.version, .string r.version),
    ("id", (r.id.map Id.chars).getD "null".toList, idValue r.id)]
    ++ (r.result.toList.map fun v => ("result", v.chars, v))
    ++ (r.failure.toList.map fun f =>
      ("error", f.chars, Value.ofMembers (f.members.map fun m => (m.1, m.2.2))))

theorem Response.chars_eq (r : Response) :
    r.chars = recordChars (r.members.map fun m => (m.1, m.2.1)) := by
  rw [Response.chars, Response.members]
  cases r.result <;> cases r.failure <;> rfl

/-- A member of a response: which of the four it is. -/
theorem Response.mem_members {r : Response} {m : String × List Char × Value}
    (h : m ∈ r.members) :
    m = ("jsonrpc", stringChars r.version, .string r.version) ∨
      m = ("id", (r.id.map Id.chars).getD "null".toList, idValue r.id) ∨
      (∃ v, r.result = some v ∧ m = ("result", v.chars, v)) ∨
      ∃ f, r.failure = some f ∧
        m = ("error", f.chars, Value.ofMembers (f.members.map fun m => (m.1, m.2.2))) := by
  simp only [Response.members, List.mem_append, List.mem_cons, List.mem_map, Option.mem_toList,
    List.not_mem_nil, or_false] at h
  rcases h with ((rfl | rfl) | ⟨v, hv, rfl⟩) | ⟨f, hf, rfl⟩
  · exact .inl rfl
  · exact .inr (.inl rfl)
  · exact .inr (.inr (.inl ⟨v, hv, rfl⟩))
  · exact .inr (.inr (.inr ⟨f, hf, rfl⟩))

theorem reads_idValue {levels : Nat} {id : Option Id} (h : ∀ i, id = some i → i.ReadsBack) :
    Reads levels ((id.map Id.chars).getD "null".toList) (idValue id) := by
  intro rest hrest
  cases id with
  | none => exact readValue_chars .null hrest
  | some id =>
      have hread := readValue_chars (Id.readsBack_toValue (h id rfl) levels) hrest
      rw [Id.chars_toValue] at hread
      exact hread

theorem folds_responseRecord {r : Response} (h : r.ReadsBack) :
    Folds (responseRecord.readMember (maxNesting - 1)) ⟨none, none, none, none⟩
      (r.members.map fun m => (m.1, m.2.1))
      ⟨some r.version, some r.id, r.result.map present,
        r.failure.map fun f => some f.plain⟩ := by
  obtain ⟨hid, hresult, hfailure⟩ := h
  have hversion : ∀ rest, EndsNumber rest →
      responseRecord.readMember (maxNesting - 1) ⟨none, none, none, none⟩ "jsonrpc"
        (':' :: (stringChars r.version ++ rest)) =
          .ok (⟨some r.version, none, none, none⟩, rest) := by
    intro rest _
    refine readMember_of_find rfl rfl ?_
    simp only [readText_stringChars, bind, Except.bind, pure, Except.pure]
  have hidRead : ∀ rest, EndsNumber rest →
      responseRecord.readMember (maxNesting - 1) ⟨some r.version, none, none, none⟩ "id"
        (':' :: ((r.id.map Id.chars).getD "null".toList ++ rest)) =
          .ok (⟨some r.version, some r.id, none, none⟩, rest) := by
    intro rest hrest
    refine readMember_of_find rfl rfl ?_
    cases hcase : r.id with
    | none =>
        simp only [Option.map_none, Option.getD_none, readOptional_null, bind, Except.bind, pure,
          Except.pure]
    | some id =>
        simp only [Option.map_some, Option.getD_some, readOptional_readId (hid id hcase) hrest,
          bind, Except.bind, pure, Except.pure]
  have hresultRead : ∀ v, r.result = some v → ∀ rest, EndsNumber rest →
      responseRecord.readMember (maxNesting - 1) ⟨some r.version, some r.id, none, none⟩ "result"
        (':' :: (v.chars ++ rest)) =
          .ok (⟨some r.version, some r.id, some (present v), none⟩, rest) := by
    intro v hv rest hrest
    refine readMember_of_find rfl rfl ?_
    simp only [readOptional_readValue (hresult v hv) hrest, bind, Except.bind, pure, Except.pure]
  have hfailureRead : ∀ result f, r.failure = some f → ∀ rest, EndsNumber rest →
      responseRecord.readMember (maxNesting - 1) ⟨some r.version, some r.id, result, none⟩ "error"
        (':' :: (f.chars ++ rest)) =
          .ok (⟨some r.version, some r.id, result, some (some f.plain)⟩, rest) := by
    intro result f hf rest hrest
    refine readMember_of_find rfl rfl ?_
    have hreads := Failure.reads_chars (hfailure f hf)
    have hread := readFailure_chars (hfailure f hf) rest
    have hbrace : readOptional (readFailure (maxNesting - 1)) (f.chars ++ rest) =
        .ok (some f.plain, rest) := by
      rw [Failure.chars, recordChars_eq, List.cons_append] at hread ⊢
      rw [readOptional_cons _ (by decide) (by decide), show maxNesting - 1 = maxNesting - 2 + 1 from rfl,
        hread]
      rfl
    simp only [hbrace, bind, Except.bind, pure, Except.pure]
  refine Folds.cons hversion (Folds.cons hidRead ?_)
  cases hr : r.result with
  | none =>
      cases hf : r.failure with
      | none => exact Folds.nil
      | some f => exact Folds.cons (hfailureRead none f hf) Folds.nil
  | some v =>
      refine Folds.cons (hresultRead v hr) ?_
      cases hf : r.failure with
      | none => exact Folds.nil
      | some f => exact Folds.cons (hfailureRead _ f hf) Folds.nil

/-- A response is read back, also with blanks behind it. -/
theorem parse_response_chars {r : Response} (h : r.ReadsBack) {blanks : List Char}
    (hblanks : skipSpace blanks = []) :
    Response.parse (String.ofList (r.chars ++ blanks)) = .ok r.plain := by
  have hread := read_recordChars (folds_responseRecord h) blanks
  rw [← Response.chars_eq, show maxNesting - 1 + 1 = maxNesting from rfl] at hread
  have hresult : (r.result.map present).getD none = r.result.bind present := by
    cases r.result <;> rfl
  have hfailure : (r.failure.map fun f => some f.plain).getD none = r.failure.map Failure.plain := by
    cases r.failure <;> rfl
  simp only [Response.parse, String.toList_ofList, hread, required, endOfText, hblanks, hresult,
    hfailure, Option.getD_some, Response.plain, bind, Except.bind]

theorem parse_response_text {r : Response} (h : r.ReadsBack) :
    Response.parse r.text = .ok r.plain := by
  have hparse : Response.parse (String.ofList (r.chars ++ [])) = .ok r.plain :=
    parse_response_chars h rfl
  rwa [List.append_nil] at hparse

/-- As a JSON value, a response is the object of its members. -/
theorem parse_response_object {r : Response} (h : r.ReadsBack) :
    Json.parse r.text = .ok (Value.ofMembers (r.members.map fun m => (m.1, m.2.2))) := by
  have hreads : Reads maxNesting r.chars (Value.ofMembers (r.members.map fun m => (m.1, m.2.2))) := by
    rw [Response.chars_eq]
    show Reads (maxNesting - 1 + 1) _ _
    refine reads_recordChars fun m hm => ?_
    obtain ⟨hid, hresult, hfailure⟩ := h
    rcases Response.mem_members hm with rfl | rfl | ⟨v, hv, rfl⟩ | ⟨f, hf, rfl⟩
    · exact fun rest _ => readValue_quote _ r.version rest
    · exact reads_idValue hid
    · exact fun rest hrest => readValue_chars (hresult v hv) hrest
    · exact Failure.reads_chars (hfailure f hf)
  have hread := hreads [] trivial
  rw [List.append_nil] at hread
  simp only [Json.parse, Response.text, String.toList_ofList, hread, bind, Except.bind]
  rfl

/-- What is read of a response: an id that is read back, a result that is not null, and a failure
whose code has 32 bits and whose data is not null. -/
def Response.IsRead (r : Response) : Prop :=
  (∀ id, r.id = some id → id.ReadsBack) ∧
    (∀ v, r.result = some v → PresentValue (maxNesting - 1) v) ∧
    ∀ f, r.failure = some f → f.IsRead (maxNesting - 2)

/-- However a response is written, this holds of what is read of it. -/
theorem isRead_of_parse_response {s : String} {r : Response} (h : Response.parse s = .ok r) :
    r.IsRead := by
  have hfields : ∀ field ∈ responseRecord.fields, ∀ d cs d' rest,
      field.read (maxNesting - 1) d cs = .ok (d', rest) →
        ((∀ id, d.id = some (some id) → id.ReadsBack) ∧
          (∀ v, d.result = some (some v) → PresentValue (maxNesting - 1) v) ∧
          ∀ f, d.failure = some (some f) → f.IsRead (maxNesting - 2)) →
        (∀ id, d'.id = some (some id) → id.ReadsBack) ∧
          (∀ v, d'.result = some (some v) → PresentValue (maxNesting - 1) v) ∧
          ∀ f, d'.failure = some (some f) → f.IsRead (maxNesting - 2) := by
    rintro field hfield d cs d' rest hread ⟨hid, hresult, hfailure⟩
    simp only [responseRecord, List.mem_cons, List.not_mem_nil, or_false] at hfield
    rcases hfield with rfl | rfl | rfl | rfl <;>
      simp only [bind, Except.bind, pure, Except.pure] at hread <;> split at hread <;>
      cases hread
    · exact ⟨hid, hresult, hfailure⟩
    · rename_i p hread
      obtain ⟨found, more⟩ := p
      refine ⟨?_, hresult, hfailure⟩
      rintro id ⟨⟩
      exact readsBack_of_readId (readOptional_some hread).1
    · rename_i p hread
      obtain ⟨found, more⟩ := p
      refine ⟨hid, ?_, hfailure⟩
      rintro v ⟨⟩
      exact presentValue_of_readOptional hread
    · rename_i p hread
      obtain ⟨found, more⟩ := p
      refine ⟨hid, hresult, ?_⟩
      rintro f ⟨⟩
      exact isRead_of_readFailure (readOptional_some hread).1
  simp only [Response.parse, endOfText, bind, Except.bind] at h
  split at h
  · cases h
  · rename_i p hread
    obtain ⟨hid, hresult, hfailure⟩ :=
      read_keeps hfields hread ⟨(by rintro _ ⟨⟩), (by rintro _ ⟨⟩), (by rintro _ ⟨⟩)⟩
    repeat' split at h
    all_goals cases h
    exact ⟨fun id h => hid id (eq_some_some_of_getD h), fun v h => hresult v (eq_some_some_of_getD h),
      fun f h => hfailure f (eq_some_some_of_getD h)⟩

theorem newline_notMem_response {r : Response} (h : r.ReadsBack) : '\n' ∉ r.chars := by
  rw [Response.chars_eq]
  refine newline_notMem_recordChars fun f hf => ?_
  obtain ⟨m, hm, rfl⟩ := List.mem_map.1 hf
  obtain ⟨-, hresult, hfailure⟩ := h
  rcases Response.mem_members hm with rfl | rfl | ⟨v, hv, rfl⟩ | ⟨g, hg, rfl⟩
  · exact newline_notMem_stringChars r.version
  · cases hid : r.id with
    | none => decide
    | some id =>
        cases id with
        | text s => exact newline_notMem_stringChars s
        | number i => exact newline_notMem_integer i
  · exact newline_notMem_chars (hresult v hv)
  · exact newline_notMem_failure (hfailure g hg)

/-! ## Requests -/

/-- Id and parameters are read back. -/
def Request.ReadsBack (r : Request) : Prop :=
  r.id.ReadsBack ∧ ∀ v, r.params = some v → Json.ReadsBack (maxNesting - 1) v

/-- A request without parameters that are null. -/
def Request.plain (r : Request) : Request := { r with params := r.params.bind present }

/-- The members of a request, as they are written. -/
def Request.members (r : Request) : List (String × List Char) :=
  [("jsonrpc", stringChars r.version), ("id", r.id.chars), ("method", stringChars r.method)]
    ++ (r.params.toList.map fun v => ("params", v.chars))

theorem Request.chars_eq (r : Request) : r.chars = recordChars r.members := by
  rw [Request.chars, Request.members]
  cases r.params <;> rfl

theorem folds_requestRecord {r : Request} (h : r.ReadsBack) :
    Folds (requestRecord.readMember (maxNesting - 1)) ⟨none, none, none, none⟩ r.members
      ⟨some r.version, some r.id, some r.method, r.params.map present⟩ := by
  obtain ⟨hid, hparams⟩ := h
  have hversion : ∀ rest, EndsNumber rest →
      requestRecord.readMember (maxNesting - 1) ⟨none, none, none, none⟩ "jsonrpc"
        (':' :: (stringChars r.version ++ rest)) =
          .ok (⟨some r.version, none, none, none⟩, rest) := by
    intro rest _
    refine readMember_of_find rfl rfl ?_
    simp only [readText_stringChars, bind, Except.bind, pure, Except.pure]
  have hidRead : ∀ rest, EndsNumber rest →
      requestRecord.readMember (maxNesting - 1) ⟨some r.version, none, none, none⟩ "id"
        (':' :: (r.id.chars ++ rest)) = .ok (⟨some r.version, some r.id, none, none⟩, rest) := by
    intro rest hrest
    refine readMember_of_find rfl rfl ?_
    simp only [readId_chars hid hrest, bind, Except.bind, pure, Except.pure]
  have hmethod : ∀ rest, EndsNumber rest →
      requestRecord.readMember (maxNesting - 1) ⟨some r.version, some r.id, none, none⟩ "method"
        (':' :: (stringChars r.method ++ rest)) =
          .ok (⟨some r.version, some r.id, some r.method, none⟩, rest) := by
    intro rest _
    refine readMember_of_find rfl rfl ?_
    simp only [readText_stringChars, bind, Except.bind, pure, Except.pure]
  refine Folds.cons hversion (Folds.cons hidRead (Folds.cons hmethod ?_))
  cases hp : r.params with
  | none => exact Folds.nil
  | some v =>
      refine Folds.cons (fun rest hrest => ?_) Folds.nil
      refine readMember_of_find rfl rfl ?_
      simp only [readOptional_readValue (hparams v hp) hrest, bind, Except.bind, pure, Except.pure,
        Option.map_some]

/-- A request is read back, also with blanks behind it. -/
theorem parse_request_chars {r : Request} (h : r.ReadsBack) {blanks : List Char}
    (hblanks : skipSpace blanks = []) :
    Request.parse (String.ofList (r.chars ++ blanks)) = .ok r.plain := by
  have hread := read_recordChars (folds_requestRecord h) blanks
  rw [← Request.chars_eq, show maxNesting - 1 + 1 = maxNesting from rfl] at hread
  have hparams : (r.params.map present).getD none = r.params.bind present := by
    cases r.params <;> rfl
  simp only [Request.parse, String.toList_ofList, hread, required, endOfText, hblanks, hparams,
    Request.plain, bind, Except.bind]

theorem parse_request_text {r : Request} (h : r.ReadsBack) : Request.parse r.text = .ok r.plain := by
  have hparse : Request.parse (String.ofList (r.chars ++ [])) = .ok r.plain :=
    parse_request_chars h rfl
  rwa [List.append_nil] at hparse

/-- What is read of a request: an id that is read back, and parameters that are not null. -/
def Request.IsRead (r : Request) : Prop :=
  r.id.ReadsBack ∧ ∀ v, r.params = some v → PresentValue (maxNesting - 1) v

/-- However a request is written, this holds of what is read of it. -/
theorem isRead_of_parse_request {s : String} {r : Request} (h : Request.parse s = .ok r) :
    r.IsRead := by
  have hfields : ∀ field ∈ requestRecord.fields, ∀ d cs d' rest,
      field.read (maxNesting - 1) d cs = .ok (d', rest) →
        ((∀ id, d.id = some id → id.ReadsBack) ∧
          ∀ v, d.params = some (some v) → PresentValue (maxNesting - 1) v) →
        (∀ id, d'.id = some id → id.ReadsBack) ∧
          ∀ v, d'.params = some (some v) → PresentValue (maxNesting - 1) v := by
    rintro field hfield d cs d' rest hread ⟨hid, hparams⟩
    simp only [requestRecord, List.mem_cons, List.not_mem_nil, or_false] at hfield
    rcases hfield with rfl | rfl | rfl | rfl <;>
      simp only [bind, Except.bind, pure, Except.pure] at hread <;> split at hread <;>
      cases hread
    · exact ⟨hid, hparams⟩
    · rename_i hread
      exact ⟨by rintro id ⟨⟩; exact readsBack_of_readId hread, hparams⟩
    · exact ⟨hid, hparams⟩
    · rename_i p hread
      obtain ⟨params, more⟩ := p
      refine ⟨hid, fun v hv => ?_⟩
      cases hv
      exact presentValue_of_readOptional hread
  simp only [Request.parse, endOfText, bind, Except.bind] at h
  split at h
  · cases h
  · rename_i p hread
    obtain ⟨hid, hparams⟩ := read_keeps hfields hread ⟨(by rintro _ ⟨⟩), (by rintro _ ⟨⟩)⟩
    split at h
    · cases h
    · split at h
      · cases h
      · rename_i id hrequired
        repeat' split at h
        all_goals cases h
        exact ⟨hid id (eq_some_of_required hrequired),
          fun v hv => hparams v (eq_some_some_of_getD hv)⟩

theorem newline_notMem_request {r : Request} (h : r.ReadsBack) : '\n' ∉ r.chars := by
  rw [Request.chars_eq]
  refine newline_notMem_recordChars fun m hm => ?_
  simp only [Request.members, List.mem_append, List.mem_cons, List.mem_map, Option.mem_toList,
    List.not_mem_nil, or_false] at hm
  rcases hm with (rfl | rfl | rfl) | ⟨v, hv, rfl⟩
  · exact newline_notMem_stringChars r.version
  · cases hid : r.id with
    | text s => exact newline_notMem_stringChars s
    | number i => exact newline_notMem_integer i
  · exact newline_notMem_stringChars r.method
  · exact newline_notMem_chars (h.2 v hv)

end PluginHost.Rpc

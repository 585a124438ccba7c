import PluginHost.Handshake
import PluginHost.Proofs.Text.Numerals
import PluginHost.Proofs.Text.Trimming

/-!
# The grammar of announcements

What a host makes of a line that may be an announcement (`accept_grammar`).  There are three groups.

* Fields.  A text has its fields between the blanks around it and the bars (`HasFields`), in one way
  only (`hasFields_iff`).
* Verdicts.  `HandshakeLine.IsSpelled` says which line the fields spell, and `Fault` which faults
  they have, each with its place in the order of precedence.  `accept_cases` is the case analysis of
  `Offer.accept`: a line that is spelled and suits the host, or the first of the faults.
* Lines that are written.  `HandshakeLine.IsReadable` is what a line keeps to be read back
  (`parse_display`), and every line that has been read keeps it (`isReadable_of_parse`).
-/

namespace PluginHost

open Text

/-! ## Fields -/

/-- The text consists of the fields: between the blanks around it, its body are the fields with bars
between them. -/
structure HasFields (text : String) (body : List Char) (fields : List (List Char)) : Prop where
  trims : TrimsTo text.toList body
  joined : body = ['|'].intercalate fields
  noBar : ∀ field ∈ fields, '|' ∉ field
  nonempty : fields ≠ []

theorem hasFields_iff {text : String} {body : List Char} {fields : List (List Char)} :
    HasFields text body fields ↔ trimChars text.toList = body ∧ splitOn '|' body = fields := by
  rw [trimChars_eq_iff, splitOn_eq_iff]
  constructor
  · rintro ⟨htrims, hjoined, hnoBar, hnonempty⟩
    exact ⟨htrims, hnonempty, hnoBar, hjoined⟩
  · rintro ⟨htrims, hnonempty, hnoBar, hjoined⟩
    exact ⟨htrims, hjoined, hnoBar, hnonempty⟩

theorem exists_hasFields (text : String) : ∃ body fields, HasFields text body fields :=
  ⟨_, _, hasFields_iff.2 ⟨rfl, rfl⟩⟩

theorem HasFields.unique {text : String} {body body' : List Char} {fields fields' : List (List Char)}
    (h : HasFields text body fields) (h' : HasFields text body' fields') :
    body = body' ∧ fields = fields' := by
  obtain ⟨rfl, rfl⟩ := hasFields_iff.1 h
  obtain ⟨rfl, rfl⟩ := hasFields_iff.1 h'
  exact ⟨rfl, rfl⟩

/-! ## Verdicts -/

/-- The field spells a number of 32 bits. -/
def IsNumberField (field : List Char) (n : Nat) : Prop := IsNumeral field n ∧ n ≤ maxUInt32

/-- The five fields spell the parts of the line. -/
structure HandshakeLine.IsSpelled (line : HandshakeLine) (fields : List (List Char)) : Prop where
  numbers : ∃ core version, fields = [core, version, line.transport.name.toList,
    line.address.toList, line.protocol.toList] ∧ IsNumberField core line.core ∧
      IsNumberField version line.version
  address : line.address ≠ ""

/-- The line suits the host. -/
structure Offer.Takes (host : Offer) (line : HandshakeLine) : Prop where
  core : line.core = coreVersion
  version : line.version ∈ host.versions
  protocol : line.protocol = channelProtocol

/-- A fault that the fields of a body have, its place in the order of precedence, and how it is
reported. -/
inductive Fault (host : Offer) (body : List Char) :
    List (List Char) → Nat → HandshakeError → Prop where
  | count {fields : List (List Char)} (h : fields.length ≠ 5) :
      Fault host body fields 0 (.malformed (String.ofList body))
  | address (core version transport protocol : List Char) :
      Fault host body [core, version, transport, [], protocol] 1 (.malformed (String.ofList body))
  | number {core version : List Char} (transport address protocol : List Char)
      (h : (∀ n, ¬IsNumberField core n) ∨ ∀ n, ¬IsNumberField version n) :
      Fault host body [core, version, transport, address, protocol] 2
        (.malformed (String.ofList body))
  | transport (core version : List Char) {transport : List Char} (address protocol : List Char)
      (h : ∀ t : Transport, t.name.toList ≠ transport) :
      Fault host body [core, version, transport, address, protocol] 3
        (.unsupportedTransport (String.ofList transport))
  | core {core : List Char} (version transport address protocol : List Char) {n : Nat}
      (h : IsNumberField core n) (hne : n ≠ coreVersion) :
      Fault host body [core, version, transport, address, protocol] 4 (.coreVersion n)
  | version (core : List Char) {version : List Char} (transport address protocol : List Char)
      {n : Nat} (h : IsNumberField version n) (hnone : n ∉ host.versions) :
      Fault host body [core, version, transport, address, protocol] 5
        (.unsupportedVersion n host.versions)
  | protocol (core version transport address : List Char) {protocol : List Char}
      (h : protocol ≠ channelProtocol.toList) :
      Fault host body [core, version, transport, address, protocol] 6
        (.unsupportedProtocol (String.ofList protocol))

/-- The fault comes before all others that the fields have. -/
def FirstFault (host : Offer) (body : List Char) (fields : List (List Char)) (e : HandshakeError) :
    Prop :=
  ∃ place, Fault host body fields place e ∧
    ∀ earlier < place, ∀ e', ¬Fault host body fields earlier e'

theorem parse_name (transport : Transport) : Transport.parse transport.name = .ok transport := by
  cases transport <;> rfl

theorem name_ne {transport : List Char} {e : HandshakeError}
    (h : Transport.parse (String.ofList transport) = .error e) :
    (∀ t : Transport, t.name.toList ≠ transport) ∧
      e = .unsupportedTransport (String.ofList transport) := by
  constructor
  · rintro t rfl
    rw [String.ofList_toList, parse_name] at h
    cases h
  · unfold Transport.parse at h
    split at h
    · cases h
    · split at h
      · cases h
      · exact (Except.error.inj h).symm

theorem eq_name {transport : List Char} {t : Transport}
    (h : Transport.parse (String.ofList transport) = .ok t) : transport = t.name.toList := by
  unfold Transport.parse at h
  rw [← String.ofList_inj, String.ofList_toList]
  split at h
  · rename_i htcp
    cases h
    exact eq_of_beq htcp
  · split at h
    · rename_i hunix
      cases h
      exact eq_of_beq hunix
    · cases h

/-- A number of 32 bits is read, and everything else is a fault of the line. -/
theorem number_cases (line : String) (field : List Char) :
    (∃ n, HandshakeLine.number line field = .ok n ∧ IsNumberField field n) ∨
      HandshakeLine.number line field = .error (.malformed line) ∧ ∀ n, ¬IsNumberField field n := by
  unfold HandshakeLine.number
  cases hread : readNat maxUInt32 field with
  | some n => exact .inl ⟨n, rfl, readNat_eq_some_iff.1 hread⟩
  | none =>
      refine .inr ⟨rfl, fun n hn => ?_⟩
      rw [readNat_eq_some_iff.2 hn] at hread
      cases hread

theorem IsNumberField.unique {field : List Char} {m n : Nat} (hm : IsNumberField field m)
    (hn : IsNumberField field n) : m = n :=
  hm.1.unique hn.1

/-- The fields have no fault up to a place. -/
def FreeUpTo (host : Offer) (body : List Char) (fields : List (List Char)) (place : Nat) : Prop :=
  ∀ earlier < place, ∀ e, ¬Fault host body fields earlier e

section Verdicts

variable {host : Offer} {text : String} {body : List Char} {fields : List (List Char)}

theorem FreeUpTo.succ {place : Nat} (h : FreeUpTo host body fields place)
    (hplace : ∀ e, ¬Fault host body fields place e) : FreeUpTo host body fields (place + 1) := by
  intro earlier hearlier e
  rcases Nat.lt_succ_iff_lt_or_eq.1 hearlier with hlt | rfl
  · exact h earlier hlt e
  · exact hplace e

theorem freeUpTo_zero : FreeUpTo host body fields 0 := fun _ h => absurd h (Nat.not_lt_zero _)

theorem FreeUpTo.firstFault {place : Nat} (h : FreeUpTo host body fields place) {e : HandshakeError}
    (he : Fault host body fields place e) : FirstFault host body fields e :=
  ⟨place, he, h⟩

/-- Fields that spell a line have no fault up to the transport. -/
theorem HandshakeLine.IsSpelled.free {line : HandshakeLine} (h : line.IsSpelled fields) :
    FreeUpTo host body fields 4 := by
  obtain ⟨⟨core, version, rfl, hcore, hversion⟩, hnonempty⟩ := h
  have haddress : line.address.toList ≠ [] := by simpa using hnonempty
  intro place hplace e hfault
  generalize line.address.toList = address at hfault haddress
  cases hfault with
  | count h => exact h rfl
  | address => exact haddress rfl
  | number _ _ _ h =>
      rcases h with h | h
      · exact h _ hcore
      · exact h _ hversion
  | transport _ _ _ _ h => exact h _ rfl
  | core | version | protocol => omega

/-- A text is read as the line that its fields spell, or the first fault up to the transport is
reported. -/
theorem parse_cases (host : Offer) (h : HasFields text body fields) :
    (∃ line, HandshakeLine.parse text = .ok line ∧ line.IsSpelled fields) ∨
      ∃ place < 4, ∃ e, HandshakeLine.parse text = .error e ∧ Fault host body fields place e ∧
        FreeUpTo host body fields place := by
  obtain ⟨htrim, hsplit⟩ := hasFields_iff.1 h
  have hbody : trim text = String.ofList body := by rw [trim, htrim]
  simp only [HandshakeLine.parse, hbody, String.toList_ofList, hsplit]
  split
  · rename_i core version transport address protocol
    have hcount : FreeUpTo host body [core, version, transport, address, protocol] 1 := by
      apply freeUpTo_zero.succ
      rintro e ⟨hlength⟩
      exact hlength rfl
    split
    · rename_i hempty
      obtain rfl := List.isEmpty_iff.1 hempty
      exact .inr ⟨_, by decide, _, rfl, .address _ _ _ _, hcount⟩
    · rename_i hnonempty
      have haddress : FreeUpTo host body [core, version, transport, address, protocol] 2 := by
        apply hcount.succ
        rintro e ⟨⟩
        exact hnonempty rfl
      rcases number_cases (String.ofList body) core with ⟨m, hm, hcore⟩ | ⟨hm, hcore⟩
      · rcases number_cases (String.ofList body) version with ⟨n, hn, hversion⟩ | ⟨hn, hversion⟩
        · have hnumbers : FreeUpTo host body [core, version, transport, address, protocol] 3 := by
            apply haddress.succ
            rintro e ⟨⟩
            rename_i hnone
            exact hnone.elim (fun h => h m hcore) fun h => h n hversion
          rw [hm, hn]
          cases htransport : Transport.parse (String.ofList transport) with
          | error e =>
              obtain ⟨hnone, rfl⟩ := name_ne htransport
              exact .inr ⟨_, by decide, _, rfl, .transport _ _ _ _ hnone, hnumbers⟩
          | ok t =>
              obtain rfl := eq_name htransport
              refine .inl ⟨_, rfl, ⟨core, version, ?_, hcore, hversion⟩, ?_⟩
              · simp only [String.toList_ofList]
              · simpa using hnonempty
        · rw [hm, hn]
          exact .inr ⟨_, by decide, _, rfl, .number _ _ _ (.inr hversion), haddress⟩
      · rw [hm]
        exact .inr ⟨_, by decide, _, rfl, .number _ _ _ (.inl hcore), haddress⟩
  · rename_i hcount
    refine .inr ⟨_, by decide, _, rfl, .count fun hfive => ?_, freeUpTo_zero⟩
    match fields, hfive with
    | [core, version, transport, address, protocol], _ => exact hcount _ _ _ _ _ rfl

/-- A line that has been read is checked against the host. -/
theorem accept_of_parse (host : Offer) {line : HandshakeLine}
    (h : HandshakeLine.parse text = .ok line) :
    host.accept text =
      if line.core != coreVersion then .error (.coreVersion line.core)
      else if !host.supports line.version then
        .error (.unsupportedVersion line.version host.versions)
      else if line.protocol != channelProtocol then .error (.unsupportedProtocol line.protocol)
      else .ok line := by
  rw [Offer.accept, h]
  rfl

/-- What a host makes of a text: it takes a line that is spelled and suits it, and otherwise reports
the first fault. -/
theorem accept_cases (host : Offer) (h : HasFields text body fields) :
    (∃ line, host.accept text = .ok line ∧ line.IsSpelled fields ∧ host.Takes line) ∨
      ∃ e, host.accept text = .error e ∧ FirstFault host body fields e := by
  rcases parse_cases host h with ⟨line, hparse, hspelled⟩ | ⟨place, -, e, hparse, hfault, hfirst⟩
  swap
  · refine .inr ⟨e, ?_, place, hfault, hfirst⟩
    rw [Offer.accept, hparse]
    rfl
  have hfree : FreeUpTo host body fields 4 := hspelled.free
  obtain ⟨⟨core, version, rfl, hcore, hversion⟩, -⟩ := id hspelled
  rw [accept_of_parse host hparse]
  by_cases hcurrent : line.core = coreVersion
  swap
  · rw [if_pos (by simpa using hcurrent)]
    exact .inr ⟨_, rfl, hfree.firstFault (.core _ _ _ _ hcore hcurrent)⟩
  have hfree₅ := hfree.succ (by
    generalize line.address.toList = address
    rintro e ⟨⟩
    rename_i n hne hn
    exact hne ((hn.unique hcore).trans hcurrent))
  rw [if_neg (by simpa using hcurrent)]
  by_cases hspoken : line.version ∈ host.versions
  swap
  · rw [if_pos (by simpa [Offer.supports] using hspoken)]
    exact .inr ⟨_, rfl, hfree₅.firstFault (.version _ _ _ _ hversion hspoken)⟩
  have hfree₆ := hfree₅.succ (by
    generalize line.address.toList = address
    rintro e ⟨⟩
    rename_i n hnone hn
    rw [hn.unique hversion] at hnone
    exact hnone hspoken)
  rw [if_neg (by simpa [Offer.supports] using hspoken)]
  by_cases hprotocol : line.protocol = channelProtocol
  · rw [if_neg (by simpa using hprotocol)]
    exact .inl ⟨line, rfl, hspelled, hcurrent, hspoken, hprotocol⟩
  · rw [if_pos (by simpa using hprotocol)]
    have hother : line.protocol.toList ≠ channelProtocol.toList :=
      fun heq => hprotocol (String.toList_inj.1 heq)
    have hfault := hfree₆.firstFault (.protocol core version _ line.address.toList hother)
    rw [String.ofList_toList] at hfault
    exact .inr ⟨_, rfl, hfault⟩

/-- Fields that spell a line which suits the host have no fault at all. -/
theorem HandshakeLine.IsSpelled.no_fault {line : HandshakeLine} (h : line.IsSpelled fields)
    (htakes : host.Takes line) (e : HandshakeError) : ¬FirstFault host body fields e := by
  rintro ⟨place, hfault, -⟩
  by_cases hplace : place < 4
  · exact h.free place hplace e hfault
  · obtain ⟨⟨core, version, rfl, hcore, hversion⟩, -⟩ := h
    generalize line.address.toList = address at hfault
    generalize hprotocol : line.protocol.toList = protocol at hfault
    cases hfault with
    | count | address | number | transport => omega
    | core _ _ _ _ hn hne => exact hne ((hn.unique hcore).trans htakes.core)
    | version _ _ _ _ hn hnone =>
        rw [hn.unique hversion] at hnone
        exact hnone htakes.version
    | protocol _ _ _ _ hother =>
        rw [htakes.protocol] at hprotocol
        exact hother hprotocol.symm

/-- Fields spell one line. -/
theorem HandshakeLine.IsSpelled.unique {line line' : HandshakeLine} (h : line.IsSpelled fields)
    (h' : line'.IsSpelled fields) : line = line' := by
  obtain ⟨⟨core, version, rfl, hcore, hversion⟩, -⟩ := h
  obtain ⟨⟨core', version', heq, hcore', hversion'⟩, -⟩ := h'
  simp only [List.cons.injEq, and_true, String.toList_inj] at heq
  obtain ⟨rfl, rfl, htransport, haddress, hprotocol⟩ := heq
  have hname : line.transport = line'.transport := by
    apply Except.ok.inj (ε := HandshakeError)
    rw [← parse_name, ← parse_name, htransport]
  have hcores := hcore.unique hcore'
  have hversions := hversion.unique hversion'
  cases line
  cases line'
  simp_all

/-- The first fault is one. -/
theorem FirstFault.unique {e e' : HandshakeError} (h : FirstFault host body fields e)
    (h' : FirstFault host body fields e') : e = e' := by
  obtain ⟨place, hfault, hfirst⟩ := h
  obtain ⟨place', hfault', hfirst'⟩ := h'
  obtain rfl : place = place' := by
    rcases Nat.lt_trichotomy place place' with hlt | heq | hlt
    · exact absurd hfault (hfirst' place hlt e)
    · exact heq
    · exact absurd hfault' (hfirst place' hlt e')
  cases hfault with
  | core _ _ _ _ hn =>
      cases hfault' with
      | core _ _ _ _ hn' => rw [hn.unique hn']
  | version _ _ _ _ hn =>
      cases hfault' with
      | version _ _ _ _ hn' => rw [hn.unique hn']
  | count | address | number | transport | protocol =>
      cases hfault'
      rfl

/-- The texts that are read, and what is read. -/
theorem parse_eq_ok_iff {line : HandshakeLine} :
    HandshakeLine.parse text = .ok line ↔
      ∃ body fields, HasFields text body fields ∧ line.IsSpelled fields := by
  constructor
  · intro hparse
    obtain ⟨body, fields, hfields⟩ := exists_hasFields text
    rcases parse_cases hostOffer hfields with
      ⟨line', hparse', hspelled⟩ | ⟨-, -, e, hparse', -⟩
    · obtain rfl := Except.ok.inj (hparse.symm.trans hparse')
      exact ⟨body, fields, hfields, hspelled⟩
    · rw [hparse] at hparse'
      cases hparse'
  · rintro ⟨body, fields, hfields, hspelled⟩
    rcases parse_cases hostOffer hfields with
      ⟨line', hparse, hspelled'⟩ | ⟨place, hplace, e, -, hfault, -⟩
    · rw [hparse, hspelled.unique hspelled']
    · exact absurd hfault (hspelled.free place hplace e)

/-- The texts that a host takes, and what it takes. -/
theorem accept_eq_ok_iff {line : HandshakeLine} :
    host.accept text = .ok line ↔
      ∃ body fields, HasFields text body fields ∧ line.IsSpelled fields ∧ host.Takes line := by
  constructor
  · intro haccept
    obtain ⟨body, fields, hfields⟩ := exists_hasFields text
    rcases accept_cases host hfields with ⟨line', haccept', h⟩ | ⟨e, haccept', -⟩
    · obtain rfl := Except.ok.inj (haccept.symm.trans haccept')
      exact ⟨body, fields, hfields, h⟩
    · rw [haccept] at haccept'
      cases haccept'
  · rintro ⟨body, fields, hfields, hspelled, htakes⟩
    rcases accept_cases host hfields with ⟨line', haccept, hspelled', -⟩ | ⟨e, -, hfault⟩
    · rw [haccept, hspelled.unique hspelled']
    · exact absurd hfault (hspelled.no_fault htakes e)

/-- The texts that a host refuses, and what it reports. -/
theorem accept_eq_error_iff {e : HandshakeError} :
    host.accept text = .error e ↔
      ∃ body fields, HasFields text body fields ∧ FirstFault host body fields e := by
  constructor
  · intro haccept
    obtain ⟨body, fields, hfields⟩ := exists_hasFields text
    rcases accept_cases host hfields with ⟨line, haccept', -⟩ | ⟨e', haccept', hfault⟩
    · rw [haccept] at haccept'
      cases haccept'
    · obtain rfl := Except.error.inj (haccept.symm.trans haccept')
      exact ⟨body, fields, hfields, hfault⟩
  · rintro ⟨body, fields, hfields, hfault⟩
    rcases accept_cases host hfields with ⟨line, -, hspelled, htakes⟩ | ⟨e', haccept, hfault'⟩
    · exact absurd hfault (hspelled.no_fault htakes e)
    · rw [haccept, hfault.unique hfault']

end Verdicts

/-! ## Lines that are written -/

/-- The fields of an announcement, as they stand between the bars. -/
def HandshakeLine.fields (line : HandshakeLine) : List (List Char) :=
  [Nat.toDigits 10 line.core, Nat.toDigits 10 line.version, line.transport.name.toList,
    line.address.toList, line.protocol.toList]

theorem toList_display (line : HandshakeLine) :
    line.display.toList = ['|'].intercalate line.fields := by
  simp only [HandshakeLine.display, String.toList_intercalate, List.map_cons, List.map_nil,
    toList_toString]
  rfl

/-- What a line keeps that is read back as it was written: its numbers have 32 bits, its address is
there, no bar stands in it, and no blank at its end. -/
structure HandshakeLine.IsReadable (line : HandshakeLine) : Prop where
  core : line.core ≤ maxUInt32
  version : line.version ≤ maxUInt32
  address : line.address ≠ ""
  addressBar : '|' ∉ line.address.toList
  protocolBar : '|' ∉ line.protocol.toList
  last : ∀ c ∈ line.protocol.toList.getLast?, isBlank c = false

section Written

variable {line : HandshakeLine}

theorem HandshakeLine.IsReadable.isSpelled (h : line.IsReadable) : line.IsSpelled line.fields :=
  ⟨⟨_, _, rfl, ⟨isNumeral_toDigits _, h.core⟩, ⟨isNumeral_toDigits _, h.version⟩⟩, h.address⟩

/-- A line that is written ends with its protocol behind a bar. -/
theorem display_ends (line : HandshakeLine) :
    ∃ front, line.display.toList = front ++ '|' :: line.protocol.toList := by
  refine ⟨['|'].intercalate (line.fields.take 4), ?_⟩
  simp [toList_display, HandshakeLine.fields, List.intercalate_cons_cons]

/-- The fields of a readable line are those of its text, with any blanks behind it. -/
theorem hasFields_display (h : line.IsReadable) {blanks : String}
    (hblanks : ∀ c ∈ blanks.toList, isBlank c = true) :
    HasFields (line.display ++ blanks) line.display.toList line.fields := by
  refine ⟨⟨⟨[], blanks.toList, ?_, by simp, hblanks⟩, ?_, ?_⟩, toList_display line, ?_, ?_⟩
  · rw [String.toList_append, List.nil_append]
  · obtain ⟨d, ds, hd⟩ := List.exists_cons_of_ne_nil (Nat.toDigits_ne_nil (b := 10) (n := line.core))
    have hdigit : isDigit d = true := isDigit_of_mem_toDigits (n := line.core) (by simp [hd])
    rw [toList_display, HandshakeLine.fields, List.intercalate_cons_cons, hd]
    rintro c ⟨⟩
    exact isBlank_of_isDigit hdigit
  · obtain ⟨front, hfront⟩ := display_ends line
    rw [hfront, List.getLast?_append, List.getLast?_cons]
    rintro c ⟨⟩
    cases hlast : line.protocol.toList.getLast? with
    | none => decide
    | some d => exact h.last d hlast
  · intro field hfield
    simp only [HandshakeLine.fields, List.mem_cons, List.not_mem_nil, or_false] at hfield
    rcases hfield with rfl | rfl | rfl | rfl | rfl
    · exact notMem_toDigits (by decide) _
    · exact notMem_toDigits (by decide) _
    · cases line.transport <;> decide
    · exact h.addressBar
    · exact h.protocolBar
  · simp [HandshakeLine.fields]

/-- A readable line is read back as it was written, with any blanks behind it. -/
theorem parse_display (h : line.IsReadable) (blanks : String)
    (hblanks : ∀ c ∈ blanks.toList, isBlank c = true) :
    HandshakeLine.parse (line.display ++ blanks) = .ok line :=
  parse_eq_ok_iff.2 ⟨_, _, hasFields_display h hblanks, h.isSpelled⟩

/-- What has been read is readable. -/
theorem isReadable_of_parse {text : String} (h : HandshakeLine.parse text = .ok line) :
    line.IsReadable := by
  obtain ⟨body, fields, hfields, ⟨core, version, rfl, hcore, hversion⟩, haddress⟩ :=
    parse_eq_ok_iff.1 h
  refine ⟨hcore.2, hversion.2, haddress, ?_, ?_, ?_⟩
  · exact hfields.noBar _ (by simp)
  · exact hfields.noBar _ (by simp)
  · intro c hc
    apply hfields.trims.last
    have hbody : body = ['|'].intercalate [core, version, line.transport.name.toList,
        line.address.toList] ++ '|' :: line.protocol.toList := by
      simp [hfields.joined, List.intercalate_cons_cons]
    rw [hbody, List.getLast?_append, List.getLast?_cons, Option.mem_def.1 hc]
    rfl

theorem isReadable_new_iff {version : Nat} (hversion : version ≤ maxUInt32) (transport : Transport)
    (address : String) :
    (HandshakeLine.new version transport address).IsReadable ↔
      address ≠ "" ∧ '|' ∉ address.toList := by
  constructor
  · exact fun h => ⟨h.address, h.addressBar⟩
  · rintro ⟨haddress, hbar⟩
    have hcore : coreVersion ≤ maxUInt32 := by decide
    have hprotocolBar : '|' ∉ channelProtocol.toList := by decide
    have hlast : ∀ c ∈ channelProtocol.toList.getLast?, isBlank c = false := by
      rintro c ⟨⟩
      rfl
    exact ⟨hcore, hversion, haddress, hbar, hprotocolBar, hlast⟩

end Written

/-- The grammar of announcements.  A host takes a text exactly if its fields spell a line that suits
the host, and what it takes is that line; otherwise it reports the first fault.  A line of the current
handshake is read back from its text exactly if it has an address without bars, and every line that
has been read is. -/
theorem accept_grammar (host : Offer) :
    (∀ text line, host.accept text = .ok line ↔
      ∃ body fields, HasFields text body fields ∧ line.IsSpelled fields ∧ host.Takes line) ∧
    (∀ text e, host.accept text = .error e ↔
      ∃ body fields, HasFields text body fields ∧ FirstFault host body fields e) ∧
    (∀ version ≤ maxUInt32, ∀ transport address,
      HandshakeLine.parse (HandshakeLine.new version transport address).display =
          .ok (HandshakeLine.new version transport address) ↔
        address ≠ "" ∧ '|' ∉ address.toList) ∧
    ∀ text line, HandshakeLine.parse text = .ok line →
      HandshakeLine.parse line.display = .ok line := by
  have hback : ∀ {line : HandshakeLine}, line.IsReadable →
      HandshakeLine.parse line.display = .ok line := by
    intro line hline
    have hparse := parse_display hline "" (by simp)
    rwa [String.append_empty] at hparse
  refine ⟨fun text line => accept_eq_ok_iff, fun text e => accept_eq_error_iff,
    fun version hversion transport address => ?_, fun text line h => hback (isReadable_of_parse h)⟩
  rw [← isReadable_new_iff hversion transport address]
  exact ⟨isReadable_of_parse, hback⟩

/-- A text with blanks around it and a plus sign, one with two faults, and a line whose address has
blanks at its ends. -/
theorem accept_grammar_blanks :
    hostOffer.accept "\u2003+1|01|unix| a b |jsonrpc\r\n" =
        .ok (HandshakeLine.new 1 .unix " a b ") ∧
      hostOffer.accept "1|99|udp|a|grpc" = .error (.unsupportedTransport "udp") ∧
      3 ≤ maxUInt32 ∧
      HandshakeLine.parse (HandshakeLine.new 3 .tcp " a ").display =
        .ok (HandshakeLine.new 3 .tcp " a ") ∧
      HandshakeLine.parse "7|+2|tcp|a|" = .ok ⟨7, 2, .tcp, "a", ""⟩ ∧
      HandshakeLine.parse (HandshakeLine.display ⟨7, 2, .tcp, "a", ""⟩) =
        .ok ⟨7, 2, .tcp, "a", ""⟩ := by
  obtain ⟨-, -, hnew, hread⟩ := accept_grammar hostOffer
  have hbound : 3 ≤ maxUInt32 := by decide
  have hparse : HandshakeLine.parse "7|+2|tcp|a|" = .ok ⟨7, 2, .tcp, "a", ""⟩ := by decide +kernel
  refine ⟨by decide +kernel, by decide +kernel, hbound, ?_, hparse, hread _ _ hparse⟩
  rw [hnew 3 hbound]
  exact ⟨by decide, by decide⟩

end PluginHost

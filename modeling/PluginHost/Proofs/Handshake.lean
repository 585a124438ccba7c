import PluginHost.Children.Program
import PluginHost.Children.Supervise
import PluginHost.Proofs.Announcement
import PluginHost.Proofs.Encoding

/-!
# The handshake of host and plugin

Host and plugin agree through two texts: the versions in the environment, which the plugin reads
(`parseVersions_versionsValue`), and the announcement, which the host reads (`accept_display`).
Between the two stands the choice of a version, which is the highest that both speak
(`negotiate_eq_some_iff`), whichever of them chooses.

`handshake_agreement` puts these together for a plugin that is started in any environment.
-/

namespace PluginHost

open Text Children

/-! ## The versions in the environment -/

theorem trimChars_toDigits (n : Nat) : trimChars (Nat.toDigits 10 n) = Nat.toDigits 10 n := by
  have hnone : ∀ c ∈ Nat.toDigits 10 n, isBlank c = false := fun c hc =>
    isBlank_of_isDigit (isDigit_of_mem_toDigits hc)
  apply TrimsTo.trimChars_eq
  exact ⟨⟨[], [], by simp⟩, fun c hc => hnone c (List.mem_of_mem_head? hc),
    fun c hc => hnone c (List.mem_of_mem_getLast? hc)⟩

theorem toList_commaSeparated (sep : String) (numbers : List Nat) :
    (commaSeparated sep numbers).toList =
      sep.toList.intercalate (numbers.map (Nat.toDigits 10)) := by
  rw [commaSeparated, String.toList_intercalate, List.map_map]
  congr 2
  funext n
  exact toList_toString n

/-- The versions that the host puts into the environment are those that a plugin reads there. -/
theorem parseVersions_versionsValue {offer : Offer} (h : ∀ v ∈ offer.versions, v ≤ maxUInt32) :
    parseVersions offer.versionsValue = offer.versions := by
  unfold parseVersions Offer.versionsValue
  rw [toList_commaSeparated]
  generalize offer.versions = versions at h
  by_cases hnil : versions = []
  · subst hnil
    rfl
  · have hsplit : splitOn ',' ([','].intercalate (versions.map (Nat.toDigits 10))) =
        versions.map (Nat.toDigits 10) := by
      apply splitOn_intercalate
      · rwa [ne_eq, List.map_eq_nil_iff]
      · simp only [List.mem_map]
        rintro _ ⟨v, -, rfl⟩
        exact notMem_toDigits (by decide) v
    rw [show ",".toList = [','] from rfl, hsplit]
    clear hsplit hnil
    induction versions with
    | nil => rfl
    | cons v versions ih =>
        have hread : readNat maxUInt32 (trimChars (Nat.toDigits 10 v)) = some v := by
          rw [trimChars_toDigits, readNat_toDigits (h v (by simp))]
        have hrest := ih fun w hw => h w (by simp [hw])
        simp only [List.map_cons, List.filterMap_cons, hread, hrest]

/-! ## The choice of a version -/

/-- A version that both sides speak. -/
def Offer.Shares (host plugin : Offer) (version : Nat) : Prop :=
  version ∈ host.versions ∧ version ∈ plugin.versions

/-- The highest of the versions that both sides speak is chosen. -/
theorem negotiate_eq_some_iff {ours theirs : List Nat} {version : Nat} :
    negotiate ours theirs = some version ↔
      (version ∈ ours ∧ version ∈ theirs) ∧ ∀ v ∈ ours, v ∈ theirs → v ≤ version := by
  simp [negotiate, List.max?_eq_some_iff]

theorem negotiate_eq_none_iff {ours theirs : List Nat} :
    negotiate ours theirs = none ↔ ∀ v ∈ ours, v ∉ theirs := by
  simp [negotiate, List.filter_eq_nil_iff]

/-- It makes no difference which side chooses. -/
theorem negotiate_comm (ours theirs : List Nat) :
    negotiate ours theirs = negotiate theirs ours := by
  ext version
  rw [negotiate_eq_some_iff, negotiate_eq_some_iff]
  constructor <;>
  · rintro ⟨⟨hours, htheirs⟩, hmax⟩
    exact ⟨⟨htheirs, hours⟩, fun v hv hv' => hmax v hv' hv⟩

/-! ## The announcement -/

/-- What may stand in an announcement as the address. -/
structure IsAddress (address : String) : Prop where
  nonempty : address ≠ ""
  noBar : '|' ∉ address.toList
  oneLine : '\n' ∉ address.toList

/-- A character that is no digit and does not stand in the address stands in no field. -/
theorem notMem_fields (version : Nat) (transport : Transport) {address : String} {c : Char}
    (hdigit : isDigit c = false) (hname : c ∉ "tcpunix".toList)
    (hprotocol : c ∉ channelProtocol.toList) (haddress : c ∉ address.toList) :
    ∀ field ∈ (HandshakeLine.new version transport address).fields, c ∉ field := by
  intro field hfield
  simp only [HandshakeLine.fields, HandshakeLine.new, List.mem_cons, List.not_mem_nil,
    or_false] at hfield
  rcases hfield with rfl | rfl | rfl | rfl | rfl
  · exact notMem_toDigits hdigit _
  · exact notMem_toDigits hdigit _
  · have hletters : transport.name.toList ⊆ "tcpunix".toList := by
      cases transport <;> simp [Transport.name]
    exact fun hmem => hname (hletters hmem)
  · exact haddress
  · exact hprotocol

/-- The host takes the announcement of a version that it speaks. -/
theorem accept_display {host : Offer} {version : Nat} (hversion : version ≤ maxUInt32)
    (hspoken : version ∈ host.versions) (transport : Transport) {address : String}
    (h : IsAddress address) :
    host.accept ((HandshakeLine.new version transport address).display ++ "\n") =
      .ok (HandshakeLine.new version transport address) := by
  have hreadable := (isReadable_new_iff hversion transport address).2 ⟨h.nonempty, h.noBar⟩
  have hnewline : ∀ c ∈ "\n".toList, isBlank c = true := List.forall_mem_singleton.2 rfl
  exact accept_eq_ok_iff.2
    ⟨_, _, hasFields_display hreadable hnewline, hreadable.isSpelled, rfl, hspoken, rfl⟩

/-! ## The plugin in its environment -/

/-- A plugin announces itself when it finds the cookie and speaks a version of the host. -/
theorem announce_eq {host : Offer} (plugin : Offer) (h : ∀ v ∈ host.versions, v ≤ maxUInt32)
    (cookie : Option Bytes) :
    announce plugin cookie (some (utf8 host.versionsValue)) =
      if cookie = some (utf8 plugin.cookie) then
        match negotiate plugin.versions host.versions with
        | some version => .ok version
        | none => .error (.noCommonVersion plugin.versions host.versions)
      else .error .notLaunchedByHost := by
  have hversions : (some (utf8 host.versionsValue)).bind text? = some host.versionsValue :=
    text?_utf8 _
  have hcookie : plugin.cookieMatches (cookie.bind text?) = true ↔
      cookie = some (utf8 plugin.cookie) := by
    rw [Offer.cookieMatches, beq_iff_eq, Option.bind_eq_some_iff]
    constructor
    · rintro ⟨bytes, rfl, hbytes⟩
      rw [text?_eq_some_iff.1 hbytes]
    · rintro rfl
      exact ⟨_, rfl, text?_utf8 _⟩
  cases hversion : negotiate plugin.versions host.versions <;>
    simp only [announce, hversions, parseVersions_versionsValue h, hversion, Bool.not_eq_true',
      Bool.eq_false_iff, ne_eq, hcookie, ite_not]

/-- The output of a plugin is one line, which the host takes for an announcement. -/
structure Announces (host : Offer) (output : Bytes) (line : HandshakeLine) : Prop where
  written : output = utf8 (line.display ++ "\n")
  oneLine : linesOf output = [output]
  accepted : host.accept (line.display ++ "\n") = .ok line
  announced : announced host output = .ok line

/-- An announcement is one line. -/
theorem newline_notMem_display (version : Nat) (transport : Transport) {address : String}
    (h : IsAddress address) :
    '\n' ∉ (HandshakeLine.new version transport address).display.toList := by
  rw [toList_display]
  exact notMem_intercalate (by decide)
    (notMem_fields version transport (by decide) (by decide) (by decide) h.oneLine)

theorem announces_display {host : Offer} {version : Nat} (hversion : version ≤ maxUInt32)
    (hspoken : version ∈ host.versions) (transport : Transport) {address : String}
    (h : IsAddress address) :
    Announces host (utf8 ((HandshakeLine.new version transport address).display ++ "\n"))
      (HandshakeLine.new version transport address) where
  written := rfl
  oneLine := by
    have hlines := linesOf_utf8_append (newline_notMem_display version transport h) []
    rwa [List.append_nil] at hlines
  accepted := accept_display hversion hspoken transport h
  announced := by
    rw [Children.announced, text?_utf8]
    exact accept_display hversion hspoken transport h

variable {σ : Type} (program : Program σ) (initial : σ) (written : σ → Bytes)

/-- A plugin either announces the version that is chosen, or writes nothing. -/
theorem launchUnder_cases {host plugin : Offer} (hhost : ∀ v ∈ host.versions, v ≤ maxUInt32)
    (transport : Transport) (address : String) {s : Start}
    (hversions : s.environment.lookup versionsVariable = some (utf8 host.versionsValue)) :
    (s.environment.lookup plugin.cookieVariable = some (utf8 plugin.cookie) ∧
      ∃ v, negotiate plugin.versions host.versions = some v ∧
        (launchUnder plugin program initial written transport address s).stdout =
          utf8 ((HandshakeLine.new v transport address).display ++ "\n")) ∨
    ((s.environment.lookup plugin.cookieVariable = some (utf8 plugin.cookie) →
        negotiate plugin.versions host.versions = none) ∧
      (launchUnder plugin program initial written transport address s).stdout = []) := by
  have hannounce := announce_eq plugin hhost
    (s.environment.lookup plugin.cookieVariable)
  by_cases hcookie : s.environment.lookup plugin.cookieVariable = some (utf8 plugin.cookie)
  · rw [if_pos hcookie] at hannounce
    cases hversion : negotiate plugin.versions host.versions with
    | none =>
        rw [hversion] at hannounce
        refine .inr ⟨fun _ => rfl, ?_⟩
        simp only [launchUnder, hversions, hannounce]
    | some v =>
        rw [hversion] at hannounce
        refine .inl ⟨hcookie, v, rfl, ?_⟩
        simp only [launchUnder, hversions, hannounce]
  · rw [if_neg hcookie] at hannounce
    refine .inr ⟨fun h => absurd h hcookie, ?_⟩
    simp only [launchUnder, hversions, hannounce]

/-- Host and plugin agree.  The plugin reads the versions that the host has put into its
environment.  It announces itself exactly when it finds the cookie and there is a version that both
speak, and then in one line, which the host takes, with the highest such version. -/
theorem handshake_agreement {host : Offer} (plugin : Offer)
    (hhost : ∀ v ∈ host.versions, v ≤ maxUInt32) (transport : Transport) {address : String}
    (haddress : IsAddress address) {s : Start}
    (hversions : s.environment.lookup versionsVariable = some (utf8 host.versionsValue)) :
    let output := (launchUnder plugin program initial written transport address s).stdout
    let cookie := s.environment.lookup plugin.cookieVariable
    ((s.environment.lookup versionsVariable).bind text?).map parseVersions = some host.versions ∧
      negotiate plugin.versions host.versions = negotiate host.versions plugin.versions ∧
      (output ≠ [] ↔ cookie = some (utf8 plugin.cookie) ∧ ∃ v, host.Shares plugin v) ∧
      (output ≠ [] → ∃ v, host.Shares plugin v ∧ (∀ w, host.Shares plugin w → w ≤ v) ∧
        negotiate plugin.versions host.versions = some v ∧
        Announces host output (HandshakeLine.new v transport address)) := by
  intro output cookie
  have hread : ((s.environment.lookup versionsVariable).bind text?).map parseVersions =
      some host.versions := by
    rw [hversions, Option.bind_some, text?_utf8, Option.map_some, parseVersions_versionsValue hhost]
  refine ⟨hread, negotiate_comm _ _, ?_⟩
  rcases launchUnder_cases program initial written hhost transport address hversions with
    ⟨hcookie, v, hversion, hline⟩ | ⟨hnone, hnothing⟩
  · obtain ⟨⟨hplugin, hspoken⟩, hmax⟩ := negotiate_eq_some_iff.1 hversion
    have hannounces := announces_display (hhost v hspoken) hspoken transport haddress
    rw [← hline] at hannounces
    have houtput : output ≠ [] := by
      rw [show output = _ from hline, utf8_append]
      exact List.append_ne_nil_of_right_ne_nil _ (by decide)
    exact ⟨iff_of_true houtput ⟨hcookie, v, hspoken, hplugin⟩, fun _ =>
      ⟨v, ⟨hspoken, hplugin⟩, fun w hw => hmax w hw.2 hw.1, hversion, hannounces⟩⟩
  · have hrefused : ¬(cookie = some (utf8 plugin.cookie) ∧ ∃ v, host.Shares plugin v) := by
      rintro ⟨hcookie, v, hspoken, hplugin⟩
      exact negotiate_eq_none_iff.1 (hnone hcookie) v hplugin hspoken
    exact ⟨iff_of_false (fun houtput => houtput hnothing) hrefused,
      fun houtput => absurd hnothing houtput⟩

/-- An offer of several versions, out of order and with one of them repeated. -/
def manyVersions : Offer := { hostOffer with versions := [3, 1, 4294967295, 3] }

/-- An offer of other versions. -/
def fewVersions : Offer := { hostOffer with versions := [0, 3, 1] }

/-- A plugin that a host of several versions has started. -/
def startedByHost : Start where
  name := utf8 "quiet"
  args := []
  environment := pluginEnvironment [("PATH", utf8 "/bin")] manyVersions
  pid := 1

/-- A program that does nothing. -/
def quietProgram : Program Unit where
  info _ := ⟨"quiet", "", ""⟩
  run u _ := (.ok (), u)

theorem handshake_agreement_manyVersions :
    let output := (launchUnder fewVersions quietProgram () (fun _ => []) .unix "/tmp/a.sock"
      startedByHost).stdout
    (∀ v ∈ manyVersions.versions, v ≤ maxUInt32) ∧ IsAddress "/tmp/a.sock" ∧
      startedByHost.environment.lookup versionsVariable = some (utf8 manyVersions.versionsValue) ∧
      output = utf8 "1|3|unix|/tmp/a.sock|jsonrpc\n" ∧
      Announces manyVersions output (HandshakeLine.new 3 .unix "/tmp/a.sock") := by
  intro output
  have hbound : ∀ v ∈ manyVersions.versions, v ≤ maxUInt32 := by decide
  have haddress : IsAddress "/tmp/a.sock" := ⟨by decide, by decide, by decide⟩
  have hversions : startedByHost.environment.lookup versionsVariable =
      some (utf8 manyVersions.versionsValue) := by
    decide +kernel
  have houtput : output = utf8 "1|3|unix|/tmp/a.sock|jsonrpc\n" := by
    decide +kernel
  obtain ⟨-, -, -, hannounces⟩ := handshake_agreement quietProgram () (fun _ => []) fewVersions
    hbound .unix haddress hversions
  have hnonempty : output ≠ [] := by
    rw [houtput]
    decide
  obtain ⟨v, -, -, hversion, hline⟩ := hannounces hnonempty
  have hthree : negotiate fewVersions.versions manyVersions.versions = some 3 := by decide
  rw [hthree] at hversion
  cases hversion
  exact ⟨hbound, haddress, hversions, houtput, hline⟩

end PluginHost

import PluginHost.Config.Storage
import PluginHost.Proofs.Encoding
import PluginHost.Proofs.Files.Reading
import PluginHost.Proofs.Json.Members
import PluginHost.Proofs.Toml.Lines

/-!
# A saved configuration is loaded again

The document of a configuration has three groups of settings.  `readsAs_documentChars` reads them
back into the root table `rootTable`, with every text, key and number as it was, and
`ofMembers?_rootTable` finds the configuration in it: what was left out has its default again.

`save_load` puts both together with the file: what has been saved is loaded.  A configuration that
cannot be written leaves every file as it was.
-/

namespace PluginHost.Config

open Toml

/-- The tokens are ordered by name, with one token per name. -/
def Ordered (c : Config) : Prop := (c.tokens.map (·.1)).Pairwise (· < ·)

instance (c : Config) : Decidable c.Ordered :=
  inferInstanceAs (Decidable ((c.tokens.map (·.1)).Pairwise (· < ·)))

/-! ## The groups of a document -/

/-- A setting that holds a text. -/
def textSetting (key text : String) : Setting := ⟨key, stringForm text.toList, .string text⟩

/-- A setting that holds a number. -/
def natSetting (key : String) (n : Nat) : Setting := ⟨key, natForm n, .integer n⟩

/-- The settings of the log. -/
def logSettings (c : Config) : List Setting :=
  [textSetting "level" c.level, textSetting "format" c.format.name]

/-- The settings of the plugins. -/
def pluginSettings (c : Config) : List Setting :=
  (c.directory.map (textSetting "directory")).toList
    ++ [natSetting "handshake_timeout_secs" c.handshakeSeconds]
    ++ (c.runSeconds.map (natSetting "run_timeout_secs")).toList

/-- The tokens. -/
def tokenSettings (c : Config) : List Setting :=
  c.tokens.map fun (name, value) => textSetting name value

/-- The document in its groups. -/
theorem documentChars_eq (c : Config) :
    c.documentChars =
      headerLine ["logging"] ++ (settingLines c.logSettings ++ '\n' ::
        (headerLine ["plugins"] ++ (settingLines c.pluginSettings ++ '\n' ::
          (headerLine ["github", "tokens"] ++ (settingLines c.tokenSettings ++ []))))) := by
  have htokens : settingLines c.tokenSettings =
      c.tokens.flatMap fun (name, value) => assignmentLine name (stringForm value.toList) := by
    simp [settingLines, tokenSettings, textSetting, List.flatMap_map]
  rw [htokens]
  cases hd : c.directory <;> cases hr : c.runSeconds <;>
    simp [documentChars, settingLines, logSettings, pluginSettings, textSetting, natSetting, hd, hr]

theorem writesValue_textSetting (key text : String) :
    WritesValue (textSetting key text).form (textSetting key text).value :=
  writesValue_string text

theorem writesValue_natSetting (key : String) {n : Nat} (h : n ≤ Text.maxInt64) :
    WritesValue (natSetting key n).form (natSetting key n).value := by
  have hform : (natSetting key n).form = Nat.toDigits 10 n := Text.toList_toString n
  rw [hform]
  exact writesValue_nat h

theorem writesValue_pluginSettings {c : Config} (h : c.isWritable = true) :
    ∀ s ∈ c.pluginSettings, WritesValue s.form s.value := by
  simp only [isWritable, Bool.and_eq_true, decide_eq_true_eq, Option.all_eq_true] at h
  intro s hs
  simp only [pluginSettings, List.mem_append, Option.mem_toList, Option.map_eq_some_iff,
    List.mem_singleton] at hs
  rcases hs with (⟨d, -, rfl⟩ | rfl) | ⟨n, hn, rfl⟩
  · exact writesValue_textSetting _ _
  · exact writesValue_natSetting _ h.1
  · exact writesValue_natSetting _ (h.2 n hn)

theorem keys_pluginSettings (c : Config) :
    (c.pluginSettings.map (·.key)).Pairwise (· ≠ ·) := by
  cases hd : c.directory <;> cases hr : c.runSeconds <;>
    simp [pluginSettings, textSetting, natSetting, hd, hr]

/-! ## Reading the document -/

/-- The root table of the document. -/
def rootTable (c : Config) : Members :=
  [("logging", .table .header (settingMembers c.logSettings)),
    ("plugins", .table .header (settingMembers c.pluginSettings)),
    ("github", .table .implied [("tokens", .table .header (settingMembers c.tokenSettings))])]

/-- The lines of the document make the three groups. -/
theorem readsAs_documentChars {c : Config} (hordered : c.Ordered)
    (hwritable : c.isWritable = true) :
    ReadsAs ⟨[], []⟩ c.documentChars ⟨c.rootTable, ["github", "tokens"]⟩ := by
  rw [documentChars_eq]
  refine readsAs_group [] "logging" (by decide) (fun m => [("logging", .table .header m)]) rfl ?_
    ?_ (by simp [logSettings, textSetting]) (readsAs_newline ?_)
  · intro change members
    cases h : change members <;> simp [changeAt, find?, put, h]
  · simp only [logSettings, List.forall_mem_cons]
    exact ⟨writesValue_textSetting _ _, writesValue_textSetting _ _, by simp⟩
  refine readsAs_group [] "plugins" (by decide)
    (fun m => [("logging", .table .header (settingMembers c.logSettings)),
      ("plugins", .table .header m)]) rfl ?_ (writesValue_pluginSettings hwritable)
    (keys_pluginSettings c) (readsAs_newline ?_)
  · intro change members
    cases h : change members <;> simp [changeAt, find?, put, h]
  refine readsAs_group ["github"] "tokens" (by decide)
    (fun m => [("logging", .table .header (settingMembers c.logSettings)),
      ("plugins", .table .header (settingMembers c.pluginSettings)),
      ("github", .table .implied [("tokens", .table .header m)])]) rfl ?_ ?_ ?_ (readsAs_nil _)
  · intro change members
    cases h : change members <;> simp [changeAt, find?, put, h]
  · intro s hs
    obtain ⟨⟨name, value⟩, -, rfl⟩ := List.mem_map.1 hs
    exact writesValue_textSetting _ _
  · have hnames : c.tokenSettings.map (·.key) = c.tokens.map (·.1) := by
      simp [tokenSettings, textSetting]
    rw [hnames]
    exact hordered.imp fun hlt => String.ne_of_lt hlt

theorem parse?_documentChars {c : Config} (hordered : c.Ordered) (hwritable : c.isWritable = true) :
    parse? (String.ofList c.documentChars) = some (valuesOf c.rootTable) := by
  have hread := readsAs_documentChars hordered hwritable (c.documentChars.length + 1) (by omega)
  obtain ⟨cs, hcs⟩ : ∃ cs, c.documentChars = '[' :: cs := ⟨_, documentChars_eq c⟩
  have hmark : ('['.toNat == 0xFEFF) = false := by decide
  rw [parse?, String.toList_ofList, hcs]
  dsimp only
  rw [hmark, if_neg Bool.false_ne_true, ← hcs, hread]
  rfl

theorem valuesOf_settingMembers (settings : List Setting) :
    valuesOf (settingMembers settings) = settings.map fun s => (s.key, s.value) := by
  induction settings with
  | nil => rfl
  | cons s settings ih =>
      rw [settingMembers, List.map_cons, valuesOf, Node.toValue, List.map_cons, ← ih]
      rfl

theorem textsOf?_strings (members : List (String × String)) :
    textsOf? (members.map fun m => (m.1, .string m.2)) = some members := by
  induction members with
  | nil => rfl
  | cons m members ih =>
      rw [List.map_cons, textsOf?, ih]
      rfl

theorem tokensOf?_table {tokens : List (String × String)}
    (hordered : (tokens.map (·.1)).Pairwise (· < ·)) :
    tokensOf? (.table (tokens.map fun m => (m.1, .string m.2))) = some tokens := by
  simp only [tokensOf?, Group.ofValue?, textsOf?_strings, Option.map_some,
    Json.membersOf_of_pairwise hordered]

theorem natOf?_integer (n : Nat) : natOf? (.integer n) = some n := by
  simp [natOf?]

theorem formatOf?_name (format : LogFormat) : formatOf? (.string format.name) = some format := by
  cases format <;> rfl

section Groups

variable {α : Type} (name : String) (place : Nat) (missing : α) (read : Value → Option α)

@[simp] theorem Group.get_nil : (Group.named []).get name place missing read = some missing := rfl

@[simp] theorem Group.get_self (v : Value) (members : List (String × Value)) :
    (Group.named ((name, v) :: members)).get name place missing read = read v := by
  simp [Group.get]

/-- Settings of other names are passed over. -/
theorem Group.get_other {name} {other : String} (h : name ≠ other) (v : Value)
    (members : List (String × Value)) :
    (Group.named ((other, v) :: members)).get name place missing read =
      (Group.named members).get name place missing read := by
  have hname : (name == other) = false := beq_eq_false_iff_ne.2 h
  simp only [Group.get, List.lookup_cons, hname]

end Groups

theorem readLogging_settings (c before : Config) :
    readGroup readLogging before (.table (valuesOf (settingMembers c.logSettings))) =
      some { before with level := c.level, format := c.format } := by
  have hformat : "format" ≠ "level" := by decide
  rw [valuesOf_settingMembers]
  simp only [logSettings, textSetting, List.map_cons, List.map_nil, readGroup, Group.ofValue?,
    readLogging, Group.get_self, Group.get_other _ _ _ hformat, formatOf?_name, textOf?,
    bind, Option.bind, pure]

theorem readPlugins_settings (c : Config) {before : Config} (hdirectory : before.directory = none)
    (hrun : before.runSeconds = none) :
    readGroup readPlugins before (.table (valuesOf (settingMembers c.pluginSettings))) =
      some { before with
        directory := c.directory, handshakeSeconds := c.handshakeSeconds,
        runSeconds := c.runSeconds } := by
  have hfirst : "handshake_timeout_secs" ≠ "directory" := by decide
  have hsecond : "run_timeout_secs" ≠ "directory" := by decide
  have hthird : "run_timeout_secs" ≠ "handshake_timeout_secs" := by decide
  have hfourth : "directory" ≠ "handshake_timeout_secs" := by decide
  have hfifth : "directory" ≠ "run_timeout_secs" := by decide
  rw [valuesOf_settingMembers]
  cases hd : c.directory <;> cases hr : c.runSeconds <;>
    simp only [pluginSettings, textSetting, natSetting, hd, hr, hdirectory, hrun, Option.map_none,
      Option.map_some, Option.toList_none, Option.toList_some, List.nil_append, List.append_nil,
      List.cons_append, List.map_cons, List.map_nil, readGroup, Group.ofValue?, readPlugins,
      Group.get_nil, Group.get_self, Group.get_other _ _ _ hfirst, Group.get_other _ _ _ hsecond,
      Group.get_other _ _ _ hthird, Group.get_other _ _ _ hfourth, Group.get_other _ _ _ hfifth,
      textOf?, natOf?_integer, bind, Option.bind, pure]

theorem readTokens_settings {c : Config} (hordered : c.Ordered) (before : Config) :
    readGroup readTokens before
        (.table [("tokens", .table (valuesOf (settingMembers c.tokenSettings)))]) =
      some { before with tokens := c.tokens } := by
  have hvalues : valuesOf (settingMembers c.tokenSettings) =
      c.tokens.map fun m => (m.1, .string m.2) := by
    rw [valuesOf_settingMembers]
    simp [tokenSettings, textSetting]
  rw [hvalues]
  simp only [readGroup, Group.ofValue?, readTokens, Group.get_self, tokensOf?_table hordered,
    bind, Option.bind, pure]

/-- The groups give the configuration. -/
theorem ofMembers?_rootTable {c : Config} (hordered : c.Ordered) :
    ofMembers? (valuesOf c.rootTable) = some c := by
  have hplugins : "plugins" ≠ "logging" := by decide
  have hgithub : "github" ≠ "logging" := by decide
  have hgithub' : "github" ≠ "plugins" := by decide
  have hroot : valuesOf c.rootTable =
      [("logging", .table (valuesOf (settingMembers c.logSettings))),
        ("plugins", .table (valuesOf (settingMembers c.pluginSettings))),
        ("github", .table [("tokens", .table (valuesOf (settingMembers c.tokenSettings)))])] := rfl
  rw [hroot, ofMembers?]
  simp only [Group.get_self, Group.get_other _ _ _ hplugins, Group.get_other _ _ _ hgithub,
    Group.get_other _ _ _ hgithub', readLogging_settings, bind, Option.bind]
  rw [readPlugins_settings c rfl rfl]
  dsimp only
  rw [readTokens_settings hordered]

/-- A document that has been written is read back. -/
theorem ofDocument?_document {c : Config} (hordered : c.Ordered) {text : String}
    (h : c.document? = some text) : ofDocument? text = some c := by
  unfold document? at h
  split_ifs at h with hwritable
  rw [← Option.some.inj h, ofDocument?, parse?_documentChars hordered hwritable]
  exact ofMembers?_rootTable hordered

/-! ## The file -/

/-- Saving makes directories first.  It writes the document behind them, or it fails and leaves it
at that. -/
theorem save_cases (c : Config) (t : FileTree) (dir : Path) :
    ∃ t₁, t.AddsDirectories t₁ ∧
      ((∃ text t₂, c.document? = some text ∧ t₁.write (fileIn dir) (utf8 text) = .ok t₂ ∧
          c.save t dir = (.ok (fileIn dir), t₂)) ∨
        ∃ e, c.save t dir = (.error e, t₁)) := by
  have hmakes := (t.makeDirectories_makes dir).addsDirectories
  unfold save
  cases hmade : t.makeDirectories dir with
  | mk result t₁ =>
      rw [hmade] at hmakes
      refine ⟨t₁, hmakes, ?_⟩
      cases result with
      | error e => exact .inr ⟨_, rfl⟩
      | ok u =>
          dsimp only
          cases hdocument : c.document? with
          | none => exact .inr ⟨_, rfl⟩
          | some text =>
              dsimp only
              cases hwrite : t₁.write (fileIn dir) (utf8 text) with
              | error e => exact .inr ⟨_, rfl⟩
              | ok t₂ => exact .inl ⟨text, t₂, rfl, hwrite, rfl⟩

/-- A configuration that was not saved leaves all that was there. -/
theorem save_error {c : Config} {t t' : FileTree} {dir : Path} {e : ConfigError}
    (h : c.save t dir = (.error e, t')) : t.AddsDirectories t' := by
  obtain ⟨t₁, hadds, ⟨text, t₂, -, -, hsave⟩ | ⟨e, hsave⟩⟩ := c.save_cases t dir
  · rw [hsave] at h
    cases h
  · rw [hsave] at h
    cases h
    exact hadds

/-- What is loaded from a file that can be read depends on what is read. -/
theorem load_of_read {t : FileTree} {dir : Path} {data : Bytes}
    (h : t.read (fileIn dir) = .ok data) :
    load t dir =
      match text? data with
      | none => .error (.read (fileIn dir) .invalidText)
      | some text =>
          match ofDocument? text with
          | some c => .ok c
          | none => .error (.parse (fileIn dir)) := by
  have hthere := FileTree.isThere_of_read h
  cases htext : text? data with
  | none =>
      simp only [load, hthere, h, htext, Bool.not_true, Bool.false_eq_true, if_false]
  | some text =>
      cases hdocument : ofDocument? text <;>
        simp only [load, hthere, h, htext, hdocument, Bool.not_true, Bool.false_eq_true, if_false]

/-- What has been saved is loaded, also when directories have been made since. -/
theorem load_of_save {c : Config} (hordered : c.Ordered) {t t' t'' : FileTree} {dir p : Path}
    (h : c.save t dir = (.ok p, t')) (hadds : t'.AddsDirectories t'') : load t'' dir = .ok c := by
  obtain ⟨t₁, -, ⟨text, t₂, hdocument, hwrite, hsave⟩ | ⟨e, hsave⟩⟩ := c.save_cases t dir
  · rw [hsave] at h
    cases h
    rw [load_of_read (hadds.read (FileTree.read_write hwrite)), text?_utf8]
    dsimp only
    rw [ofDocument?_document hordered hdocument]
  · rw [hsave] at h
    cases h

/-- A configuration that is saved into a directory is loaded from it again, whatever the tree of
files was before.  One that cannot be written as a document leaves its file as it was, and makes
at most directories. -/
theorem save_load {c : Config} (hordered : c.Ordered) (t : FileTree) (dir : Path) :
    (∀ p, (c.save t dir).1 = .ok p → load (c.save t dir).2 dir = .ok c) ∧
      ((c.save t dir).1 = .error .serialize →
        t.AddsDirectories (c.save t dir).2 ∧
          ∀ data, t.read (fileIn dir) = .ok data →
            (c.save t dir).2.read (fileIn dir) = .ok data) := by
  refine ⟨fun p hp => load_of_save hordered (Prod.ext hp rfl) (.refl _), fun he => ?_⟩
  have hadds := save_error (Prod.ext he rfl : c.save t dir = (.error .serialize, (c.save t dir).2))
  exact ⟨hadds, fun data hread => hadds.read hread⟩

/-- A configuration of texts and names that cannot be written as they are. -/
def quotedConfig : Config where
  level := "two\nlines"
  format := .json
  directory := some "C:\\it's \"here\""
  handshakeSeconds := Text.maxInt64
  runSeconds := some 0
  tokens := [("", "a\x00b"), ("a.b", "'''"), ("it's \"me\"", ""), ("two\nlines", "\"\"\"\"")]

/-- One whose limit is too large for a document. -/
def patientConfig : Config := { quotedConfig with runSeconds := some (Text.maxInt64 + 1) }

/-- A configuration directory with a file that is no configuration. -/
def brokenTree : FileTree where
  entries := [([utf8 "cfg"], .directory),
    ([utf8 "cfg", utf8 "config.toml"], .file 0o600 (utf8 "logging = 3"))]
  workingDirectory := []

theorem save_load_quotedConfig :
    quotedConfig.Ordered ∧
      (quotedConfig.save brokenTree (utf8 "cfg")).1 = .ok (utf8 "cfg/config.toml") ∧
      load (quotedConfig.save brokenTree (utf8 "cfg")).2 (utf8 "cfg") = .ok quotedConfig ∧
      (patientConfig.save brokenTree (utf8 "cfg")).1 = .error .serialize ∧
      (patientConfig.save brokenTree (utf8 "cfg")).2.read (utf8 "cfg/config.toml") =
        .ok (utf8 "logging = 3") := by
  have hordered : quotedConfig.Ordered := by decide
  have hsaved : (quotedConfig.save brokenTree (utf8 "cfg")).1 = .ok (utf8 "cfg/config.toml") := by
    decide +kernel
  have hfailed : (patientConfig.save brokenTree (utf8 "cfg")).1 = .error .serialize := by
    decide +kernel
  have hloaded := (save_load hordered brokenTree (utf8 "cfg")).1 _ hsaved
  obtain ⟨-, hkept⟩ := (save_load (c := patientConfig) hordered brokenTree (utf8 "cfg")).2 hfailed
  exact ⟨hordered, hsaved, hloaded, hfailed, hkept _ rfl⟩

end PluginHost.Config

import PluginHost.Proofs.Config.Edits
import PluginHost.Proofs.Text.SmallLetters

/-!
# Changing settings from texts

A change names a setting and gives a text.  What the text stands for is told by `Denotes`, without
looking at the configuration: `exists_reading` says of every change that it is refused, or that it
puts one setting in place, and that this depends on the name and the text alone.

Everything else is read off `putSetting` and `setting`, which are laid out like the fields of a
record (`setting_putSetting`, `eq_of_settings`).  `attempt` is a change that leaves the configuration
where it is refused, `attemptAll` does several.  `attemptAll_last` is the induction for the last
accepted change of a setting, and `settled_attemptAll` the one for settings that can be set to their
own texts.
-/

namespace PluginHost.Config

open Text

/-- What a setting can be set to. -/
inductive Setting where
  | level (name : String)
  | format (f : LogFormat)
  | directory (path : Option String)
  | handshakeSeconds (seconds : Nat)
  | runSeconds (limit : Option Nat)
  deriving DecidableEq, Repr

/-- The name under which the setting is found. -/
def Setting.key : Setting → Key
  | .level _ => .level
  | .format _ => .format
  | .directory _ => .directory
  | .handshakeSeconds _ => .handshakeSeconds
  | .runSeconds _ => .runSeconds

/-- The text of a setting.  One that is absent has the empty text. -/
def Setting.text : Setting → String
  | .level name => name
  | .format f => f.name
  | .directory path => path.getD ""
  | .handshakeSeconds seconds => toString seconds
  | .runSeconds limit => (limit.map toString).getD ""

/-- The setting under a name. -/
def setting (c : Config) : Key → Setting
  | .level => .level c.level
  | .format => .format c.format
  | .directory => .directory c.directory
  | .handshakeSeconds => .handshakeSeconds c.handshakeSeconds
  | .runSeconds => .runSeconds c.runSeconds

/-- The configuration with one setting put in its place. -/
def putSetting (c : Config) : Setting → Config
  | .level name => { c with level := name }
  | .format f => { c with format := f }
  | .directory path => { c with directory := path }
  | .handshakeSeconds seconds => { c with handshakeSeconds := seconds }
  | .runSeconds limit => { c with runSeconds := limit }

/-- What a text stands for.  Levels and formats are named in any letter case; numbers are digits with
an optional plus sign, below `2 ^ 64`; and a handshake takes some time. -/
inductive Denotes : String → Setting → Prop
  | level {text : String} : lowercase text ∈ levels → Denotes text (.level (lowercase text))
  | format {text : String} {f : LogFormat} : lowercase text = f.name → Denotes text (.format f)
  | noDirectory : Denotes "" (.directory none)
  | directory {text : String} : text ≠ "" → Denotes text (.directory (some text))
  | handshakeSeconds {text : String} {seconds : Nat} :
      IsNumeral text.toList seconds → 0 < seconds → seconds ≤ maxUInt64 →
        Denotes text (.handshakeSeconds seconds)
  | noLimit {text : String} : text = "" ∨ text = "none" → Denotes text (.runSeconds none)
  | runSeconds {text : String} {seconds : Nat} :
      IsNumeral text.toList seconds → seconds ≤ maxUInt64 →
        Denotes text (.runSeconds (some seconds))

/-- The setting that a change puts in place. -/
structure Gives (name text : String) (s : Setting) : Prop where
  name_eq : name = s.key.name
  denotes : Denotes text s

/-- The configuration after a change.  A change that is refused leaves it. -/
def attempt (c : Config) (name text : String) : Config := (c.set name text).toOption.getD c

/-- The configuration after several changes. -/
def attemptAll (c : Config) (changes : List (String × String)) : Config :=
  changes.foldl (fun c change => c.attempt change.1 change.2) c

/-! ## Settings as fields -/

theorem setting_putSetting (c : Config) (s : Setting) (key : Key) :
    (c.putSetting s).setting key = if key = s.key then s else c.setting key := by
  cases s <;> cases key <;> rfl

theorem tokens_putSetting (c : Config) (s : Setting) : (c.putSetting s).tokens = c.tokens := by
  cases s <;> rfl

theorem key_setting (c : Config) (key : Key) : (c.setting key).key = key := by
  cases key <;> rfl

/-- A configuration is its settings and its tokens. -/
theorem eq_of_settings {c c' : Config} (hsettings : ∀ key, c.setting key = c'.setting key)
    (htokens : c.tokens = c'.tokens) : c = c' := by
  have hlevel := hsettings .level
  have hformat := hsettings .format
  have hdirectory := hsettings .directory
  have hhandshake := hsettings .handshakeSeconds
  have hrun := hsettings .runSeconds
  cases c
  cases c'
  simp_all [setting]

theorem putSetting_putSetting (c : Config) {s s' : Setting} (h : s.key = s'.key) :
    (c.putSetting s).putSetting s' = c.putSetting s' := by
  apply eq_of_settings
  · intro key
    simp only [setting_putSetting, h]
    split <;> rfl
  · simp only [tokens_putSetting]

theorem putSetting_comm (c : Config) {s s' : Setting} (h : s.key ≠ s'.key) :
    (c.putSetting s).putSetting s' = (c.putSetting s').putSetting s := by
  apply eq_of_settings
  · intro key
    simp only [setting_putSetting]
    by_cases hs : key = s.key
    · have hs' : key ≠ s'.key := hs ▸ h
      simp only [if_pos hs, if_neg hs']
    · simp only [if_neg hs]
  · simp only [tokens_putSetting]

theorem putSetting_setting (c : Config) (key : Key) : c.putSetting (c.setting key) = c := by
  apply eq_of_settings
  · intro other
    rw [setting_putSetting, key_setting]
    split
    · rename_i heq
      rw [heq]
    · rfl
  · rw [tokens_putSetting]

/-! ## What a text stands for -/

/-- The words for no limit are no numbers. -/
theorem not_isNumeral_of_noLimit {text : String} (h : text = "" ∨ text = "none") (n : Nat) :
    ¬IsNumeral text.toList n := by
  intro hn
  obtain ⟨d, hd, hdigit⟩ := hn.exists_digit
  have hempty : "".toList.any Char.isDigit = false := by decide
  have hword : "none".toList.any Char.isDigit = false := by decide
  rcases h with rfl | rfl
  · exact absurd hdigit (List.any_eq_false.1 hempty d hd)
  · exact absurd hdigit (List.any_eq_false.1 hword d hd)

/-- Under one name, a text stands for one setting. -/
theorem Denotes.unique {text : String} {s s' : Setting} (h : Denotes text s) (h' : Denotes text s')
    (hkey : s.key = s'.key) : s = s' := by
  cases h with
  | level hlevel =>
      cases h' with
      | level => rfl
      | _ => cases hkey
  | format hname =>
      cases h' with
      | @format _ f hname' =>
          rw [hname] at hname'
          rename_i f'
          cases f <;> cases f' <;> first | rfl | exact absurd hname' (by decide)
      | _ => cases hkey
  | noDirectory =>
      cases h' with
      | noDirectory => rfl
      | directory hne => exact absurd rfl hne
      | _ => cases hkey
  | directory hne =>
      cases h' with
      | noDirectory => exact absurd rfl hne
      | directory => rfl
      | _ => cases hkey
  | handshakeSeconds hn =>
      cases h' with
      | handshakeSeconds hn' => rw [hn.unique hn']
      | _ => cases hkey
  | noLimit hword =>
      cases h' with
      | noLimit => rfl
      | runSeconds hn => exact absurd hn (not_isNumeral_of_noLimit hword _)
      | _ => cases hkey
  | runSeconds hn =>
      cases h' with
      | noLimit hword => exact absurd hn (not_isNumeral_of_noLimit hword _)
      | runSeconds hn' => rw [hn.unique hn']
      | _ => cases hkey

/-! ## What a change does -/

/-- Whether the text is accepted for the setting, and as what, does not depend on the
configuration. -/
def HasReading (key : Key) (text : String) : Prop :=
  ∃ r : Except String Setting, (∀ c : Config, c.setKey key text = r.map c.putSetting) ∧
    ∀ s, r = .ok s ↔ s.key = key ∧ Denotes text s

section Reading

variable {key : Key} {text : String}

theorem hasReading_of_ok {s : Setting}
    (hset : ∀ c : Config, c.setKey key text = .ok (c.putSetting s)) (hkey : s.key = key)
    (hdenotes : Denotes text s) : HasReading key text := by
  refine ⟨.ok s, hset, fun s' => ?_⟩
  constructor
  · intro heq
    cases heq
    exact ⟨hkey, hdenotes⟩
  · intro ⟨hkey', hdenotes'⟩
    rw [hdenotes.unique hdenotes' (hkey.trans hkey'.symm)]

theorem hasReading_of_error {reason : String}
    (hset : ∀ c : Config, c.setKey key text = .error reason)
    (hnone : ∀ s : Setting, s.key = key → ¬Denotes text s) : HasReading key text :=
  ⟨.error reason, hset, fun s => iff_of_false nofun fun h => hnone s h.1 h.2⟩

end Reading

theorem hasReading_level (text : String) : HasReading .level text := by
  by_cases hlevel : levels.contains (lowercase text) = true
  · apply hasReading_of_ok (s := .level (lowercase text)) _ rfl
    · exact .level (List.contains_iff_mem.1 hlevel)
    · intro c
      simp only [setKey, hlevel, if_true]
      rfl
  · apply hasReading_of_error
    · intro c
      simp only [setKey, hlevel]
      rfl
    · intro s hkey hdenotes
      cases hdenotes with
      | level hmem => exact hlevel (List.contains_iff_mem.2 hmem)
      | _ => cases hkey

theorem hasReading_format (text : String) : HasReading .format text := by
  by_cases hname : ∃ f : LogFormat, lowercase text = f.name
  · obtain ⟨f, hname⟩ := hname
    apply hasReading_of_ok (s := .format f) _ rfl (.format hname)
    intro c
    simp only [setKey, hname]
    cases f <;> rfl
  · apply hasReading_of_error
    · intro c
      simp only [setKey, beq_iff_eq]
      rw [if_neg fun h => hname ⟨.text, h⟩, if_neg fun h => hname ⟨.json, h⟩]
    · intro s hkey hdenotes
      cases hdenotes with
      | format heq => exact hname ⟨_, heq⟩
      | _ => cases hkey

theorem hasReading_directory (text : String) : HasReading .directory text := by
  by_cases hempty : text = ""
  · subst hempty
    exact hasReading_of_ok (fun _ => rfl) rfl .noDirectory
  · apply hasReading_of_ok (s := .directory (some text)) _ rfl (.directory hempty)
    intro c
    have hfull : text.isEmpty = false := by simpa using hempty
    simp only [setKey, hfull]
    rfl

/-- What is not read as a number of 64 bits spells none. -/
theorem not_isNumeral_of_readNat {text : String} (hread : readNat maxUInt64 text.toList = none)
    {n : Nat} (hbound : n ≤ maxUInt64) : ¬IsNumeral text.toList n := by
  intro hn
  rw [readNat_eq_some_iff.2 ⟨hn, hbound⟩] at hread
  cases hread

theorem hasReading_handshakeSeconds (text : String) : HasReading .handshakeSeconds text := by
  cases hread : readNat maxUInt64 text.toList with
  | none =>
      apply hasReading_of_error
      · intro c
        simp only [setKey, hread]
        rfl
      · intro s hkey hdenotes
        cases hdenotes with
        | handshakeSeconds hn _ hbound => exact not_isNumeral_of_readNat hread hbound hn
        | _ => cases hkey
  | some seconds =>
      obtain ⟨hn, hbound⟩ := readNat_eq_some_iff.1 hread
      cases seconds with
      | zero =>
          apply hasReading_of_error
          · intro c
            simp only [setKey, hread]
            rfl
          · intro s hkey hdenotes
            cases hdenotes with
            | handshakeSeconds hn' hpositive =>
                rw [hn'.unique hn] at hpositive
                exact Nat.lt_irrefl 0 hpositive
            | _ => cases hkey
      | succ n =>
          apply hasReading_of_ok (s := .handshakeSeconds (n + 1)) _ rfl
          · exact .handshakeSeconds hn (Nat.succ_pos n) hbound
          · intro c
            simp only [setKey, hread]
            rfl

theorem hasReading_runSeconds (text : String) : HasReading .runSeconds text := by
  by_cases hword : text = "" ∨ text = "none"
  · apply hasReading_of_ok (s := .runSeconds none) _ rfl (.noLimit hword)
    intro c
    simp only [setKey, Bool.or_eq_true, beq_iff_eq, if_pos hword]
    rfl
  · cases hread : readNat maxUInt64 text.toList with
    | none =>
        apply hasReading_of_error
        · intro c
          simp only [setKey, Bool.or_eq_true, beq_iff_eq, if_neg hword, hread]
          rfl
        · intro s hkey hdenotes
          cases hdenotes with
          | noLimit h => exact hword h
          | runSeconds hn hbound => exact not_isNumeral_of_readNat hread hbound hn
          | _ => cases hkey
    | some seconds =>
        obtain ⟨hn, hbound⟩ := readNat_eq_some_iff.1 hread
        apply hasReading_of_ok (s := .runSeconds (some seconds)) _ rfl (.runSeconds hn hbound)
        intro c
        simp only [setKey, Bool.or_eq_true, beq_iff_eq, if_neg hword, hread]
        rfl

theorem hasReading (key : Key) (text : String) : HasReading key text := by
  cases key with
  | level => exact hasReading_level text
  | format => exact hasReading_format text
  | directory => exact hasReading_directory text
  | handshakeSeconds => exact hasReading_handshakeSeconds text
  | runSeconds => exact hasReading_runSeconds text

/-- A change is refused or puts one setting in its place, whatever the configuration is. -/
theorem exists_reading (name text : String) :
    ∃ r : Except ConfigError Setting, (∀ c : Config, c.set name text = r.map c.putSetting) ∧
      ∀ s, r = .ok s ↔ Gives name text s := by
  cases hkey : Key.ofName? name with
  | none =>
      refine ⟨.error (.unknownKey name), fun c => ?_, fun s => iff_of_false nofun ?_⟩
      · simp only [set, hkey]
        rfl
      · intro hgives
        rw [ofName?_eq_some_iff.2 hgives.name_eq] at hkey
        cases hkey
  | some key =>
      obtain ⟨r, hset, hgives⟩ := hasReading key text
      refine ⟨r.mapError (.invalidValue name text), fun c => ?_, fun s => ?_⟩
      · simp only [set, hkey, hset]
        cases r <;> rfl
      · have hok : r.mapError (ConfigError.invalidValue name text) = .ok s ↔ r = .ok s := by
          cases r <;> simp [Except.mapError]
        rw [hok, hgives]
        constructor
        · intro ⟨heq, hdenotes⟩
          exact ⟨heq ▸ ofName?_eq_some_iff.1 hkey, hdenotes⟩
        · intro ⟨hname, hdenotes⟩
          rw [ofName?_eq_some_iff.2 hname] at hkey
          exact ⟨Option.some.inj hkey, hdenotes⟩

section Change

variable {c : Config} {name text : String}

theorem set_eq_ok_iff_gives {c' : Config} :
    c.set name text = .ok c' ↔ ∃ s, Gives name text s ∧ c' = c.putSetting s := by
  obtain ⟨r, hset, hgives⟩ := exists_reading name text
  simp only [hset, ← hgives]
  cases r with
  | error e => simp [Except.map]
  | ok s => simp [Except.map, eq_comm]

theorem attempt_of_gives {s : Setting} (h : Gives name text s) :
    c.attempt name text = c.putSetting s := by
  rw [attempt, set_eq_ok_iff_gives.2 ⟨s, h, rfl⟩]
  rfl

theorem attempt_of_error {e : ConfigError} (h : c.set name text = .error e) :
    c.attempt name text = c := by
  rw [attempt, h]
  rfl

/-- A change puts the setting in place that it gives, or it gives none and is refused. -/
theorem attempt_cases (c : Config) (name text : String) :
    (∃ s, Gives name text s ∧ c.attempt name text = c.putSetting s) ∨
      (∀ s, ¬Gives name text s) ∧ c.attempt name text = c := by
  obtain ⟨r, hset, hgives⟩ := exists_reading name text
  cases r with
  | ok s =>
      have hs := (hgives s).1 rfl
      exact .inl ⟨s, hs, attempt_of_gives hs⟩
  | error e =>
      refine .inr ⟨fun s hs => ?_, attempt_of_error (hset c)⟩
      cases (hgives s).2 hs

/-- A change that gives nothing for a setting leaves it. -/
theorem setting_attempt_of_not_gives {key : Key}
    (h : name = key.name → ∀ s, ¬Gives name text s) :
    (c.attempt name text).setting key = c.setting key := by
  rcases attempt_cases c name text with ⟨s, hs, heq⟩ | ⟨-, heq⟩
  · rw [heq, setting_putSetting, if_neg]
    intro hkey
    exact h (hkey ▸ hs.name_eq) s hs
  · rw [heq]

theorem attempt_attempt (c : Config) (name text : String) :
    (c.attempt name text).attempt name text = c.attempt name text := by
  rcases attempt_cases c name text with ⟨s, hs, heq⟩ | ⟨-, heq⟩
  · rw [heq, attempt_of_gives hs, putSetting_putSetting c rfl]
  · rw [heq, heq]

theorem key_ne_of_gives {name' text' : String} {s s' : Setting} (hname : name ≠ name')
    (hs : Gives name text s) (hs' : Gives name' text' s') : s.key ≠ s'.key := by
  intro hkey
  apply hname
  rw [hs.name_eq, hs'.name_eq, hkey]

/-- Changes under two names can be swapped. -/
theorem attempt_comm (c : Config) {name' : String} (hname : name ≠ name') (text text' : String) :
    (c.attempt name text).attempt name' text' = (c.attempt name' text').attempt name text := by
  rcases attempt_cases c name text with ⟨s, hs, heq⟩ | ⟨hnone, heq⟩
  · rcases attempt_cases c name' text' with ⟨s', hs', heq'⟩ | ⟨hnone', heq'⟩
    · rw [heq, heq', attempt_of_gives hs, attempt_of_gives hs',
        putSetting_comm c (key_ne_of_gives hname hs hs')]
    · rw [heq, heq', attempt_of_gives hs]
      rcases attempt_cases (c.putSetting s) name' text' with ⟨s', hs', -⟩ | ⟨-, hsame⟩
      · exact absurd hs' (hnone' s')
      · exact hsame
  · rw [heq]
    rcases attempt_cases (c.attempt name' text') name text with ⟨s, hs, -⟩ | ⟨-, hsame⟩
    · exact absurd hs (hnone s)
    · exact hsame.symm

end Change

/-! ## Several changes -/

/-- Changes that give nothing for a setting leave it. -/
theorem attemptAll_setting {c : Config} {key : Key} {changes : List (String × String)}
    (h : ∀ change ∈ changes, change.1 = key.name → ∀ s, ¬Gives change.1 change.2 s) :
    (c.attemptAll changes).setting key = c.setting key := by
  induction changes generalizing c with
  | nil => rfl
  | cons change changes ih =>
      have hrest := ih (c := c.attempt change.1 change.2) fun other hother => h other (by simp [hother])
      exact hrest.trans (setting_attempt_of_not_gives (h change (by simp)))

theorem attemptAll_append (c : Config) (changes more : List (String × String)) :
    c.attemptAll (changes ++ more) = (c.attemptAll changes).attemptAll more :=
  List.foldl_append

/-- The last accepted change of a setting decides it. -/
theorem attemptAll_last (c : Config) {name text : String} {s : Setting} (hs : Gives name text s)
    (before : List (String × String)) {behind : List (String × String)}
    (hbehind : ∀ change ∈ behind, change.1 = name → ∀ s, ¬Gives change.1 change.2 s) :
    (c.attemptAll (before ++ (name, text) :: behind)).setting s.key = s := by
  rw [attemptAll_append]
  show (((c.attemptAll before).attempt name text).attemptAll behind).setting s.key = s
  rw [attemptAll_setting fun change hchange => hs.name_eq ▸ hbehind change hchange,
    attempt_of_gives hs, setting_putSetting, if_pos rfl]

/-! ## Settings and their own texts -/

theorem denotes_level {level : String} (h : level ∈ levels) : Denotes level (.level level) := by
  have hsmall : ∀ level ∈ levels, lowercase level = level := by decide +kernel
  have hdenotes : Denotes level (.level (lowercase level)) := .level (by rwa [hsmall level h])
  rwa [hsmall level h] at hdenotes

/-- What some text stands for, its own text stands for. -/
theorem Denotes.self {text : String} {s : Setting} (h : Denotes text s) : Denotes s.text s := by
  have hdigits : ∀ n : Nat, IsNumeral (toString n).toList n := fun n => by
    rw [toList_toString]
    exact isNumeral_toDigits n
  cases h with
  | level hlevel => exact denotes_level hlevel
  | @format _ f hname => cases f <;> exact .format (by decide +kernel)
  | noDirectory => exact .noDirectory
  | directory hne => exact .directory hne
  | handshakeSeconds _ hpositive hbound => exact .handshakeSeconds (hdigits _) hpositive hbound
  | noLimit => exact .noLimit (.inl rfl)
  | runSeconds _ hbound => exact .runSeconds (hdigits _) hbound

/-- Every setting is what its own text stands for. -/
def Settled (c : Config) : Prop := ∀ key, Denotes (c.setting key).text (c.setting key)

theorem settled_default : default.Settled := by
  intro key
  cases key with
  | level => exact denotes_level (by decide)
  | format =>
      have htext : Denotes "text" (.format .text) := .format (by decide +kernel)
      exact htext.self
  | directory => exact .noDirectory
  | handshakeSeconds =>
      have hsixty : Denotes (toString 60) (.handshakeSeconds 60) :=
        .handshakeSeconds (by rw [toList_toString]; exact isNumeral_toDigits 60) (by decide)
          (by decide)
      exact hsixty
  | runSeconds => exact .noLimit (.inl rfl)

theorem Settled.attempt {c : Config} (h : c.Settled) (name text : String) :
    (c.attempt name text).Settled := by
  intro key
  rcases attempt_cases c name text with ⟨s, hs, heq⟩ | ⟨-, heq⟩
  · rw [heq, setting_putSetting]
    split
    · exact hs.denotes.self
    · exact h key
  · rw [heq]
    exact h key

theorem settled_attemptAll {c : Config} (h : c.Settled) (changes : List (String × String)) :
    (c.attemptAll changes).Settled := by
  induction changes generalizing c with
  | nil => exact h
  | cons change changes ih => exact ih (h.attempt change.1 change.2)

/-- Setting a setting to its own text changes nothing. -/
theorem Settled.set_own {c : Config} (h : c.Settled) (key : Key) :
    c.set key.name (c.setting key).text = .ok c := by
  apply set_eq_ok_iff_gives.2
  refine ⟨c.setting key, ⟨by rw [key_setting], h key⟩, ?_⟩
  rw [putSetting_setting]

/-! ## The laws -/

/-- The laws of changes from texts.  Whether a change is accepted, what it puts in place, and why it
is refused, depend on its name and its text alone; it puts in place what the text stands for, and
leaves the other settings and the tokens.  A refused change leaves all.  So of several changes the
last accepted one of a setting decides it, a change that is made again changes nothing, and changes
under two names can be swapped.  A configuration that is made by changes from the defaults is not
changed by setting one of its settings to its own text. -/
theorem set_laws :
    (∀ name text, ∃ r : Except ConfigError Setting,
        (∀ c : Config, c.set name text = r.map c.putSetting) ∧
          ∀ s, r = .ok s ↔ Gives name text s) ∧
      (∀ (c : Config) s key,
        (c.putSetting s).setting key = if key = s.key then s else c.setting key) ∧
      (∀ (c : Config) s, (c.putSetting s).tokens = c.tokens) ∧
      (∀ (c : Config) name text e, c.set name text = .error e → c.attempt name text = c) ∧
      (∀ (c : Config) before name text behind s, Gives name text s →
        (∀ change ∈ behind, change.1 = name → ∀ s', ¬Gives change.1 change.2 s') →
          (c.attemptAll (before ++ (name, text) :: behind)).setting s.key = s) ∧
      (∀ (c : Config) name text,
        (c.attempt name text).attempt name text = c.attempt name text) ∧
      (∀ (c : Config) name text name' text', name ≠ name' →
        (c.attempt name text).attempt name' text' = (c.attempt name' text').attempt name text ∧
          ((c.attempt name text).set name' text').isOk = (c.set name' text').isOk) ∧
      ∀ changes key, (default.attemptAll changes).set (Key.name key)
          ((default.attemptAll changes).setting key).text = .ok (default.attemptAll changes) := by
  refine ⟨exists_reading, setting_putSetting, tokens_putSetting, fun c name text e => attempt_of_error,
    fun c before name text behind s hs hbehind => attemptAll_last c hs before hbehind,
    attempt_attempt, fun c name text name' text' hname => ⟨attempt_comm c hname text text', ?_⟩,
    fun changes key => (settled_attemptAll settled_default changes).set_own key⟩
  obtain ⟨r, hset, -⟩ := exists_reading name' text'
  rw [hset, hset]
  cases r <;> rfl

/-- A limit with a plus sign and zeros in front, and behind it one that is too large for its word and
a level that there is not. -/
def limitChange : String × String := ("plugins.run_timeout_secs", "+007")
@[inherit_doc limitChange] def refusedChanges : List (String × String) :=
  [("plugins.run_timeout_secs", "18446744073709551616"), ("logging.level", "LOUD")]

/-- The limit is what was accepted last, and setting it to its own text changes nothing. -/
theorem set_laws_refusedChanges :
    Gives limitChange.1 limitChange.2 (.runSeconds (some 7)) ∧
      (∀ change ∈ refusedChanges, change.1 = limitChange.1 → ∀ s, ¬Gives change.1 change.2 s) ∧
      (default.attemptAll (limitChange :: refusedChanges)).runSeconds = some 7 ∧
      (default.attemptAll (limitChange :: refusedChanges)).set "plugins.run_timeout_secs" "7" =
        .ok (default.attemptAll (limitChange :: refusedChanges)) := by
  have hread : readNat maxUInt64 "+007".toList = some 7 := by decide
  obtain ⟨hnumeral, hbound⟩ := readNat_eq_some_iff.1 hread
  have hgives : Gives limitChange.1 limitChange.2 (.runSeconds (some 7)) :=
    ⟨rfl, .runSeconds hnumeral hbound⟩
  have hrefused : ∀ change ∈ refusedChanges, (default.set change.1 change.2).isOk = false := by
    decide +kernel
  have hnone : ∀ change ∈ refusedChanges, ∀ s, ¬Gives change.1 change.2 s := by
    intro change hchange s hs
    have hrefuses := hrefused change hchange
    rw [set_eq_ok_iff_gives.2 ⟨s, hs, rfl⟩] at hrefuses
    cases hrefuses
  obtain ⟨-, -, -, -, hlast, -, -, hown⟩ := set_laws
  have hsetting := hlast default [] limitChange.1 limitChange.2 refusedChanges _ hgives
    fun change hchange _ => hnone change hchange
  have hset := hown (limitChange :: refusedChanges) .runSeconds
  rw [show (default.attemptAll (limitChange :: refusedChanges)).setting .runSeconds =
    .runSeconds (some 7) from hsetting] at hset
  exact ⟨hgives, fun change hchange _ => hnone change hchange, Setting.runSeconds.inj hsetting, hset⟩

end PluginHost.Config

import Mathlib.Tactic.SplitIfs
import PluginHost.CommandLine.Host

/-!
# The commands of the host beside those of plugins

The commands of plugins stand behind those of the host.  A command line that asks the host for
something is read as if there were no plugins (`parse_augmented`), unless a plugin bears the name of
a flag that stands in front of the command: there, a word is a command before it is a flag.
-/

namespace PluginHost.CommandLine

/-- The word starts with a hyphen. -/
def isHyphened (word : Bytes) : Bool := word.head? == some 45

/-- A reader that is still at the outermost command. -/
abbrev outermost (c : Command) (switches : List String) : Reading :=
  { command := c, said := { switches } }

section Flags

variable {c : Command} (hc : c.flags = programCommand.flags) {switches : List String}

theorem use_of_mem_flags {flag : Flag} (h : flag ∈ programCommand.allFlags) (kind : ValueKind) :
    flag.use ≠ .value kind := by
  have hall : programCommand.allFlags = programCommand.flags ++ [helpFlag] := rfl
  rw [hall] at h
  simp only [programCommand, List.cons_append, List.nil_append, List.mem_cons, List.not_mem_nil,
    or_false] at h
  rcases h with rfl | rfl | rfl <;> simp [helpFlag]

/-- A flag of the outermost command is a switch, or reading ends there. -/
theorem putFlag_outermost {flag : Flag} (hflag : flag ∈ programCommand.allFlags) {r : Reading}
    (h : (outermost programCommand switches).putFlag flag = .ok r) :
    ∃ switches', r = outermost programCommand switches' ∧
      (outermost c switches).putFlag flag = .ok (outermost c switches') := by
  unfold Reading.putFlag at h ⊢
  cases huse : flag.use with
  | help =>
      rw [huse] at h
      cases h
  | version =>
      rw [huse] at h
      cases h
  | value kind => exact absurd huse (use_of_mem_flags hflag kind)
  | switch =>
      rw [huse] at h
      dsimp only at h ⊢
      split_ifs at h ⊢ with hgiven
      · cases h
      · cases h
        exact ⟨_, rfl, rfl⟩

theorem putLetters_flag {r : Reading} {b : UInt8} {flag : Flag}
    (hfound : r.command.flagLettered? b = some flag) (huse : ∀ kind, flag.use ≠ .value kind)
    (rest : Bytes) :
    r.putLetters (b :: rest) =
      match r.putFlag flag with
      | .ok r => r.putLetters rest
      | .error e => .error e := by
  rw [Reading.putLetters, hfound]
  dsimp only
  cases hflag : flag.use with
  | value kind => exact absurd hflag (huse kind)
  | switch => rfl
  | help => rfl
  | version => rfl

include hc

theorem allFlags_eq : c.allFlags = programCommand.allFlags := by
  unfold Command.allFlags
  rw [hc]

theorem putNamed_outermost {word : Bytes} {r : Reading}
    (h : (outermost programCommand switches).putNamed word = .ok r) :
    ∃ switches', r = outermost programCommand switches' ∧
      (outermost c switches).putNamed word = .ok (outermost c switches') := by
  have hnamed : ∀ name, c.flagNamed? name = programCommand.flagNamed? name := fun name => by
    rw [Command.flagNamed?, allFlags_eq hc]
    rfl
  unfold Reading.putNamed at h ⊢
  dsimp only at h ⊢
  have hflags : (text? (Reading.splitValue word).1).bind c.flagNamed? =
      (text? (Reading.splitValue word).1).bind programCommand.flagNamed? := by
    congr 1
    funext name
    exact hnamed name
  rw [hflags]
  cases hfound : (text? (Reading.splitValue word).1).bind programCommand.flagNamed? with
  | none =>
      rw [hfound] at h
      cases h
  | some flag =>
      rw [hfound] at h
      have hmem : flag ∈ programCommand.allFlags := by
        obtain ⟨name, -, hname⟩ := Option.bind_eq_some_iff.1 hfound
        exact List.mem_of_find?_eq_some hname
      cases hvalue : (Reading.splitValue word).2 with
      | none =>
          rw [hvalue] at h
          exact putFlag_outermost hmem h
      | some value =>
          rw [hvalue] at h
          dsimp only at h
          split at h
          · rename_i kind huse
            exact absurd huse (use_of_mem_flags hmem kind)
          · cases h

theorem putLetters_outermost {letters : Bytes} {r : Reading}
    (h : (outermost programCommand switches).putLetters letters = .ok r) :
    ∃ switches', r = outermost programCommand switches' ∧
      (outermost c switches).putLetters letters = .ok (outermost c switches') := by
  have hlettered : ∀ letter, c.flagLettered? letter = programCommand.flagLettered? letter :=
    fun letter => by
      rw [Command.flagLettered?, allFlags_eq hc]
      rfl
  induction letters generalizing switches with
  | nil =>
      cases h
      exact ⟨switches, rfl, rfl⟩
  | cons b rest ih =>
      cases hfound : programCommand.flagLettered? b with
      | none =>
          rw [Reading.putLetters, hfound] at h
          cases h
      | some flag =>
          have hmem : flag ∈ programCommand.allFlags := List.mem_of_find?_eq_some hfound
          have huse := use_of_mem_flags hmem
          rw [putLetters_flag hfound huse] at h
          rw [putLetters_flag ((hlettered b).trans hfound) huse]
          cases hput : (outermost programCommand switches).putFlag flag with
          | error e =>
              rw [hput] at h
              cases h
          | ok r₁ =>
              obtain ⟨switches₁, rfl, hput'⟩ := putFlag_outermost (c := c) hmem hput
              rw [hput] at h
              rw [hput']
              exact ih h

end Flags

/-! ## Command lines -/

theorem mem_commands_of_additions {registry : Registry} {taken : List String} {c : PluginCommand}
    (h : c ∈ registry.additions taken) : c ∈ registry.commands := by
  have heffective : c ∈ registry.effective := (List.mem_filter.1 h).1
  obtain ⟨name, -, hresolve⟩ := List.mem_filterMap.1 heffective
  exact List.mem_reverse.1 (List.mem_of_find?_eq_some hresolve)

/-- A word that names a command of the host leads there, whatever plugins there are. -/
theorem find?_augmented_some {registry : Registry} {word : Bytes} {d : Command}
    (h : programCommand.find? word = some d) :
    (programCommand.augmented registry).find? word = some d := by
  unfold Command.find? Command.augmented
  rw [List.find?_append]
  unfold Command.find? at h
  rw [h]
  rfl

theorem find?_augmented_none {registry : Registry} {word : Bytes}
    (h : programCommand.find? word = none) (hnames : ∀ c ∈ registry.commands, utf8 c.name ≠ word) :
    (programCommand.augmented registry).find? word = none := by
  unfold Command.find? Command.augmented
  unfold Command.find? at h
  rw [List.find?_append, h, Option.none_or, List.find?_eq_none]
  intro d hd
  obtain ⟨c, hc, rfl⟩ := List.mem_map.1 hd
  simpa [commandOf] using hnames c (mem_commands_of_additions hc)

/-- How a word is read that is no command. -/
def Reading.readWord (r : Reading) (word : Bytes) (rest : List Bytes) : Except Refusal Invocation :=
  match word with
  | [45, 45] => ({ r with isRaw := true } : Reading).readAll rest
  | 45 :: 45 :: named => do (← r.putNamed named).readAll rest
  | 45 :: b :: letters => do (← r.putLetters (b :: letters)).readAll rest
  | word => do (← r.putArgument word).readAll rest

theorem readAll_outermost (c : Command) (switches : List String) (word : Bytes)
    (rest : List Bytes) :
    (outermost c switches).readAll (word :: rest) =
      match c.find? word with
      | some d =>
          if d.takesAll then do
            pure { path := [d.name], arguments := ← Reading.handedOn rest }
          else ({ command := d, said := { path := [d.name] } } : Reading).readAll rest
      | none =>
          if c.isHelpName word then
            match c.follow [] rest with
            | some (path, d) => .error (.help path d)
            | none => reject .invalidSubcommand
          else (outermost c switches).readWord word rest := by
  rw [Reading.readAll.eq_def]
  rfl

/-- Behind two hyphens nothing can be asked of the outermost command. -/
theorem readAll_raw (switches : List String) (words : List Bytes) (i : Invocation) :
    ({ outermost programCommand switches with isRaw := true } : Reading).readAll words ≠ .ok i := by
  cases words with
  | nil => nofun
  | cons word rest => nofun

/-- A word in front of the command of the host is a flag, and it is read alike. -/
theorem readWord_outermost {c : Command} (hc : c.flags = programCommand.flags)
    {switches : List String} {word : Bytes} {rest : List Bytes} {i : Invocation}
    (h : (outermost programCommand switches).readWord word rest = .ok i) :
    isHyphened word = true ∧
      ∃ switches', (outermost programCommand switches').readAll rest = .ok i ∧
        (outermost c switches).readWord word rest = (outermost c switches').readAll rest := by
  unfold Reading.readWord at h ⊢
  split at h
  · exact absurd h (readAll_raw switches rest i)
  · rename_i named hne
    cases hput : (outermost programCommand switches).putNamed named with
    | error e =>
        rw [hput] at h
        cases h
    | ok r =>
        obtain ⟨switches', rfl, hput'⟩ := putNamed_outermost hc hput
        rw [hput] at h
        refine ⟨rfl, switches', h, ?_⟩
        rw [hput']
        rfl
  · rename_i b letters _ _
    cases hput : (outermost programCommand switches).putLetters (b :: letters) with
    | error e =>
        rw [hput] at h
        cases h
    | ok r =>
        obtain ⟨switches', rfl, hput'⟩ := putLetters_outermost hc hput
        rw [hput] at h
        refine ⟨rfl, switches', h, ?_⟩
        rw [hput']
        rfl
  · cases h

theorem readAll_augmented {registry : Registry} {words : List Bytes}
    (hnames : ∀ c ∈ registry.commands, utf8 c.name ∉ words.takeWhile isHyphened)
    {switches : List String} {i : Invocation}
    (h : (outermost programCommand switches).readAll words = .ok i) :
    (outermost (programCommand.augmented registry) switches).readAll words = .ok i := by
  induction words generalizing switches with
  | nil => exact absurd h nofun
  | cons word rest ih =>
      rw [readAll_outermost] at h ⊢
      cases hown : programCommand.find? word with
      | some d =>
          rw [hown] at h
          rw [find?_augmented_some hown]
          exact h
      | none =>
          rw [hown] at h
          dsimp only at h
          split_ifs at h with hhelp
          · split at h <;> cases h
          · obtain ⟨hhyphen, switches', hread, hword⟩ :=
              readWord_outermost (c := programCommand.augmented registry) rfl h
            rw [List.takeWhile_cons_of_pos hhyphen] at hnames
            have hfind : (programCommand.augmented registry).find? word = none :=
              find?_augmented_none hown fun c hc heq => hnames c hc (by simp [heq])
            have hnoHelp : ¬(programCommand.augmented registry).isHelpName word = true := by
              have hname : (word == utf8 helpCommand.name) = false := by
                simpa [Command.isHelpName, programCommand, ownCommands] using hhelp
              simp [Command.isHelpName, hname]
            rw [hfind]
            dsimp only
            rw [if_neg hnoHelp, hword]
            exact ih (fun c hc hmem => hnames c hc (List.mem_cons_of_mem _ hmem)) hread

/-- A command line of the host is read as if there were no plugins. -/
theorem parse_augmented {registry : Registry} {args : List Bytes}
    (hnames : ∀ c ∈ registry.commands, utf8 c.name ∉ args.takeWhile isHyphened) {i : Invocation}
    (h : programCommand.parse args = .ok i) :
    (programCommand.augmented registry).parse args = .ok i :=
  readAll_augmented hnames h

end PluginHost.CommandLine

import PluginHost.Demo
import PluginHost.Proofs.CommandLine.ConfigEdits
import PluginHost.Proofs.Plugin.Dispatch

/-!
# Where a command line leads

A command line that is accepted leads to a command to which all has been said that it needs
(`walk_of_readAll`).

* Among the commands of the host, each such end is one request, which is what the command asks for
  (`ofInvocation_own`).
* Any other end is the command of a plugin, and stands for the last plugin of that name
  (`walk_plugin`).

`commands_agree` puts this together with what the registry does (`PluginHost.Proofs.Plugin.Dispatch`)
and with the names that a command has once those of plugins stand behind its own.
-/

namespace PluginHost.CommandLine

open Children Rpc

theorem utf8_injective {s t : String} (h : utf8 s = utf8 t) : s = t := by
  have htext := congrArg text? h
  rw [text?_utf8, text?_utf8] at htext
  exact Option.some.inj htext

/-! ## Words -/

/-- Reading goes on at the same command, which has been given no more arguments than it has. -/
structure StaysAt (r r' : Reading) : Prop where
  command : r'.command = r.command
  path : r'.said.path = r.said.path
  arguments : r.said.arguments.length ≤ r.command.arguments.length →
    r'.said.arguments.length ≤ r'.command.arguments.length

theorem StaysAt.of_eq {r r' : Reading} (hcommand : r'.command = r.command)
    (hpath : r'.said.path = r.said.path) (harguments : r'.said.arguments = r.said.arguments) :
    StaysAt r r' :=
  ⟨hcommand, hpath, fun h => by rw [hcommand, harguments]; exact h⟩

theorem StaysAt.refl (r : Reading) : StaysAt r r := .of_eq rfl rfl rfl

theorem StaysAt.trans {r r' r'' : Reading} (h : StaysAt r r') (h' : StaysAt r' r'') :
    StaysAt r r'' :=
  ⟨h'.command.trans h.command, h'.path.trans h.path, fun harguments =>
    h'.arguments (h.arguments harguments)⟩

namespace Reading

variable {r r' : Reading}

theorem putValue_stays {name : String} {kind : ValueKind} {value : Bytes}
    (h : r.putValue name kind value = .ok r') : StaysAt r r' := by
  simp only [putValue, bind, Except.bind] at h
  split at h
  · cases h
  · split at h <;> cases h
    exact .of_eq rfl rfl rfl

theorem putFlag_stays {flag : Flag} (h : r.putFlag flag = .ok r') : StaysAt r r' := by
  unfold putFlag at h
  split at h
  · cases h
  · cases h
  · split at h <;> cases h
    exact .of_eq rfl rfl rfl
  · cases h
    exact .of_eq rfl rfl rfl

theorem putNamed_stays {word : Bytes} (h : r.putNamed word = .ok r') : StaysAt r r' := by
  unfold putNamed at h
  dsimp only at h
  split at h
  · cases h
  · exact putFlag_stays h
  · split at h
    · exact putValue_stays h
    · cases h

theorem putLetters_stays {letters : Bytes} (h : r.putLetters letters = .ok r') :
    StaysAt r r' := by
  induction letters generalizing r with
  | nil =>
      cases h
      exact .refl _
  | cons b rest ih =>
      rw [putLetters.eq_def] at h
      dsimp only at h
      split at h
      · cases h
      · split at h
        · exact putValue_stays h
        · exact putValue_stays h
        · split at h
          · rename_i hput
            exact (putFlag_stays hput).trans (ih h)
          · cases h

theorem putArgument_stays {value : Bytes} (h : r.putArgument value = .ok r') : StaysAt r r' := by
  unfold putArgument at h
  split at h
  · cases h
  · rename_i hplace
    simp only [bind, Except.bind] at h
    split at h
    · cases h
    · cases h
      refine ⟨rfl, rfl, fun _ => ?_⟩
      have hlength := (List.getElem?_eq_some_iff.1 hplace).1
      rw [List.length_append]
      exact hlength

theorem readWord_stays {word : Bytes} {rest : List Bytes} {i : Invocation}
    (h : r.readWord word rest = .ok i) : ∃ r', StaysAt r r' ∧ r'.readAll rest = .ok i := by
  unfold readWord at h
  split at h
  · exact ⟨{ r with isRaw := true }, .of_eq rfl rfl rfl, h⟩
  all_goals
    simp only [bind, Except.bind] at h
    split at h
    · cases h
  · exact ⟨_, putNamed_stays ‹_›, h⟩
  · exact ⟨_, putLetters_stays ‹_›, h⟩
  · exact ⟨_, putArgument_stays ‹_›, h⟩

/-- A word of an accepted command line leads into a sub-command, or it is said to the same one. -/
theorem readAll_cons_ok {word : Bytes} {rest : List Bytes} {i : Invocation}
    (h : r.readAll (word :: rest) = .ok i) :
    (∃ r', StaysAt r r' ∧ r'.readAll rest = .ok i) ∨
      (∃ c, r.command.find? word = some c ∧ c.takesAll = true ∧ i.path = r.said.path ++ [c.name]) ∨
      ∃ c, r.command.find? word = some c ∧
        ({ command := c, said := { path := r.said.path ++ [c.name] } } : Reading).readAll rest =
          .ok i := by
  rw [readAll.eq_def] at h
  simp only [bind, Except.bind] at h
  split at h
  · split at h
    · cases h
    · exact .inl ⟨_, putArgument_stays ‹_›, h⟩
  · split at h
    · cases h
    · split at h
      · cases h
      · exact .inl ⟨_, putValue_stays ‹_›, h⟩
    · split at h
      · rename_i c hfind
        split at h
        · rename_i htakes
          split at h
          · cases h
          · cases h
            exact .inr (.inl ⟨c, hfind, htakes, rfl⟩)
        · exact .inr (.inr ⟨c, hfind, h⟩)
      · split at h
        · split at h <;> cases h
        · exact .inl (readWord_stays h)

end Reading

/-! ## Ends -/

/-- The command that names lead to. -/
def Command.walk (c : Command) : List String → Option Command
  | [] => some c
  | name :: rest => (c.find? (utf8 name)).bind fun d => d.walk rest

theorem Command.find?_name {c d : Command} {word : Bytes} (h : c.find? word = some d) :
    utf8 d.name = word := by
  simpa using List.find?_some h

theorem Command.walk_cons {c d : Command} {name : String} {rest : List String}
    (h : c.walk (name :: rest) = some d) :
    ∃ e, c.find? (utf8 name) = some e ∧ e ∈ c.subcommands ∧ e.name = name ∧
      e.walk rest = some d := by
  obtain ⟨e, hfind, hwalk⟩ := Option.bind_eq_some_iff.1 h
  exact ⟨e, hfind, List.mem_of_find?_eq_some hfind, utf8_injective (Command.find?_name hfind),
    hwalk⟩

theorem Command.walk_of_find {c d e : Command} {word : Bytes} (hfind : c.find? word = some e)
    {rest : List String} (hwalk : e.walk rest = some d) : c.walk (e.name :: rest) = some d := by
  rw [Command.walk, Command.find?_name hfind, hfind]
  exact hwalk

/-- All has been said to a command that it needs: its arguments, and one of the flags among which it
leaves the choice. -/
structure Complete (c : Command) (i : Invocation) : Prop where
  needs : c.needsSubcommand = false
  arguments : i.arguments.length = c.arguments.length
  choice : c.choice = [] ∨ ∃ name ∈ c.choice, (i.value? name).isSome = true

theorem complete_of_missing {r : Reading} (h : r.missing = none)
    (harguments : r.said.arguments.length ≤ r.command.arguments.length) :
    Complete r.command r.said := by
  unfold Reading.missing at h
  dsimp only at h
  split_ifs at h with hwaiting hneeds hchosen hnone hfewer
  refine ⟨by simpa using hneeds, by omega, ?_⟩
  by_cases hchoice : r.command.choice = []
  · exact .inl hchoice
  · have hsome : r.command.choice.filter (fun name => r.said.values.any (·.1 == name)) ≠ [] := by
      simpa [hchoice] using hnone
    obtain ⟨name, hname⟩ := List.exists_mem_of_ne_nil _ hsome
    obtain ⟨hmem, hgiven⟩ := List.mem_filter.1 hname
    refine .inr ⟨name, hmem, ?_⟩
    rw [Invocation.value?, Option.isSome_map, List.find?_isSome]
    simpa using hgiven

/-- An accepted command line leads to a command that takes everything, or to one to which all has
been said that it needs. -/
theorem walk_of_readAll {words : List Bytes} {r : Reading} {i : Invocation}
    (h : r.readAll words = .ok i)
    (harguments : r.said.arguments.length ≤ r.command.arguments.length) :
    ∃ path d, i.path = r.said.path ++ path ∧ r.command.walk path = some d ∧
      (d.takesAll = true ∨ Complete d i) := by
  induction words generalizing r with
  | nil =>
      rw [Reading.readAll] at h
      split at h
      · cases h
      · rename_i hmissing
        cases h
        exact ⟨[], r.command, by simp, rfl, .inr (complete_of_missing hmissing harguments)⟩
  | cons word rest ih =>
      rcases Reading.readAll_cons_ok h with
        ⟨r', hstays, hread⟩ | ⟨c, hfind, htakes, hpath⟩ | ⟨c, hfind, hread⟩
      · obtain ⟨path, d, hpath, hwalk, hend⟩ := ih hread (hstays.arguments harguments)
        rw [hstays.path] at hpath
        rw [hstays.command] at hwalk
        exact ⟨path, d, hpath, hwalk, hend⟩
      · exact ⟨[c.name], c, hpath, Command.walk_of_find hfind rfl, .inl htakes⟩
      · obtain ⟨path, d, hpath, hwalk, hend⟩ := ih hread (Nat.zero_le _)
        exact ⟨c.name :: path, d, by simpa using hpath, Command.walk_of_find hfind hwalk, hend⟩

/-! ## The commands of the host -/

/-- The names of the commands that lead to what is asked for. -/
def Request.path : Request → List String
  | .listPlugins => ["plugins", "list"]
  | .installRelease _ _ => ["plugins", "install"]
  | .installFile _ => ["plugins", "install"]
  | .removePlugin => ["plugins", "remove"]
  | .addToken _ _ => ["plugins", "auth", "add"]
  | .listTokens => ["plugins", "auth", "list"]
  | .removeToken _ => ["plugins", "auth", "remove"]
  | .configPath => ["config", "path"]
  | .configPrint => ["config", "print"]
  | .configSet _ _ => ["config", "set"]
  | .completions _ => ["completions"]
  | .runPlugin name => [name]

/-- The names of the commands of the host. -/
def ownNames : List String := ownCommands.map (·.name)

theorem walk_leaf {c d : Command} (hleaf : c.subcommands = []) {path : List String}
    (h : c.walk path = some d) : path = [] ∧ d = c := by
  cases path with
  | nil => exact ⟨rfl, (Option.some.inj h).symm⟩
  | cons name rest =>
      obtain ⟨e, -, he, -⟩ := Command.walk_cons h
      rw [hleaf] at he
      cases he

/-- A command line can end at the command. -/
def Command.IsEnd (c : Command) : Prop := c.takesAll = true ∨ c.needsSubcommand = false

/-- A command that is no end leads on. -/
theorem walk_inner {c d : Command} (hinner : ¬c.IsEnd) (hend : d.IsEnd) {path : List String}
    (h : c.walk path = some d) :
    ∃ e ∈ c.subcommands, ∃ rest, path = e.name :: rest ∧ e.walk rest = some d := by
  cases path with
  | nil =>
      cases h
      exact absurd hend hinner
  | cons name rest =>
      obtain ⟨e, -, hmem, rfl, hwalk⟩ := Command.walk_cons h
      exact ⟨e, hmem, rest, rfl, hwalk⟩

/-- The ends among the commands of the host: where they stand, how many arguments they have, and the
flags among which they leave the choice. -/
def ownEnds : List (List String × Nat × List String) :=
  [(["plugins", "list"], 0, []), (["plugins", "install"], 0, ["url", "file"]),
    (["plugins", "remove"], 0, []), (["plugins", "auth", "add"], 1, []),
    (["plugins", "auth", "list"], 0, []), (["plugins", "auth", "remove"], 1, []),
    (["config", "path"], 0, []), (["config", "print"], 0, []), (["config", "set"], 2, []),
    (["completions"], 1, [])]

theorem mem_ownEnds {path : List String} {d : Command} (h : programCommand.walk path = some d)
    (hend : d.IsEnd) :
    d.takesAll = false ∧ (path, d.arguments.length, d.choice) ∈ ownEnds := by
  obtain ⟨e, hmem, rest, rfl, htop⟩ := walk_inner (by simp [Command.IsEnd, programCommand]) hend h
  simp only [programCommand, ownCommands, List.mem_cons, List.not_mem_nil, or_false] at hmem
  rcases hmem with rfl | rfl | rfl
  · obtain ⟨e, hmem, rest, rfl, hplugins⟩ := walk_inner (by simp [Command.IsEnd, pluginsCommand]) hend htop
    simp only [pluginsCommand, List.mem_cons, List.not_mem_nil, or_false] at hmem
    rcases hmem with rfl | rfl | rfl | rfl
    · obtain ⟨rfl, rfl⟩ := walk_leaf rfl hplugins
      decide
    · obtain ⟨rfl, rfl⟩ := walk_leaf rfl hplugins
      decide
    · obtain ⟨rfl, rfl⟩ := walk_leaf rfl hplugins
      decide
    · obtain ⟨e, hmem, rest, rfl, hauth⟩ := walk_inner (by simp [Command.IsEnd, authCommand]) hend hplugins
      simp only [authCommand, List.mem_cons, List.not_mem_nil, or_false] at hmem
      rcases hmem with rfl | rfl | rfl <;> obtain ⟨rfl, rfl⟩ := walk_leaf rfl hauth <;> decide
  · obtain ⟨e, hmem, rest, rfl, hconfig⟩ := walk_inner (by simp [Command.IsEnd, configCommand]) hend htop
    simp only [configCommand, List.mem_cons, List.not_mem_nil, or_false] at hmem
    rcases hmem with rfl | rfl | rfl <;> obtain ⟨rfl, rfl⟩ := walk_leaf rfl hconfig <;> decide
  · obtain ⟨rfl, rfl⟩ := walk_leaf rfl htop
    decide

/-- Each end among the commands of the host asks for what stands there. -/
theorem ofInvocation_own {i : Invocation} {d : Command}
    (h : programCommand.walk i.path = some d) (hcomplete : Complete d i) :
    ∃ request, Request.ofInvocation i = some request ∧ request.path = i.path ∧
      ∀ name, request ≠ .runPlugin name := by
  have hend := (mem_ownEnds h (.inr hcomplete.needs)).2
  have hlength : i.texts.length = d.arguments.length := by
    rw [Invocation.texts, List.length_map, hcomplete.arguments]
  have hchoice := hcomplete.choice
  rw [← hlength] at hend
  simp only [ownEnds, List.mem_cons, List.not_mem_nil, or_false, Prod.mk.injEq] at hend
  unfold Request.ofInvocation
  rcases hend with ⟨hpath, hargs, hflags⟩ | ⟨hpath, hargs, hflags⟩ | ⟨hpath, hargs, hflags⟩ |
    ⟨hpath, hargs, hflags⟩ | ⟨hpath, hargs, hflags⟩ | ⟨hpath, hargs, hflags⟩ |
    ⟨hpath, hargs, hflags⟩ | ⟨hpath, hargs, hflags⟩ | ⟨hpath, hargs, hflags⟩ |
    ⟨hpath, hargs, hflags⟩ <;> rw [hpath]
  · exact ⟨.listPlugins, rfl, rfl, nofun⟩
  · have hgiven : (i.value? "file").isSome = true ∨ (i.value? "url").isSome = true := by
      simpa [hflags, or_comm] using hchoice
    cases hfile : i.value? "file" with
    | some path => exact ⟨.installFile path, rfl, rfl, nofun⟩
    | none =>
        obtain ⟨url, hurl⟩ := Option.isSome_iff_exists.1 (hgiven.resolve_left (by simp [hfile]))
        rw [Invocation.text?, hurl]
        exact ⟨.installRelease _ _, rfl, rfl, nofun⟩
  · exact ⟨.removePlugin, rfl, rfl, nofun⟩
  · obtain ⟨name, hname⟩ := List.length_eq_one_iff.1 hargs
    rw [hname]
    exact ⟨.addToken name _, rfl, rfl, nofun⟩
  · exact ⟨.listTokens, rfl, rfl, nofun⟩
  · obtain ⟨name, hname⟩ := List.length_eq_one_iff.1 hargs
    rw [hname]
    exact ⟨.removeToken name, rfl, rfl, nofun⟩
  · exact ⟨.configPath, rfl, rfl, nofun⟩
  · exact ⟨.configPrint, rfl, rfl, nofun⟩
  · obtain ⟨key, value, hname⟩ := List.length_eq_two.1 hargs
    rw [hname]
    exact ⟨.configSet key value, rfl, rfl, nofun⟩
  · obtain ⟨name, hname⟩ := List.length_eq_one_iff.1 hargs
    rw [hname]
    exact ⟨.completions name, rfl, rfl, nofun⟩

/-! ## The commands of plugins -/

theorem find?_own {name : String} (h : name ∈ ownNames) :
    ∃ c, programCommand.find? (utf8 name) = some c := by
  obtain ⟨c, hc, rfl⟩ := List.mem_map.1 h
  exact Option.isSome_iff_exists.1 (List.find?_isSome.2 ⟨c, hc, by simp⟩)

/-- A name of the host leads where it leads without plugins. -/
theorem walk_own {registry : Registry} {name : String} (hname : name ∈ ownNames)
    {rest : List String} {d : Command}
    (h : (programCommand.augmented registry).walk (name :: rest) = some d) :
    programCommand.walk (name :: rest) = some d := by
  obtain ⟨c, hc⟩ := find?_own hname
  rw [Command.walk, find?_augmented_some hc] at h
  rw [Command.walk, hc]
  exact h

/-- Any other name leads to the command of a plugin, and no further. -/
theorem walk_plugin {registry : Registry} {name : String} (hname : name ∉ ownNames)
    {rest : List String} {d : Command}
    (h : (programCommand.augmented registry).walk (name :: rest) = some d) :
    rest = [] ∧ ∃ c, registry.resolve name = some c := by
  obtain ⟨e, -, hmem, rfl, hwalk⟩ := Command.walk_cons h
  rcases List.mem_append.1 hmem with hown | hadded
  · exact absurd (List.mem_map_of_mem hown) hname
  · obtain ⟨c, hc, rfl⟩ := List.mem_map.1 hadded
    exact ⟨(walk_leaf rfl hwalk).1, c, (Registry.mem_additions_iff.1 hc).1⟩

theorem find?_plugin {registry : Registry} {name : String} {c : PluginCommand}
    (hresolve : registry.resolve name = some c) (hown : name ∉ ownNames) :
    ∃ d, (programCommand.augmented registry).find? (utf8 name) = some d ∧ d.name = name ∧
      d.takesAll = true := by
  have hname := Registry.resolve_name hresolve
  subst hname
  have hadded : c ∈ registry.additions ownNames := Registry.mem_additions_iff.2 ⟨hresolve, hown⟩
  have hmem : commandOf c ∈ (programCommand.augmented registry).subcommands :=
    List.mem_append_right _ (List.mem_map_of_mem hadded)
  obtain ⟨d, hd⟩ := Option.isSome_iff_exists.1
    (List.find?_isSome.2 ⟨commandOf c, hmem, by simp [commandOf]⟩ :
      ((programCommand.augmented registry).find? (utf8 c.name)).isSome = true)
  have hsame := utf8_injective (Command.find?_name hd)
  refine ⟨d, hd, hsame, ?_⟩
  rcases List.mem_append.1 (List.mem_of_find?_eq_some hd) with hfirst | hbehind
  · exact absurd (hsame ▸ List.mem_map_of_mem hfirst) hown
  · obtain ⟨e, -, rfl⟩ := List.mem_map.1 hbehind
    rfl

/-- The name of a plugin leads to its command, which takes what is handed on. -/
theorem readAll_plugin {registry : Registry} {name : String} {c : PluginCommand}
    (hresolve : registry.resolve name = some c) (hown : name ∉ ownNames) (switches : List String)
    (words : List Bytes) :
    (outermost (programCommand.augmented registry) switches).readAll (utf8 name :: words) =
      (Reading.handedOn words).map fun arguments => { path := [name], arguments } := by
  obtain ⟨d, hfind, rfl, htakes⟩ := find?_plugin hresolve hown
  rw [readAll_outermost, hfind]
  dsimp only
  rw [if_pos htakes]
  cases Reading.handedOn words <;> rfl

/-- Any other name at the end asks for the run of a plugin. -/
theorem ofInvocation_plugin {name : String} (hown : name ∉ ownNames) {i : Invocation}
    (hpath : i.path = [name]) : Request.ofInvocation i = some (.runPlugin name) := by
  have hcompletions : name ≠ "completions" := by
    rintro rfl
    exact hown (by decide)
  unfold Request.ofInvocation
  rw [hpath]
  split <;> simp_all

/-- A command line that is accepted asks for what stands where it leads. -/
theorem ofInvocation_of_parse {registry : Registry} {args : List Bytes} {i : Invocation}
    (h : (programCommand.augmented registry).parse args = .ok i) :
    ∃ name rest request, i.path = name :: rest ∧ Request.ofInvocation i = some request ∧
      (name ∈ ownNames → request.path = i.path ∧ ∀ other, request ≠ .runPlugin other) ∧
      (name ∉ ownNames → rest = [] ∧ request = .runPlugin name ∧
        ∃ c, registry.resolve name = some c) := by
  obtain ⟨path, d, hpath, hwalk, hend⟩ := walk_of_readAll h (Nat.le_refl 0)
  have hpath : i.path = path := hpath
  subst hpath
  cases hcase : i.path with
  | nil =>
      rw [hcase] at hwalk
      cases hwalk
      rcases hend with htakes | hcomplete
      · cases htakes
      · cases hcomplete.needs
  | cons name rest =>
      rw [hcase] at hwalk
      by_cases hname : name ∈ ownNames
      · have hown := walk_own hname hwalk
        have hcomplete : Complete d i := by
          refine hend.resolve_left fun htakes => ?_
          have hnot := (mem_ownEnds hown (.inl htakes)).1
          rw [htakes] at hnot
          cases hnot
        rw [← hcase] at hown
        obtain ⟨request, hrequest, hsame, hnone⟩ := ofInvocation_own hown hcomplete
        exact ⟨name, rest, request, rfl, hrequest, fun _ => ⟨by rw [hsame, hcase], hnone⟩,
          fun h => absurd hname h⟩
      · obtain ⟨rfl, c, hresolve⟩ := walk_plugin hname hwalk
        exact ⟨name, [], .runPlugin name, rfl, ofInvocation_plugin hname hcase,
          fun h => absurd h hname, fun _ => ⟨rfl, rfl, c, hresolve⟩⟩

/-- A command with distinct sub-commands is given one more for each name that a plugin bears and that
is free, and then its sub-commands are still distinct. -/
theorem augmented_spec (plugins : PluginSet) {c : Command}
    (hdistinct : (c.subcommands.map (·.name)).Nodup) :
    ∃ added,
      c.augmented (Registry.ofPlugins plugins) = { c with subcommands := c.subcommands ++ added } ∧
        ((c.subcommands ++ added).map (·.name)).Nodup ∧
        ∀ name, name ∈ added.map (·.name) ↔
          Registered plugins name ∧ name ∉ c.subcommands.map (·.name) := by
  have hnames : ((((Registry.ofPlugins plugins).additions (c.subcommands.map (·.name))).map
      commandOf).map (·.name)) =
      ((Registry.ofPlugins plugins).additions (c.subcommands.map (·.name))).map (·.name) := by
    rw [List.map_map]
    rfl
  refine ⟨_, rfl, ?_, fun name => ?_⟩
  · rw [List.map_append, hnames]
    refine List.nodup_append.2 ⟨hdistinct, Registry.nodup_names_additions _ _, ?_⟩
    rintro name hname other hother rfl
    obtain ⟨a, ha, rfl⟩ := List.mem_map.1 hother
    exact (Registry.mem_additions_iff.1 ha).2 hname
  · rw [hnames, List.mem_map]
    constructor
    · rintro ⟨a, ha, rfl⟩
      obtain ⟨hresolve, hfree⟩ := Registry.mem_additions_iff.1 ha
      refine ⟨?_, hfree⟩
      by_contra hnot
      rw [Registry.resolve_of_not_registered hnot] at hresolve
      cases hresolve
    · rintro ⟨hregistered, hfree⟩
      obtain ⟨place, p, -, hresolve⟩ := Registry.resolve_of_registered hregistered
      exact ⟨⟨name, p.descriptor.about, place⟩, Registry.mem_additions_iff.2 ⟨hresolve, hfree⟩, rfl⟩

/-! ## The session -/

/-- The commands of a session are those of its plugins. -/
theorem registerPlugins_run {ε : Type} (plugins : PluginSet) (h : Host) :
    ∃ h', (registerPlugins plugins : Step ε Registry) h =
      (.ok (Registry.ofPlugins plugins), h') := by
  have hnotes : ∀ (records : List LogRecord) (h : Host),
      ∃ h', (records.forM Step.note : Step ε PUnit) h = (.ok (), h') := by
    intro records
    induction records with
    | nil => exact fun h => ⟨h, rfl⟩
    | cons record records ih => exact fun h => ih (Step.noted h record)
  obtain ⟨h₁, hfirst⟩ := hnotes (Registry.ofDescriptors plugins.descriptors).2 h
  obtain ⟨h₂, hsecond⟩ := hnotes ((Registry.ofPlugins plugins).collisions
    (programCommand.subcommands.map (·.name))) h₁
  refine ⟨h₂, ?_⟩
  unfold registerPlugins
  dsimp only
  rw [bind_run, hfirst]
  dsimp only
  rw [bind_run, hsecond]
  rfl

theorem openSession_registry {args : List Bytes} {h h' : Host} {s : Session} {registry : Registry}
    (hrun : openSession args h = (.ok (s, registry), h')) :
    registry = Registry.ofPlugins s.plugins := by
  obtain ⟨-, _, h₂, -, -, hregister⟩ := openSession_stages hrun
  obtain ⟨_, hregistered⟩ := registerPlugins_run (ε := Failure) s.plugins h₂
  rw [hregister] at hregistered
  cases hregistered
  rfl

/-- Files that stand in the directory in the order of their paths are listed as they stand. -/
theorem pluginFiles_of_sorted {directory : Path} {t : FileTree} {names : List Bytes}
    (hthere : t.isThere directory = true) (hnames : t.list directory = .ok names)
    (hsorted : ((names.map (Path.join directory)).filter t.isFile).Pairwise
      fun a b => (!Path.before b a) = true) :
    pluginFiles directory t = (.ok ((names.map (Path.join directory)).filter t.isFile), t) := by
  have hfiles : t.filesIn directory = .ok ((names.map (Path.join directory)).filter t.isFile) := by
    unfold FileTree.filesIn
    rw [hnames]
    exact congrArg Except.ok (List.mergeSort_of_pairwise hsorted)
  unfold pluginFiles FileAction.ask
  rw [if_pos hthere]
  dsimp only
  rw [hfiles]

/-- A directory whose plugin files are known is loaded by loading these. -/
theorem loadPlugins_of_files {ε : Type} {options : LoadOptions} {directory : Path} {h h' : Host}
    {paths : List Path} {t : FileTree} {plugins : PluginSet}
    (hfiles : pluginFiles directory h.world.files = (.ok paths, t))
    (heach : (PluginSet.loadEach options paths : Step PluginError PluginSet)
      (Step.withWorld h { h.world with files := t }) = (.ok plugins, h')) :
    (loadPlugins options directory : Step ε PluginSet) h = (.ok plugins, h') := by
  have hlisted : (Step.onWorld (Task.onFiles ((pluginFiles directory).wrapped .io)) :
      Step PluginError (List Path)) h =
        (.ok paths, Step.withWorld h { h.world with files := t }) := by
    unfold Step.onWorld
    rw [Task.onFiles_eq, FileAction.wrapped_eq, hfiles]
    rfl
  have hall : PluginSet.loadAll options directory h = (.ok plugins, h') :=
    (bind_of_ok hlisted).trans heach
  have hattempt : ((PluginSet.loadAll options directory).attempt : Step ε _) h =
      (.ok (.ok plugins), h') := by
    rw [Step.attempt_run, hall]
  exact bind_of_ok hattempt

/-- A session is opened with the plugins that have been loaded, once the log has been set up. -/
theorem openSession_of_load {args : List Bytes} {h h₁ h₂ : Host} {directory : Path}
    {plugins : PluginSet} (hdirectory : Config.directoryOf h.environment = .ok directory)
    (hsetUp : setUp (edited h directory) (Config.load h.world.files directory) h.environment args h =
      (.ok (), h₁))
    (hload : (loadPlugins (loadOptionsOf (edited h directory) args)
      ((edited h directory).pluginsIn h.environment directory) : Step Failure PluginSet) h₁ =
        (.ok plugins, h₂)) :
    ∃ s h', openSession args h = (.ok (s, Registry.ofPlugins plugins), h') ∧
      s.plugins = plugins := by
  obtain ⟨h', hregister⟩ := registerPlugins_run (ε := Failure) plugins h₂
  obtain ⟨_, _, hshow, hsetUp⟩ := bind_ok hsetUp
  obtain ⟨_, _, htold, hdefaults⟩ := bind_ok hsetUp
  have hfound : ((Step.ofExcept (Config.directoryOf h.environment)).wrapped Failure.ofConfig :
      Step Failure Path) h = (.ok directory, h) := by
    rw [Step.wrapped_run, Step.ofExcept_run, hdirectory]
    rfl
  have hget : (get : Step Failure Host) h = (.ok h, h) := rfl
  refine ⟨⟨directory, edited h directory, plugins,
    programCommand.augmented (Registry.ofPlugins plugins)⟩, h', ?_, rfl⟩
  exact (bind_of_ok hget).trans <| (bind_of_ok hfound).trans <| (bind_of_ok hget).trans <|
    (bind_of_ok hshow).trans <| (bind_of_ok htold).trans <| (bind_of_ok hdefaults).trans <|
    (bind_of_ok hload).trans <| bind_of_ok hregister

/-- The host whose log is shown as the configuration and the command line say. -/
def shown (args : List Bytes) (directory : Path) (h : Host) : Host :=
  let config := edited h directory
  let filter := (filterOf config h.environment args).1
  { h with logView := fun r => if filter.shows r then r.line config.format else [] }

/-- A session is opened by loading the files of the plugin directory, when nothing is to be told of
the configuration before. -/
theorem openSession_of_files {args : List Bytes} {h h' : Host} {directory : Path} {paths : List Path}
    {plugins : PluginSet} (hdirectory : Config.directoryOf h.environment = .ok directory)
    (hquiet : (filterOf (edited h directory) h.environment args).2 = [])
    (hread : (Config.load h.world.files directory).toOption.isSome = true)
    (hfiles : pluginFiles ((edited h directory).pluginsIn h.environment directory) h.world.files =
      (.ok paths, h.world.files))
    (heach : (PluginSet.loadEach (loadOptionsOf (edited h directory) args) paths :
        Step PluginError PluginSet) (Step.withWorld (shown args directory h) h.world) =
      (.ok plugins, h')) :
    ∃ s h'', openSession args h = (.ok (s, Registry.ofPlugins s.plugins), h'') ∧
      s.plugins = plugins := by
  obtain ⟨c, hload⟩ : ∃ c, Config.load h.world.files directory = .ok c := by
    cases hcase : Config.load h.world.files directory with
    | ok c => exact ⟨c, rfl⟩
    | error e =>
        rw [hcase] at hread
        cases hread
  have hfilter : filterOf (edited h directory) h.environment args =
      ((filterOf (edited h directory) h.environment args).1, []) := by
    rw [← hquiet]
  have hsetUp : setUp (edited h directory) (Config.load h.world.files directory) h.environment args
      h = (.ok (), shown args directory h) := by
    unfold setUp
    rw [hfilter, hload]
    rfl
  obtain ⟨s, h'', hopen, hplugins⟩ := openSession_of_load hdirectory hsetUp
    (loadPlugins_of_files hfiles heach)
  exact ⟨s, h'', hplugins ▸ hopen, hplugins⟩

theorem answer_of_parse {s : Session} {args : List Bytes} {i : Invocation} {request : Request}
    (hparse : s.command.parse args = .ok i) (hrequest : Request.ofInvocation i = some request)
    (registry : Registry) :
    s.answer registry args = (do s.perform registry request; pure 0) := by
  unfold Session.answer
  rw [hparse]
  dsimp only
  rw [hrequest]

/-- A session that is asked to run a plugin runs the last one of that name. -/
theorem perform_runPlugin {s : Session} {name : String} (hregistered : Registered s.plugins name) :
    ∃ place p, LastNamed s.plugins name place p ∧
      s.perform (Registry.ofPlugins s.plugins) (.runPlugin name) = (do
        let (result, _) ← p.run
        (Step.ofExcept (result.mapError InvocationError.ofRpc)).wrapped Failure.ofInvocation) := by
  obtain ⟨place, p, hlast, hresolve⟩ := Registry.resolve_of_registered hregistered
  refine ⟨place, p, hlast, ?_⟩
  show s.runPlugin (Registry.ofPlugins s.plugins) name = _
  unfold Session.runPlugin
  rw [Registry.dispatch_of_last hlast hresolve, bind_assoc]
  congr 1

/-- Commands agree with the plugins they stand for.  Dispatching a name runs the last plugin that
bears it, and it alone, and tells what became of that run; any other name runs nothing.  Augmenting
a command keeps its sub-commands and adds one for each further name.  And on an accepted command
line, a name of the host is answered by the host, and any other by the last plugin of that name. -/
theorem commands_agree :
    (∀ (ε : Type) (plugins : PluginSet) (name : String),
      (Registered plugins name → ∃ place p, LastNamed plugins name place p ∧
        ((Registry.ofPlugins plugins).dispatch name plugins : Step ε _) = (do
          let (result, p) ← p.run
          pure (result.mapError InvocationError.ofRpc, plugins.set place p))) ∧
      (¬Registered plugins name →
        ((Registry.ofPlugins plugins).dispatch name plugins : Step ε _) =
          pure (.error (.unknown name), plugins))) ∧
    (∀ failure, InvocationError.ofRpc (.status failure) = .refused failure.message) ∧
    (∀ e, (∀ failure, e ≠ .status failure) → InvocationError.ofRpc e = .transport e) ∧
    (∀ (plugins : PluginSet) (c : Command), (c.subcommands.map (·.name)).Nodup → ∃ added,
      c.augmented (Registry.ofPlugins plugins) = { c with subcommands := c.subcommands ++ added } ∧
        ((c.subcommands ++ added).map (·.name)).Nodup ∧
        ∀ name, name ∈ added.map (·.name) ↔
          Registered plugins name ∧ name ∉ c.subcommands.map (·.name)) ∧
    ∀ args h h' s registry i, openSession args h = (.ok (s, registry), h') →
      s.command.parse args = .ok i → ∃ name rest request, i.path = name :: rest ∧
        s.answer registry args = (do s.perform registry request; pure 0) ∧
        (name ∈ ownNames → request.path = i.path ∧ ∀ other, request ≠ .runPlugin other) ∧
        (name ∉ ownNames → rest = [] ∧ ∃ place p, LastNamed s.plugins name place p ∧
          s.perform registry request = (do
            let (result, _) ← p.run
            (Step.ofExcept (result.mapError InvocationError.ofRpc)).wrapped
              Failure.ofInvocation)) := by
  refine ⟨fun ε plugins name => ⟨fun hregistered => ?_, fun hnot => ?_⟩, fun _ => rfl,
    fun e he => ?_, fun plugins c hdistinct => augmented_spec plugins hdistinct, ?_⟩
  · obtain ⟨place, p, hlast, hresolve⟩ := Registry.resolve_of_registered hregistered
    exact ⟨place, p, hlast, Registry.dispatch_of_last hlast hresolve⟩
  · exact Registry.dispatch_unknown (Registry.resolve_of_not_registered hnot)
  · cases e with
    | status failure => exact absurd rfl (he failure)
    | _ => rfl
  · intro args h h' s registry i hopen hparse
    obtain ⟨⟨-, -, hcommand⟩, -⟩ := openSession_stages hopen
    obtain rfl := openSession_registry hopen
    rw [hcommand] at hparse
    obtain ⟨name, rest, request, hpath, hrequest, hown, hplugin⟩ := ofInvocation_of_parse hparse
    rw [← hcommand] at hparse
    refine ⟨name, rest, request, hpath, answer_of_parse hparse hrequest _, hown, fun hname => ?_⟩
    obtain ⟨hrest, rfl, c, hresolve⟩ := hplugin hname
    refine ⟨hrest, perform_runPlugin ?_⟩
    by_contra hnot
    rw [Registry.resolve_of_not_registered hnot] at hresolve
    cases hresolve

/-- A plugin directory with a plugin that bears the name of a command of the host, and with two
plugins of one name.  Each file holds the address at which its program listens. -/
def echoTree : FileTree where
  entries := [([utf8 "cfg"], .directory), ([utf8 "cfg", utf8 "plugins"], .directory),
    ([utf8 "cfg", utf8 "plugins", utf8 "config"], .file 0o755 (utf8 "/run/0")),
    ([utf8 "cfg", utf8 "plugins", utf8 "echo.1"], .file 0o755 (utf8 "/run/1")),
    ([utf8 "cfg", utf8 "plugins", utf8 "echo.2"], .file 0o755 (utf8 "/run/2"))]
  workingDirectory := []

/-- A program that answers every request with the description of a plugin. -/
def echoProgram (address : String) : Executable := fun start =>
  { stdout := utf8 ((HandshakeLine.new 1 .unix address).display ++ "\n")
    stage := .serving .unix (utf8 address) fun _ _ =>
      { sent := utf8 ("[\"2.0\",1,[\"" ++ Demo.nameOf start.name ++ "\"]]\n") } }

/-- A host that starts these programs. -/
def echoHost : Host where
  world := { files := echoTree, client := .offline }
  executables data := (text? data).map echoProgram
  environment := [(configDirectoryVariable, utf8 "cfg")]

/-- A command line that runs a plugin. -/
def echoLine : List Bytes := [utf8 "echo", utf8 "hi"]

theorem openSession_echo :
    ∃ s h', openSession echoLine echoHost = (.ok (s, Registry.ofPlugins s.plugins), h') ∧
      s.plugins.map (·.descriptor.name) = ["config", "echo", "echo"] := by
  have hfiles : pluginFiles ((edited echoHost (utf8 "cfg")).pluginsIn echoHost.environment
      (utf8 "cfg")) echoTree =
        (.ok [utf8 "cfg/plugins/config", utf8 "cfg/plugins/echo.1", utf8 "cfg/plugins/echo.2"],
          echoTree) := by
    have hplugins : (edited echoHost (utf8 "cfg")).pluginsIn echoHost.environment (utf8 "cfg") =
        utf8 "cfg/plugins" := by
      decide +kernel
    have hnames : echoTree.list (utf8 "cfg/plugins") =
        .ok [utf8 "config", utf8 "echo.1", utf8 "echo.2"] := by
      decide +kernel
    rw [hplugins, pluginFiles_of_sorted (by decide +kernel) hnames (by decide +kernel)]
    rfl
  have hnames : ((PluginSet.loadEach (loadOptionsOf (edited echoHost (utf8 "cfg")) echoLine)
      [utf8 "cfg/plugins/config", utf8 "cfg/plugins/echo.1", utf8 "cfg/plugins/echo.2"] :
        Step PluginError PluginSet)
          (Step.withWorld (shown echoLine (utf8 "cfg") echoHost) echoHost.world)).1.toOption.map
            (fun plugins => plugins.map (·.descriptor.name)) =
      some ["config", "echo", "echo"] := by
    decide +kernel
  obtain ⟨plugins, h', heach, hplugins⟩ := Step.exists_ok_of_map hnames
  obtain ⟨s, h'', hopen, rfl⟩ := openSession_of_files (by decide +kernel) (by decide +kernel)
    (by decide +kernel) hfiles heach
  exact ⟨s, h'', hopen, hplugins⟩

/-- The second one of the two plugins is run, and the one that is called config never is. -/
theorem commands_agree_echo :
    ∃ s registry h', openSession echoLine echoHost = (.ok (s, registry), h') ∧
      s.plugins.map (·.descriptor.name) = ["config", "echo", "echo"] ∧
      (∃ p, s.plugins[2]? = some p ∧ s.answer registry echoLine = (do
        (do
          let (result, _) ← p.run
          (Step.ofExcept (result.mapError InvocationError.ofRpc)).wrapped Failure.ofInvocation)
        pure 0)) ∧
      ((Registry.ofPlugins s.plugins).dispatch "config" s.plugins : Step Failure _) =
        pure (.error (.unknown "config"), s.plugins) := by
  obtain ⟨hdispatch, -, -, -, hmain⟩ := commands_agree
  obtain ⟨s, h', hopen, hnames⟩ := openSession_echo
  have hregistered : Registered s.plugins "echo" := by
    have hmem : "echo" ∈ s.plugins.map (·.descriptor.name) := by
      rw [hnames]
      decide
    obtain ⟨p, hp, hname⟩ := List.mem_map.1 hmem
    exact ⟨by decide, p, hp, hname⟩
  obtain ⟨⟨-, -, hcommand⟩, -⟩ := openSession_stages hopen
  obtain ⟨_, _, _, hresolve⟩ := Registry.resolve_of_registered hregistered
  have hparse : s.command.parse echoLine = .ok { path := ["echo"], arguments := [utf8 "hi"] } := by
    have hread := readAll_plugin hresolve (by decide) [] [utf8 "hi"]
    rw [hcommand]
    exact hread
  obtain ⟨name, rest, request, hpath, hanswer, -, hplugin⟩ := hmain _ _ _ _ _ _ hopen hparse
  cases hpath
  obtain ⟨-, place, p, hlast, hperform⟩ := hplugin (by decide)
  have hplace : place = 2 := by
    obtain ⟨hthere, hname, hlater⟩ := hlast
    have hlength : s.plugins.length = 3 := by simpa using congrArg List.length hnames
    have hbound := (List.getElem?_eq_some_iff.1 hthere).1
    obtain ⟨q, hq⟩ : ∃ q, s.plugins[2]? = some q := ⟨_, List.getElem?_eq_getElem (by omega)⟩
    have hqname : q.descriptor.name = "echo" := by
      have hmapped := congrArg (·[2]?) hnames
      simpa [hq] using hmapped
    by_contra hne
    exact hlater 2 q (by omega) hq hqname
  subst hplace
  refine ⟨s, _, h', hopen, hnames, ⟨p, hlast.1, ?_⟩,
    (hdispatch _ _ "config").2 fun h => h.1 (by decide)⟩
  rw [hanswer, hperform]

end PluginHost.CommandLine

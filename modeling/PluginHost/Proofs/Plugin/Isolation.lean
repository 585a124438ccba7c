import Mathlib.Data.List.Sublists
import PluginHost.Demo
import PluginHost.Proofs.Plugin.Listing
import PluginHost.Proofs.Plugin.Loading

/-!
# Plugins are loaded independently

A run of the loader adds up what the files come to, one after the other (`loadEach_run`): the
plugins are those of the files that come out well, in their order, each with a child of its own, and
each other file gives one warning (`LoadsAs`).

`loadAll_apart` says so of every plugin directory in which the outcome of a file does not depend on
the files that are loaded before it (`Apart`).  The failing files leave no trace in the set of
plugins, and when the set is dropped, nothing that was started is left.
-/

namespace PluginHost

open Children Rpc FileTree PluginHost.Path

/-! ## Loading file after file -/

theorem loadEach_of_loaded {ε : Type} {options : LoadOptions} {path : Path} {h h' : Host}
    {plugin : LoadedPlugin} (hload : LoadedPlugin.load options path h = (.ok plugin, h'))
    (rest : List Path) :
    (PluginSet.loadEach options (path :: rest) : Step ε PluginSet) h =
      ((PluginSet.loadEach options rest : Step ε PluginSet) >>= fun others =>
        pure (plugin :: others)) (Step.noted h' (loadedRecord path plugin.descriptor)) := by
  rw [PluginSet.loadEach, bind_run, Step.attempt_run, hload]
  rfl

theorem loadEach_of_failed {ε : Type} {options : LoadOptions} {path : Path} {h h' : Host}
    {e : PluginError} (hload : LoadedPlugin.load options path h = (.error (.failed e), h'))
    (rest : List Path) :
    (PluginSet.loadEach options (path :: rest) : Step ε PluginSet) h =
      (PluginSet.loadEach options rest : Step ε PluginSet)
        (Step.noted h' (failedRecord path e)) := by
  rw [PluginSet.loadEach, bind_run, Step.attempt_run, hload]
  rfl

/-- What the files come out as, each by its path. -/
abbrev Outcomes := Path → Except PluginError PluginInfo

/-- The descriptor of a file that comes out well. -/
def Outcomes.descriptor? (out : Outcomes) (path : Path) : Option Descriptor :=
  match out path with
  | .ok info => some (.ofInfo info path)
  | .error _ => none

/-- The warning about a file that fails. -/
def Outcomes.warning? (out : Outcomes) (path : Path) : Option LogRecord :=
  match out path with
  | .ok _ => none
  | .error e => some (failedRecord path e)

/-- The plugins of the files that come out well have been loaded, in the order of the files.  Each
of them has a child, and every other file has been warned of. -/
structure LoadsAs (out : Outcomes) (files : List Path) (h : Host) (plugins : PluginSet)
    (h' : Host) : Prop where
  descriptors : plugins.descriptors = files.filterMap out.descriptor?
  running : ∀ plugin ∈ plugins, plugin.process.isTerminated = false
  accounted : Accounted h (plugins.map (·.process.pid)) (files.filterMap out.warning?) h'

theorem LoadsAs.nil (out : Outcomes) (h : Host) : LoadsAs out [] h [] h :=
  ⟨rfl, nofun, Settles.refl h⟩

theorem LoadsAs.cons_loaded {out : Outcomes} {path : Path} {info : PluginInfo}
    (hout : out path = .ok info) {files : List Path} {h h₁ h' : Host} {plugin : LoadedPlugin}
    {plugins : PluginSet} (hdescriptor : plugin.descriptor = .ofInfo info path)
    (hrunning : plugin.process.isTerminated = false)
    (hfirst : Accounted h [plugin.process.pid] [] h₁) (hrest : LoadsAs out files h₁ plugins h') :
    LoadsAs out (path :: files) h (plugin :: plugins) h' where
  descriptors := by
    have hkept : out.descriptor? path = some (.ofInfo info path) := by
      simp [Outcomes.descriptor?, hout]
    rw [List.filterMap_cons_some hkept, ← hrest.descriptors, ← hdescriptor]
    rfl
  running := by
    intro other hother
    rcases List.mem_cons.1 hother with rfl | hother
    · exact hrunning
    · exact hrest.running other hother
  accounted := by
    have hquiet : out.warning? path = none := by simp [Outcomes.warning?, hout]
    rw [List.filterMap_cons_none hquiet]
    exact hfirst.trans hrest.accounted

theorem LoadsAs.cons_failed {out : Outcomes} {path : Path} {e : PluginError}
    (hout : out path = .error e) {files : List Path} {h h₁ h' : Host} {plugins : PluginSet}
    (hfirst : Accounted h [] [failedRecord path e] h₁) (hrest : LoadsAs out files h₁ plugins h') :
    LoadsAs out (path :: files) h plugins h' where
  descriptors := by
    have hskipped : out.descriptor? path = none := by simp [Outcomes.descriptor?, hout]
    rw [List.filterMap_cons_none hskipped, hrest.descriptors]
  running := hrest.running
  accounted := by
    have hwarned : out.warning? path = some (failedRecord path e) := by
      simp [Outcomes.warning?, hout]
    rw [List.filterMap_cons_some hwarned]
    exact hfirst.trans hrest.accounted

/-- The files come out as they should, each of them behind the files that are loaded before it. -/
def ComeOut (options : LoadOptions) (out : Outcomes) (files : List Path) (h : Host) : Prop :=
  ∀ visited path, visited ++ [path] <+: files →
    (stages options path
      ((PluginSet.loadEach options visited : Step PluginError PluginSet) h).2).1 =
        (out path).mapError .failed

section ComeOut

variable {options : LoadOptions} {out : Outcomes} {path : Path} {rest : List Path} {h h' : Host}

theorem ComeOut.first (hout : ComeOut options out (path :: rest) h) :
    (stages options path h).1 = (out path).mapError .failed :=
  hout [] path (List.prefix_append [path] rest)

theorem ComeOut.behind_loaded (hout : ComeOut options out (path :: rest) h) {plugin : LoadedPlugin}
    (hload : LoadedPlugin.load options path h = (.ok plugin, h')) :
    ComeOut options out rest (Step.noted h' (loadedRecord path plugin.descriptor)) := by
  intro visited next hnext
  have hnext' := hout (path :: visited) next (List.cons_prefix_cons.2 ⟨rfl, hnext⟩)
  rwa [loadEach_of_loaded hload, bind_pure_state] at hnext'

theorem ComeOut.behind_failed (hout : ComeOut options out (path :: rest) h) {e : PluginError}
    (hload : LoadedPlugin.load options path h = (.error (.failed e), h')) :
    ComeOut options out rest (Step.noted h' (failedRecord path e)) := by
  intro visited next hnext
  have hnext' := hout (path :: visited) next (List.cons_prefix_cons.2 ⟨rfl, hnext⟩)
  rwa [loadEach_of_failed hload] at hnext'

end ComeOut

/-- A run of the loader does with every file what its outcome says. -/
theorem loadEach_run {options : LoadOptions} {out : Outcomes} {files : List Path} {h : Host}
    (hn : h.Numbered) (hout : ComeOut options out files h) :
    ∃ plugins h', (PluginSet.loadEach options files : Step PluginError PluginSet) h =
      (.ok plugins, h') ∧ LoadsAs out files h plugins h' := by
  induction files generalizing h with
  | nil => exact ⟨[], h, rfl, .nil out h⟩
  | cons path rest ih =>
      have hstages := hout.first
      cases hpath : out path with
      | ok info =>
          rw [hpath] at hstages
          obtain ⟨plugin, h₁, hload, hdescriptor, hrunning, hfirst⟩ := load_of_success hn hstages
          have hnoted := hfirst.trans (noted_accounted h₁ (loadedRecord path plugin.descriptor))
          obtain ⟨plugins, h', hrest, hloads⟩ :=
            ih (hnoted.numbered hn) (hout.behind_loaded hload)
          refine ⟨plugin :: plugins, h', ?_, hloads.cons_loaded hpath hdescriptor hrunning hnoted⟩
          rw [loadEach_of_loaded hload, bind_run, hrest]
          rfl
      | error e =>
          rw [hpath] at hstages
          obtain ⟨h₁, hload, hfirst⟩ := load_of_failure hn hstages
          have hnoted := hfirst.trans (noted_accounted h₁ (failedRecord path e))
          obtain ⟨plugins, h', hrest, hloads⟩ :=
            ih (hnoted.numbered hn) (hout.behind_failed hload)
          refine ⟨plugins, h', ?_, hloads.cons_failed hpath hnoted⟩
          rw [loadEach_of_failed hload]
          exact hrest

/-! ## Dropping the plugins -/

/-- When plugins are ended that are all that is left, nothing is left. -/
theorem terminate_accounted {ε : Type} {h h' : Host} {plugins : PluginSet}
    {warnings : List LogRecord} (hn : h.Numbered)
    (hrunning : ∀ plugin ∈ plugins, plugin.process.isTerminated = false)
    (hacc : Accounted h (plugins.map (·.process.pid)) warnings h') :
    ∃ ended h'', (plugins.terminate : Step ε PluginSet) h' = (.ok ended, h'') ∧
      Accounted h [] warnings h'' := by
  induction plugins generalizing h' with
  | nil => exact ⟨[], h', rfl, hacc⟩
  | cons plugin plugins ih =>
      have hnodup := (hacc.numbered hn).tracked_nodup
      rw [hacc.tracked, List.map_cons] at hnodup
      have hother : plugin.process.pid ∉ plugins.map (·.process.pid) :=
        (List.nodup_cons.1 (List.nodup_append.1 hnodup).2.1).1
      have hleft : (plugin.process.pid :: plugins.map (·.process.pid)).filter
          (· != plugin.process.pid) = plugins.map (·.process.pid) := by
        rw [List.filter_cons_of_neg (by simp), List.filter_eq_self]
        intro pid hpid
        rw [bne_iff_ne]
        rintro rfl
        exact hother hpid
      have hended := hacc.ended hn (List.mem_cons_self ..)
      rw [List.map_cons, hleft] at hended
      obtain ⟨ended, h'', hrun, hall⟩ :=
        ih (fun other hmem => hrunning other (List.mem_cons_of_mem _ hmem)) hended
      refine ⟨{ plugin with process := { plugin.process with isTerminated := true } } :: ended, h'',
        ?_, hall⟩
      have hfirst := terminate_run (ε := ε) (hrunning plugin (List.mem_cons_self ..)) h'
      rw [PluginSet.terminate, List.mapM_cons, bind_run, LoadedPlugin.terminate, bind_run, hfirst]
      show ((PluginSet.terminate plugins >>= fun others => _ : Step ε PluginSet) _) = _
      rw [bind_run, hrun]
      rfl

/-! ## Loading a directory -/

/-- A plugin directory in which every file comes out as a success or a failure of its own, whichever
of the files in front of it have been loaded before. -/
structure Apart (options : LoadOptions) (out : Outcomes) (directory : Path) (d : Location)
    (h : Host) : Prop where
  tidy : Tidy h.world.files
  numbered : h.Numbered
  located : h.world.files.locate true directory = .ok d
  isDirectory : h.world.files.get? d = some .directory
  outcome : ∀ visited name,
    (visited ++ [name]).Pairwise (fun a b => Bytes.before a b = true) →
    (∀ other ∈ visited ++ [name], HoldsFile h.world.files directory d other) →
    (stages options (Path.join directory name) ((PluginSet.loadEach options
      (visited.map (Path.join directory)) : Step PluginError PluginSet) h).2).1 =
        (out (Path.join directory name)).mapError .failed

theorem withWorld_self (h : Host) : Step.withWorld h h.world = h := by
  simp [Step.withWorld]

/-- In a directory that is there, the files are loaded that are listed. -/
theorem loadAll_of_listed (options : LoadOptions) {directory : Path} {h : Host} {files : List Path}
    (hlisted : pluginFiles directory h.world.files = (.ok files, h.world.files)) :
    PluginSet.loadAll options directory h =
      (PluginSet.loadEach options files : Step PluginError PluginSet) h := by
  have htask : Task.onFiles ((pluginFiles directory).wrapped PluginError.io) h.world =
      (.ok files, h.world) := by
    rw [Task.onFiles_eq, FileAction.wrapped_eq, hlisted]
    rfl
  have hworld : Step.onWorld (Task.onFiles ((pluginFiles directory).wrapped PluginError.io)) h =
      (.ok files, h) := by
    rw [Step.onWorld, htask]
    exact congrArg _ (withWorld_self h)
  rw [PluginSet.loadAll, bind_run, hworld]

theorem Apart.exists_loadsAs {options : LoadOptions} {out : Outcomes} {directory : Path}
    {d : Location} {h : Host} (hapart : Apart options out directory d h) :
    ∃ names plugins h', Names h.world.files directory d names ∧
      PluginSet.loadAll options directory h = (.ok plugins, h') ∧
      LoadsAs out (names.map (Path.join directory)) h plugins h' := by
  obtain ⟨-, hdirectory, -, -⟩ := locate_ok hapart.located
  obtain ⟨files, hlisted, hfiles⟩ :=
    pluginFiles_lists hapart.tidy hapart.located hapart.isDirectory
  obtain ⟨names, hnames, rfl⟩ := hfiles.exists_names hapart.tidy hdirectory
  have hrun : ComeOut options out (names.map (Path.join directory)) h := by
    intro visited path hvisited
    rw [List.prefix_iff_eq_take, ← List.map_take] at hvisited
    generalize (visited ++ [path]).length = n at hvisited
    obtain ⟨before, last, hsplit, rfl, hlast⟩ := List.map_eq_append_iff.1 hvisited.symm
    obtain ⟨name, rfl, rfl⟩ := List.map_eq_singleton_iff.1 hlast
    have hsub : (before ++ [name]).Sublist names := hsplit ▸ List.take_sublist n names
    exact hapart.outcome before name (hnames.sorted.sublist hsub)
      fun other hother => (hnames.mem_iff other).1 (hsub.subset hother)
  obtain ⟨plugins, h', hload, hloads⟩ := loadEach_run hapart.numbered hrun
  exact ⟨names, plugins, h', hnames, (loadAll_of_listed options hlisted).trans hload, hloads⟩

/-- The descriptors are those of the names that come out well. -/
theorem filterMap_descriptor?_eq (out : Outcomes) (directory : Path) (names : List Bytes) :
    (names.map (Path.join directory)).filterMap out.descriptor? =
      (names.filter fun name => (out.descriptor? (Path.join directory name)).isSome).filterMap
        fun name => out.descriptor? (Path.join directory name) := by
  rw [List.filterMap_map, List.filterMap_filter]
  apply List.filterMap_congr
  intro name _
  cases h : out.descriptor? (Path.join directory name) <;> simp [h]

/-- Directories that hold the same files that come out well have the same plugins. -/
theorem LoadsAs.descriptors_eq {out : Outcomes} {directory : Path} {d₁ d₂ : Location}
    {t₁ t₂ : FileTree} {names₁ names₂ : List Bytes} {plugins₁ plugins₂ : PluginSet}
    {h₁ h₁' h₂ h₂' : Host}
    (hloads₁ : LoadsAs out (names₁.map (Path.join directory)) h₁ plugins₁ h₁')
    (hloads₂ : LoadsAs out (names₂.map (Path.join directory)) h₂ plugins₂ h₂')
    (hnames₁ : Names t₁ directory d₁ names₁) (hnames₂ : Names t₂ directory d₂ names₂)
    (hsame : ∀ name, (out.descriptor? (Path.join directory name)).isSome = true →
      (HoldsFile t₁ directory d₁ name ↔ HoldsFile t₂ directory d₂ name)) :
    plugins₁.descriptors = plugins₂.descriptors := by
  rw [hloads₁.descriptors, hloads₂.descriptors, filterMap_descriptor?_eq,
    filterMap_descriptor?_eq out directory names₂]
  congr 1
  apply List.Subset.antisymm_of_pairwise (hnames₁.sorted.filter _) (hnames₂.sorted.filter _)
  · intro name hname
    obtain ⟨hmem, hwell⟩ := List.mem_filter.1 hname
    have hheld := (hsame name hwell).1 ((hnames₁.mem_iff name).1 hmem)
    exact List.mem_filter.2 ⟨(hnames₂.mem_iff name).2 hheld, hwell⟩
  · intro name hname
    obtain ⟨hmem, hwell⟩ := List.mem_filter.1 hname
    have hheld := (hsame name hwell).2 ((hnames₂.mem_iff name).1 hmem)
    exact List.mem_filter.2 ⟨(hnames₁.mem_iff name).2 hheld, hwell⟩

theorem fileText_join {directory : Path} (hdirectory : directory ≠ []) {name : Bytes}
    (hname : IsName name) : fileText (Path.join directory name) = Path.display name := by
  rw [fileText, Path.fileName, components_join_name hdirectory hname]
  simp

/-- In a directory whose files come out apart from each other, exactly those are loaded that come
out well, in the order of their names.  Nothing is left of the others but a warning that names the
file.  Dropping the plugins leaves nothing at all, and a directory that differs in failing files
only has the same plugins. -/
theorem loadAll_apart {options : LoadOptions} {out : Outcomes} {directory : Path} {d : Location}
    {h : Host} (hapart : Apart options out directory d h) :
    ∃ names plugins h', Names h.world.files directory d names ∧
      PluginSet.loadAll options directory h = (.ok plugins, h') ∧
      LoadsAs out (names.map (Path.join directory)) h plugins h' ∧ h'.Numbered ∧
      (∀ name ∈ names,
        (LoadedPlugin.load options (Path.join directory name) h).1.map (·.descriptor) =
            ((out (Path.join directory name)).mapError .failed).map
              (.ofInfo · (Path.join directory name)) ∧
          fileText (Path.join directory name) = Path.display name) ∧
      (∃ ended h'', (plugins.terminate : Step PluginError PluginSet) h' = (.ok ended, h'') ∧
        h''.tracked = h.tracked ∧ ∀ pid ∈ h''.alivePids, pid ∈ h.alivePids) ∧
      ∀ d₂ h₂, Apart options out directory d₂ h₂ →
        (∀ name, (out.descriptor? (Path.join directory name)).isSome = true →
          (HoldsFile h.world.files directory d name ↔
            HoldsFile h₂.world.files directory d₂ name)) →
        ∃ plugins₂ h₂', PluginSet.loadAll options directory h₂ = (.ok plugins₂, h₂') ∧
          plugins₂.descriptors = plugins.descriptors := by
  obtain ⟨-, hdirectory, -, -⟩ := locate_ok hapart.located
  obtain ⟨names, plugins, h', hnames, hload, hloads⟩ := hapart.exists_loadsAs
  refine ⟨names, plugins, h', hnames, hload, hloads, hloads.accounted.numbered hapart.numbered, ?_,
    ?_, ?_⟩
  · intro name hname
    have hheld := (hnames.mem_iff name).1 hname
    have halone := hapart.outcome [] name (List.pairwise_singleton _ name) fun other hother => by
      rw [List.nil_append, List.mem_singleton] at hother
      exact hother ▸ hheld
    refine ⟨?_, fileText_join hdirectory (hheld.isName hapart.tidy)⟩
    rw [load_descriptor, ← halone]
    rfl
  · obtain ⟨ended, h'', hended, hnothing⟩ :=
      terminate_accounted (ε := PluginError) hapart.numbered hloads.running hloads.accounted
    refine ⟨ended, h'', hended, ?_, fun pid hpid => ?_⟩
    · rw [hnothing.tracked, List.append_nil]
    · exact (hnothing.alive pid hpid).resolve_left List.not_mem_nil
  · intro d₂ h₂ hapart₂ hsame
    obtain ⟨names₂, plugins₂, h₂', hnames₂, hload₂, hloads₂⟩ := hapart₂.exists_loadsAs
    exact ⟨plugins₂, h₂', hload₂, (hloads.descriptors_eq hloads₂ hnames hnames₂ hsame).symm⟩

/-- A plugin directory with a plugin, a file that may not be executed and a directory. -/
def pluginTree : FileTree where
  entries := [([utf8 "plugins"], .directory),
    ([utf8 "plugins", utf8 "notes"], .file newFileMode (utf8 "demo")),
    ([utf8 "plugins", utf8 "nested"], .directory),
    ([utf8 "plugins", utf8 "echo"], .file 0o755 (utf8 "demo"))]
  workingDirectory := []

/-- A host that can start the demo plugin. -/
def pluginHost : Host where
  world := { files := pluginTree, client := .offline }
  executables data := if data == utf8 "demo" then some (Demo.launch "127.0.0.1:4000") else none
  environment := []

def echoInfo : PluginInfo := ⟨"echo", "Echo the arguments it is given", "1.0"⟩

/-- What the files come out as. -/
def pluginOutcomes : Outcomes := fun path =>
  if path = utf8 "/plugins/echo" then .ok echoInfo else .error (.permissionDenied path)

theorem pluginTree_names :
    Names pluginTree (utf8 "/plugins") [utf8 "plugins"] [utf8 "echo", utf8 "notes"] := by
  have hfiles : [utf8 "echo", utf8 "notes"].Perm ((pluginTree.namesIn [utf8 "plugins"]).filter
      fun name => pluginTree.isFile (Path.join (utf8 "/plugins") name)) := by
    decide +kernel
  refine ⟨by decide +kernel, fun name => ?_⟩
  rw [hfiles.mem_iff, List.mem_filter, mem_namesIn_iff, HoldsFile]

/-- The two files come out as they should, the second one also behind the first one. -/
theorem pluginHost_apart :
    Apart {} pluginOutcomes (utf8 "/plugins") [utf8 "plugins"] pluginHost where
  tidy := by
    refine ⟨?_, ?_, ?_⟩ <;> decide +kernel
  numbered := ⟨by decide, by decide, by decide, by decide⟩
  located := by decide +kernel
  isDirectory := by decide +kernel
  outcome := by
    have hecho : Path.join (utf8 "/plugins") (utf8 "echo") = utf8 "/plugins/echo" := by
      decide +kernel
    have hnotes : Path.join (utf8 "/plugins") (utf8 "notes") = utf8 "/plugins/notes" := by
      decide +kernel
    have hsucceeds : (stages {} (utf8 "/plugins/echo") pluginHost).1 = .ok echoInfo :=
      ok_of_toOption (by decide +kernel)
    have hfails : ∀ h : Host,
        executableFile h.world.files (utf8 "/plugins/notes") = .error .permissionDenied →
        (stages {} (utf8 "/plugins/notes") h).1 =
          (pluginOutcomes (utf8 "/plugins/notes")).mapError .failed := by
      intro h hfile
      have hout : pluginOutcomes (utf8 "/plugins/notes") =
          .error (.permissionDenied (utf8 "/plugins/notes")) :=
        if_neg (by decide +kernel)
      rw [hout]
      exact stages_of_refused rfl hfile
    intro visited name hsorted hheld
    have hsublist := List.mem_sublists.2 (pluginTree_names.sublist hsorted hheld)
    have hsublists : [utf8 "echo", utf8 "notes"].sublists =
        [[], [] ++ [utf8 "echo"], [] ++ [utf8 "notes"], [utf8 "echo"] ++ [utf8 "notes"]] := rfl
    simp only [hsublists, List.mem_cons, List.not_mem_nil, or_false] at hsublist
    rcases hsublist with hnone | hfirst | hsecond | hboth
    · exact absurd hnone (by simp)
    · obtain ⟨rfl, hname⟩ := List.append_inj' hfirst rfl
      cases hname
      rw [hecho]
      exact hsucceeds
    · obtain ⟨rfl, hname⟩ := List.append_inj' hsecond rfl
      cases hname
      rw [hnotes]
      exact hfails _ (by decide +kernel)
    · obtain ⟨rfl, hname⟩ := List.append_inj' hboth rfl
      cases hname
      rw [hnotes, List.map_singleton, hecho]
      exact hfails _ (by decide +kernel)

/-- The demo plugin is loaded; the file that may not be executed is told of. -/
theorem loadAll_apart_pluginHost :
    Apart {} pluginOutcomes (utf8 "/plugins") [utf8 "plugins"] pluginHost ∧
      ∃ plugins h', PluginSet.loadAll {} (utf8 "/plugins") pluginHost = (.ok plugins, h') ∧
        plugins.descriptors = [.ofInfo echoInfo (utf8 "/plugins/echo")] ∧
        h'.tracked = plugins.map (·.process.pid) := by
  obtain ⟨names, plugins, h', hnames, hload, hloads, -⟩ := loadAll_apart pluginHost_apart
  have hboth : names = [utf8 "echo", utf8 "notes"] := hnames.eq pluginTree_names
  refine ⟨pluginHost_apart, plugins, h', hload, ?_, hloads.accounted.tracked⟩
  rw [hloads.descriptors, hboth]
  decide +kernel

end PluginHost

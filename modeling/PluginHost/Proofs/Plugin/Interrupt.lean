import Mathlib.Logic.Relation
import PluginHost.Proofs.Plugin.Loading

/-!
# Interrupting the loader

A signal can arrive at any time while plugins are loaded.  Its handler takes the children off the
list of those that are tracked, ends one after the other, and ends the host; the loader goes on in
the meantime.  `Advances` lets the two take turns in any order, and lets children write and end in
between.  Loading in one go is one of these orders, also when a plugin signals the host
(`loadEach_reaches`).

Whoever is alive is on the list or still with the handler, or has been started after the handler
took the list (`Guarded`).  So the children that were there when the signal came do not outlive the
host, but one that is started behind the handler's back does.  By `interrupt_leaves_none_iff` there
can be one exactly if a program that goes on running is left among the files.
-/

namespace PluginHost

open Children Rpc

namespace Interrupt

/-! ## Loader, handler and children -/

/-- Where the loader stands, and the files in front of it. -/
inductive Loader where
  /-- Between two files. -/
  | next (rest : List Path)
  /-- A file has been started and has not described itself yet. -/
  | waiting (process : PluginProcess) (rest : List Path)
  /-- The load has failed. -/
  | failed (process : PluginProcess) (rest : List Path)
  /-- The load has failed and the process has been ended, but is still on the list. -/
  | ended (process : PluginProcess) (rest : List Path)

/-- The files that have not been started. -/
def Loader.rest : Loader → List Path
  | .next rest => rest
  | .waiting _ rest => rest
  | .failed _ rest => rest
  | .ended _ rest => rest

/-- Where the handler of signals stands. -/
inductive Handler where
  /-- No signal has arrived. -/
  | idle
  /-- It has taken the list; these children are still to be ended. -/
  | ending (pids : List Nat)
  /-- It has ended the host. -/
  | exited
  deriving DecidableEq

structure Scene where
  host : Host
  loader : Loader
  handler : Handler

/-- What programs are found by and started with. -/
def setting (h : Host) : FileTree × (Bytes → Option Executable) × Environment :=
  (h.world.files, h.executables, h.environment)

/-- No child is started and nobody comes to life. -/
structure Calm (h h' : Host) : Prop where
  alive : ∀ pid ∈ h'.alivePids, pid ∈ h.alivePids
  nextPid : h'.nextPid = h.nextPid
  setting : setting h' = setting h

/-- What may happen at any time: children write or end, and the host writes or reads. -/
structure Stirs (h h' : Host) : Prop extends Calm h h' where
  tracked : h'.tracked = h.tracked

/-- The loader does its next action. -/
inductive LoaderStep (options : LoadOptions) : Host × Loader → Host × Loader → Prop where
  /-- The next file cannot be started. -/
  | refused {h h' : Host} {path : Path} {rest : List Path} {e : Stop PluginError} :
      spawn path options.args options.offer h = (.error e, h') →
        LoaderStep options (h, .next (path :: rest)) (h', .next rest)
  /-- The next file is started and tracked. -/
  | started {h h' : Host} {path : Path} {rest : List Path} {process : PluginProcess} :
      spawn path options.args options.offer h = (.ok process, h') →
        LoaderStep options (h, .next (path :: rest)) (h', .waiting process rest)
  /-- The started plugin has described itself. -/
  | described {h h' : Host} {process : PluginProcess} {rest : List Path} {plugin : LoadedPlugin} :
      LoadedPlugin.describe options process h = (.ok plugin, h') →
        LoaderStep options (h, .waiting process rest) (h', .next rest)
  /-- The load fails, be it that the child has ended, is too slow or says something wrong. -/
  | failed {h : Host} {process : PluginProcess} {rest : List Path} :
      LoaderStep options (h, .waiting process rest) (h, .failed process rest)
  | ended {h : Host} {process : PluginProcess} {rest : List Path} :
      LoaderStep options (h, .failed process rest) (h.childEnds process.pid, .ended process rest)
  | forgotten {h : Host} {process : PluginProcess} {rest : List Path} :
      LoaderStep options (h, .ended process rest)
        ({ h with tracked := h.tracked.filter (· != process.pid) }, .next rest)

/-- The handler does its next action. -/
inductive HandlerStep : Host × Handler → Host × Handler → Prop where
  /-- A signal arrives, and the list is taken. -/
  | taken {h : Host} : HandlerStep (h, .idle) ({ h with tracked := [] }, .ending h.tracked)
  | ended {h : Host} {pid : Nat} {pids : List Nat} :
      HandlerStep (h, .ending (pid :: pids)) (h.childEnds pid, .ending pids)
  | exited {h : Host} : HandlerStep (h, .ending []) (h, .exited)

/-- Someone does the next action.  The loader ends with the host. -/
inductive Advances (options : LoadOptions) : Scene → Scene → Prop where
  | loader {h h' : Host} {l l' : Loader} {k : Handler} : k ≠ .exited →
      LoaderStep options (h, l) (h', l') → Advances options ⟨h, l, k⟩ ⟨h', l', k⟩
  | handler {h h' : Host} {l : Loader} {k k' : Handler} :
      HandlerStep (h, k) (h', k') → Advances options ⟨h, l, k⟩ ⟨h', l, k'⟩
  | stirs {h h' : Host} {l : Loader} {k : Handler} :
      Stirs h h' → Advances options ⟨h, l, k⟩ ⟨h', l, k⟩

/-- What all can come of a scene. -/
abbrev Reaches (options : LoadOptions) : Scene → Scene → Prop :=
  Relation.ReflTransGen (Advances options)

/-! ## What leaves the children as they are -/

theorem Calm.refl (h : Host) : Calm h h := ⟨fun _ => id, rfl, rfl⟩

theorem Calm.trans {h₁ h₂ h₃ : Host} (h₁₂ : Calm h₁ h₂) (h₂₃ : Calm h₂ h₃) : Calm h₁ h₃ where
  alive pid hpid := h₁₂.alive pid (h₂₃.alive pid hpid)
  nextPid := h₂₃.nextPid.trans h₁₂.nextPid
  setting := h₂₃.setting.trans h₁₂.setting

theorem Stirs.of_tends {h h' : Host} (htends : Tends h h') : Stirs h h' where
  alive _ := htends.alive
  nextPid := htends.nextPid
  setting := by
    unfold Interrupt.setting
    rw [htends.world, htends.executables, htends.environment]
  tracked := htends.tracked

theorem noted_stirs (h : Host) (record : LogRecord) : Stirs h (Step.noted h record) :=
  ⟨⟨fun _ => id, rfl, rfl⟩, rfl⟩

instance : Std.Refl Stirs := ⟨fun h => ⟨.refl h, rfl⟩⟩

instance : Trans Stirs Stirs Stirs where
  trans h₁ h₂ := ⟨h₁.toCalm.trans h₂.toCalm, h₂.tracked.trans h₁.tracked⟩

theorem describe_stirs (options : LoadOptions) (process : PluginProcess) :
    Step.Interruptible Stirs (LoadedPlugin.describe options process) :=
  describe_interruptible (fun _ _ => Stirs.of_tends) fun _ h => noted_stirs h _

/-- Whoever is alive stays alive when output is taken in, and nobody comes to life. -/
theorem alivePids_takeOutput (h : Host) (pid : Nat) (stdout stderr : Bytes) :
    (h.takeOutput pid stdout stderr).alivePids = h.alivePids := by
  unfold Host.takeOutput
  split
  · rfl
  · rename_i c _
    have hsame : ∀ d : Child,
        (if d.pid == pid then { d with output := (c.output.feed stdout).2 } else d).isAlive =
            d.isAlive ∧
          (if d.pid == pid then { d with output := (c.output.feed stdout).2 } else d).pid =
            d.pid := by
      intro d
      split <;> exact ⟨rfl, rfl⟩
    simp only [Host.alivePids, Host.updateChild, List.filter_map, List.map_map, Function.comp_def,
      hsame]

/-! ## Starting a file -/

/-- What comes of a file that is started under a number, unless the system refuses it. -/
def launch? (options : LoadOptions) (h : Host) (pid : Nat) (path : Path) : Option Launch :=
  match refusedArgs options.args with
  | some _ => none
  | none =>
      match programOf h.world.files h.executables path with
      | .ok (program, name) =>
          some (program ⟨name, options.args, pluginEnvironment h.environment options.offer, pid⟩)
      | .error _ => none

/-- The program has not ended at once. -/
def goesOn (launch : Launch) : Bool :=
  match launch.stage with
  | .ended => false
  | _ => true

/-- The host with the child that has been launched. -/
def launched (h : Host) (launch : Launch) : Host :=
  (h.opened { pid := h.nextPid, isAlive := goesOn launch, output := {}, stage := launch.stage
    }).takeOutput h.nextPid launch.stdout launch.stderr

theorem spawn_of_launch {options : LoadOptions} {h : Host} {path : Path} {launch : Launch}
    (hlaunch : launch? options h h.nextPid path = some launch) :
    spawn path options.args options.offer h =
      (.ok { path, pid := h.nextPid }, launched h launch) := by
  unfold launch? at hlaunch
  unfold spawn Host.spawn
  cases hargs : refusedArgs options.args with
  | some e =>
      rw [hargs] at hlaunch
      cases hlaunch
  | none =>
      rw [hargs] at hlaunch
      dsimp only at hlaunch ⊢
      cases hprogram : programOf h.world.files h.executables path with
      | error e =>
          rw [hprogram] at hlaunch
          cases hlaunch
      | ok found =>
          rw [hprogram] at hlaunch
          cases hlaunch
          rfl

theorem spawn_of_no_launch {options : LoadOptions} {h : Host} {path : Path}
    (hlaunch : launch? options h h.nextPid path = none) :
    ∃ e, spawn path options.args options.offer h = (.error (.failed e), h) := by
  unfold launch? at hlaunch
  unfold spawn Host.spawn
  cases hargs : refusedArgs options.args with
  | some e => exact ⟨_, rfl⟩
  | none =>
      rw [hargs] at hlaunch
      dsimp only at hlaunch ⊢
      cases hprogram : programOf h.world.files h.executables path with
      | error e => exact ⟨_, rfl⟩
      | ok found =>
          rw [hprogram] at hlaunch
          cases hlaunch

/-- A file that is refused leaves the host as it was. -/
theorem spawn_error {options : LoadOptions} {h h' : Host} {path : Path} {e : Stop PluginError}
    (hrun : spawn path options.args options.offer h = (.error e, h')) :
    launch? options h h.nextPid path = none ∧ h' = h := by
  cases hlaunch : launch? options h h.nextPid path with
  | none =>
      obtain ⟨e, hspawn⟩ := spawn_of_no_launch hlaunch
      rw [hspawn] at hrun
      cases hrun
      exact ⟨rfl, rfl⟩
  | some launch =>
      rw [spawn_of_launch hlaunch] at hrun
      cases hrun

theorem spawn_ok {options : LoadOptions} {h h' : Host} {path : Path} {process : PluginProcess}
    (hrun : spawn path options.args options.offer h = (.ok process, h')) :
    ∃ launch, launch? options h h.nextPid path = some launch ∧
      process = { path, pid := h.nextPid } ∧ h' = launched h launch := by
  cases hlaunch : launch? options h h.nextPid path with
  | none =>
      obtain ⟨e, hspawn⟩ := spawn_of_no_launch hlaunch
      rw [hspawn] at hrun
      cases hrun
  | some launch =>
      rw [spawn_of_launch hlaunch] at hrun
      cases hrun
      exact ⟨launch, rfl, rfl, rfl⟩

theorem launch?_congr {options : LoadOptions} {h h' : Host} (hsetting : setting h' = setting h)
    (pid : Nat) (path : Path) : launch? options h' pid path = launch? options h pid path := by
  simp only [setting, Prod.mk.injEq] at hsetting
  obtain ⟨hfiles, hexecutables, henvironment⟩ := hsetting
  unfold launch?
  rw [hfiles, hexecutables, henvironment]

theorem mem_alivePids_launched {h : Host} {launch : Launch} {pid : Nat} :
    pid ∈ (launched h launch).alivePids ↔
      pid ∈ h.alivePids ∨ goesOn launch = true ∧ pid = h.nextPid := by
  unfold launched
  rw [alivePids_takeOutput]
  cases hgoes : goesOn launch <;> simp [Host.alivePids, Host.opened, List.filter_append]

theorem launched_tracked (h : Host) (launch : Launch) :
    (launched h launch).tracked = h.tracked ++ [h.nextPid] :=
  (takeOutput_tends _ _ _ _).tracked

theorem launched_nextPid (h : Host) (launch : Launch) :
    (launched h launch).nextPid = h.nextPid + 1 :=
  (takeOutput_tends _ _ _ _).nextPid

theorem launched_setting (h : Host) (launch : Launch) : setting (launched h launch) = setting h :=
  (Stirs.of_tends (takeOutput_tends _ _ _ _)).setting

/-- Among the files there is a program that goes on running, when they are started one after the
other, the first of them under the given number. -/
def runsAmong (options : LoadOptions) (h : Host) : Nat → List Path → Bool
  | _, [] => false
  | pid, path :: rest =>
      match launch? options h pid path with
      | none => runsAmong options h pid rest
      | some launch => goesOn launch || runsAmong options h (pid + 1) rest

theorem runsAmong_congr {options : LoadOptions} {h h' : Host} (hsetting : setting h' = setting h)
    (pid : Nat) (paths : List Path) :
    runsAmong options h' pid paths = runsAmong options h pid paths := by
  induction paths generalizing pid with
  | nil => rfl
  | cons path rest ih =>
      unfold runsAmong
      rw [launch?_congr hsetting]
      split
      · exact ih pid
      · rw [ih (pid + 1)]

/-- Among the files in front of the loader there is a program that goes on running. -/
def Scene.runsAhead (options : LoadOptions) (s : Scene) : Bool :=
  runsAmong options s.host s.host.nextPid s.loader.rest

/-! ## What one action does -/

variable {options : LoadOptions} {s s' : Scene}

theorem runsAhead_of_launch {path : Path} {rest : List Path} {launch : Launch}
    (hrest : s.loader.rest = path :: rest)
    (hlaunch : launch? options s.host s.host.nextPid path = some launch)
    (hgoes : goesOn launch = true) : s.runsAhead options = true := by
  rw [Scene.runsAhead, hrest, runsAmong, hlaunch]
  simp [hgoes]

/-- Either nobody is started, or the file in front of the loader is. -/
theorem Advances.cases (hstep : Advances options s s') :
    (Calm s.host s'.host ∧ s'.loader.rest = s.loader.rest) ∨
    (∃ path rest, s.loader.rest = path :: rest ∧ s'.loader.rest = rest ∧ s'.host = s.host ∧
      launch? options s.host s.host.nextPid path = none) ∨
    (∃ path rest launch, s.loader.rest = path :: rest ∧ s'.loader.rest = rest ∧
      launch? options s.host s.host.nextPid path = some launch ∧
      s'.host = launched s.host launch) := by
  cases hstep with
  | @loader h h' l l' k _ hstep =>
      cases hstep with
      | @refused _ _ path rest e hrun =>
          obtain ⟨hlaunch, rfl⟩ := spawn_error hrun
          exact .inr (.inl ⟨path, rest, rfl, rfl, rfl, hlaunch⟩)
      | @started _ _ path rest process hrun =>
          obtain ⟨launch, hlaunch, -, rfl⟩ := spawn_ok hrun
          exact .inr (.inr ⟨path, rest, launch, rfl, rfl, hlaunch, rfl⟩)
      | described hrun => exact .inl ⟨((describe_stirs options _).of_ok hrun).toCalm, rfl⟩
      | failed => exact .inl ⟨.refl h, rfl⟩
      | ended => exact .inl ⟨(Stirs.of_tends (childEnds_tends h _)).toCalm, rfl⟩
      | forgotten => exact .inl ⟨⟨fun _ => id, rfl, rfl⟩, rfl⟩
  | handler hstep =>
      cases hstep with
      | taken => exact .inl ⟨⟨fun _ => id, rfl, rfl⟩, rfl⟩
      | ended => exact .inl ⟨(Stirs.of_tends (childEnds_tends _ _)).toCalm, rfl⟩
      | exited => exact .inl ⟨.refl _, rfl⟩
  | stirs hstirs => exact .inl ⟨hstirs.toCalm, rfl⟩

theorem Advances.nextPid_le (hstep : Advances options s s') :
    s.host.nextPid ≤ s'.host.nextPid := by
  rcases hstep.cases with ⟨hcalm, -⟩ | ⟨_, _, -, -, hhost, -⟩ | ⟨_, _, launch, -, -, -, hhost⟩
  · exact Nat.le_of_eq hcalm.nextPid.symm
  · exact Nat.le_of_eq (congrArg Host.nextPid hhost.symm)
  · rw [hhost, launched_nextPid]
    exact Nat.le_succ _

/-- Nothing gets in front of the loader that has not been there. -/
theorem Advances.runsAhead (hstep : Advances options s s')
    (hruns : s.runsAhead options = false) : s'.runsAhead options = false := by
  unfold Scene.runsAhead at hruns ⊢
  rcases hstep.cases with ⟨hcalm, hrest⟩ | ⟨path, rest, hrest, hrest', hhost, hlaunch⟩ |
    ⟨path, rest, launch, hrest, hrest', hlaunch, hhost⟩
  · rw [hrest, hcalm.nextPid, runsAmong_congr hcalm.setting]
    exact hruns
  · rw [hrest, runsAmong, hlaunch] at hruns
    rw [hrest', hhost]
    exact hruns
  · rw [hrest, runsAmong, hlaunch] at hruns
    rw [hrest', hhost, launched_nextPid, runsAmong_congr (launched_setting s.host launch)]
    exact (Bool.or_eq_false_iff.1 hruns).2

/-- The handler does not come to rest again. -/
theorem Advances.idle (hstep : Advances options s s') (hidle : s'.handler = .idle) :
    s.handler = .idle := by
  cases hstep with
  | loader => exact hidle
  | handler hstep => cases hstep <;> cases hidle
  | stirs => exact hidle

/-! ## Who is looked after -/

/-- The children that a signal ends: those on the list, or what the handler has left of it. -/
def Scene.watched (s : Scene) : List Nat :=
  match s.handler with
  | .idle => s.host.tracked
  | .ending pids => pids
  | .exited => []

/-- Whoever is alive is watched, or belongs to the late. -/
structure Guarded (late : Nat → Prop) (s : Scene) : Prop where
  alive : ∀ pid ∈ s.host.alivePids, pid ∈ s.watched ∨ late pid
  /-- Only the ended are struck off the list. -/
  ended : ∀ process rest, s.loader = .ended process rest → process.pid ∉ s.host.alivePids

section Guarded

variable {late : Nat → Prop} {h h' : Host} {l l' : Loader} {k : Handler}

theorem Guarded.stirs (hs : Guarded late ⟨h, l, k⟩) (hstirs : Stirs h h') :
    Guarded late ⟨h', l, k⟩ where
  alive pid hpid := by
    have hbefore := hs.alive pid (hstirs.alive pid hpid)
    cases k with
    | idle =>
        show pid ∈ h'.tracked ∨ late pid
        rw [hstirs.tracked]
        exact hbefore
    | ending pids => exact hbefore
    | exited => exact hbefore
  ended process rest hended hpid := hs.ended process rest hended (hstirs.alive _ hpid)

theorem Guarded.moved (hs : Guarded late ⟨h, l, k⟩)
    (hl : ∀ process rest, l' ≠ .ended process rest) : Guarded late ⟨h, l', k⟩ :=
  ⟨hs.alive, fun process rest hended => absurd hended (hl process rest)⟩

/-- A child that is started is put on the list, which matters only if the handler has not taken
it. -/
theorem Guarded.launched (hs : Guarded late ⟨h, l, k⟩) (launch : Launch)
    (hlate : k ≠ .idle → goesOn launch = true → late h.nextPid)
    (hl : ∀ process rest, l' ≠ .ended process rest) :
    Guarded late ⟨launched h launch, l', k⟩ where
  alive pid hpid := by
    rcases mem_alivePids_launched.1 hpid with hbefore | ⟨hgoes, rfl⟩
    · refine (hs.alive pid hbefore).imp_left fun hwatched => ?_
      cases k with
      | idle =>
          show pid ∈ (Interrupt.launched h launch).tracked
          rw [launched_tracked]
          exact List.mem_append_left _ hwatched
      | ending pids => exact hwatched
      | exited => exact hwatched
    · by_cases hidle : k = .idle
      · subst hidle
        left
        show h.nextPid ∈ (Interrupt.launched h launch).tracked
        rw [launched_tracked]
        exact List.mem_append_right _ (List.mem_singleton_self _)
      · exact .inr (hlate hidle hgoes)
  ended process rest hended := absurd hended (hl process rest)

/-- A child that has ended can be struck off the list. -/
theorem Guarded.forgotten {process : PluginProcess} {rest : List Path}
    (hs : Guarded late ⟨h, .ended process rest, k⟩) :
    Guarded late ⟨{ h with tracked := h.tracked.filter (· != process.pid) }, .next rest, k⟩ where
  alive pid hpid := by
    have hne : pid ≠ process.pid := fun hsame => hs.ended process rest rfl (hsame ▸ hpid)
    refine (hs.alive pid hpid).imp_left fun hwatched => ?_
    cases k with
    | idle => exact List.mem_filter.2 ⟨hwatched, by simpa using hne⟩
    | ending pids => exact hwatched
    | exited => exact hwatched
  ended := nofun

end Guarded

/-- It stays so as long as those who come to life while the handler is at work are late. -/
theorem Guarded.advance {late : Nat → Prop} (hs : Guarded late s) (hstep : Advances options s s')
    (hlate : s.handler ≠ .idle → s.runsAhead options = true → late s.host.nextPid) :
    Guarded late s' := by
  cases hstep with
  | @loader h h' l l' k _ hstep =>
      cases hstep with
      | refused hrun =>
          obtain ⟨-, rfl⟩ := spawn_error hrun
          exact hs.moved nofun
      | started hrun =>
          obtain ⟨launch, hlaunch, -, rfl⟩ := spawn_ok hrun
          refine hs.launched launch (fun hidle hgoes => hlate hidle ?_) nofun
          exact runsAhead_of_launch rfl hlaunch hgoes
      | described hrun => exact (hs.stirs ((describe_stirs options _).of_ok hrun)).moved nofun
      | failed => exact hs.moved nofun
      | @ended _ process rest =>
          refine ⟨(hs.stirs (.of_tends (childEnds_tends h process.pid))).alive, ?_⟩
          rintro _ _ ⟨⟩ hpid
          exact (Host.alivePids_childEnds hpid).2 rfl
      | forgotten => exact hs.forgotten
  | @handler h h' l k k' hstep =>
      cases hstep with
      | taken => exact ⟨hs.alive, hs.ended⟩
      | @ended _ pid pids =>
          refine ⟨fun q hq => ?_, (hs.stirs (.of_tends (childEnds_tends h pid))).ended⟩
          obtain ⟨hbefore, hne⟩ := Host.alivePids_childEnds hq
          exact (hs.alive q hbefore).imp_left fun hmem => List.mem_of_ne_of_mem hne hmem
      | exited => exact ⟨hs.alive, hs.ended⟩
  | stirs hstirs => exact hs.stirs hstirs

/-! ## Whole runs -/

theorem nextPid_le_of_reaches (hreach : Reaches options s s') :
    s.host.nextPid ≤ s'.host.nextPid := by
  induction hreach with
  | refl => exact Nat.le_refl _
  | tail _ hstep ih => exact Nat.le_trans ih hstep.nextPid_le

theorem runsAhead_of_reaches (hreach : Reaches options s s')
    (hruns : s.runsAhead options = false) : s'.runsAhead options = false := by
  induction hreach with
  | refl => exact hruns
  | tail _ hstep ih => exact hstep.runsAhead ih

/-- The late are those who come to life while the handler is at work. -/
theorem Guarded.reaches {late : Nat → Prop} (hs : Guarded late s) (hreach : Reaches options s s')
    (hlate : ∀ s₁, Reaches options s s₁ → s₁.runsAhead options = true → late s₁.host.nextPid) :
    Guarded late s' := by
  induction hreach with
  | refl => exact hs
  | @tail s₁ s₂ hbefore hstep ih => exact ih.advance hstep fun _ => hlate s₁ hbefore

/-- As long as no signal arrives, whoever is alive is on the list. -/
theorem guarded_of_idle (hs : Guarded (fun _ => False) s) (hreach : Reaches options s s')
    (hidle : s'.handler = .idle) : Guarded (fun _ => False) s' := by
  induction hreach with
  | refl => exact hs
  | tail _ hstep ih =>
      have hbefore := hstep.idle hidle
      exact (ih hbefore).advance hstep fun hbusy => absurd hbefore hbusy

/-- When the host has ended, only the late are alive. -/
theorem Guarded.exited {late : Nat → Prop} (hs : Guarded late s) (hexited : s.handler = .exited)
    {pid : Nat} (hpid : pid ∈ s.host.alivePids) : late pid := by
  refine (hs.alive pid hpid).resolve_left ?_
  rw [Scene.watched, hexited]
  exact List.not_mem_nil

/-! ## The handler on its own -/

section Runs

variable (options)

theorem foldl_childEnds_with_tracked (pids tracked : List Nat) (h : Host) :
    pids.foldl Host.childEnds { h with tracked } =
      { pids.foldl Host.childEnds h with tracked } := by
  induction pids generalizing h with
  | nil => rfl
  | cons pid pids ih => exact ih (h.childEnds pid)

theorem reaches_ended (pids : List Nat) (h : Host) (l : Loader) :
    Reaches options ⟨h, l, .ending pids⟩ ⟨pids.foldl Host.childEnds h, l, .ending []⟩ := by
  induction pids generalizing h with
  | nil => exact .refl
  | cons pid pids ih => exact .head (.handler .ended) (ih (h.childEnds pid))

/-- If the loader stands still, the handler ends all tracked children. -/
theorem reaches_terminated (h : Host) (l : Loader) :
    Reaches options ⟨h, l, .idle⟩ ⟨h.terminateAll, l, .ending []⟩ := by
  have hended := reaches_ended options h.tracked { h with tracked := [] } l
  rw [foldl_childEnds_with_tracked] at hended
  exact .head (.handler .taken) hended

theorem alivePids_foldl_childEnds {pids : List Nat} {h : Host} {pid : Nat}
    (hpid : pid ∈ (pids.foldl Host.childEnds h).alivePids) : pid ∈ h.alivePids ∧ pid ∉ pids := by
  induction pids generalizing h with
  | nil => exact ⟨hpid, List.not_mem_nil⟩
  | cons q pids ih =>
      obtain ⟨hbefore, hothers⟩ := ih hpid
      obtain ⟨halive, hne⟩ := Host.alivePids_childEnds hbefore
      exact ⟨halive, by simp [hne, hothers]⟩

/-! ## Loading in one go -/

/-- What has become of the handler when a computation has come to its end. -/
def handlerAfter {ε α : Type} : Except (Stop ε) α → Handler
  | .error (.halted .interrupted) => .exited
  | _ => .idle

/-- A step that a signal may interrupt is one of the things that can happen. -/
theorem reaches_of_interruptible {ε α : Type} {x : Step ε α} (hx : Step.Interruptible Stirs x)
    (h : Host) (l : Loader) :
    Reaches options ⟨h, l, .idle⟩ ⟨(x h).2, l, handlerAfter (x h).1⟩ := by
  obtain ⟨h', hstirs, hstate⟩ := hx h
  rw [hstate]
  refine .head (.stirs hstirs) ?_
  rcases (x h).1 with (e | (_ | _)) | a
  · exact .refl
  · exact (reaches_terminated options h' l).tail (.handler .exited)
  · exact .refl
  · exact .refl

/-- Loading a file brings the loader to the next file, unless it is stopped for good. -/
theorem load_reaches (path : Path) (rest : List Path) (h : Host) :
    ∃ l, Reaches options ⟨h, .next (path :: rest), .idle⟩
        ⟨(LoadedPlugin.load options path h).2, l,
          handlerAfter (LoadedPlugin.load options path h).1⟩ ∧
      ((∀ s, (LoadedPlugin.load options path h).1 ≠ .error (.halted s)) → l = .next rest) := by
  unfold LoadedPlugin.load
  rw [bind_run]
  cases hspawn : spawn path options.args options.offer h with
  | mk r h₁ =>
      cases r with
      | error e =>
          have hrefused : Advances options ⟨h, .next (path :: rest), .idle⟩
              ⟨h₁, .next rest, .idle⟩ := .loader nofun (.refused hspawn)
          obtain ⟨e, hfailed⟩ := spawn_of_no_launch (spawn_error hspawn).1
          rw [hspawn] at hfailed
          cases hfailed
          exact ⟨.next rest, .single hrefused, fun _ => rfl⟩
      | ok process =>
          have hstarted : Advances options ⟨h, .next (path :: rest), .idle⟩
              ⟨h₁, .waiting process rest, .idle⟩ := .loader nofun (.started hspawn)
          have hreach := reaches_of_interruptible options (describe_stirs options process) h₁
            (.waiting process rest)
          dsimp only
          rw [bind_run, Step.attempt_run]
          cases hdescribe : LoadedPlugin.describe options process h₁ with
          | mk r h₂ =>
              rw [hdescribe] at hreach
              rcases r with (e | stop) | plugin
              · -- The process is ended and forgotten.
                obtain ⟨_, -, rfl, -⟩ := spawn_ok hspawn
                dsimp only
                rw [bind_run, terminate_run rfl]
                refine ⟨.next rest, .trans (.head hstarted hreach) ?_, fun _ => rfl⟩
                exact .head (.loader nofun .failed) <| .head (.loader nofun .ended) <|
                  .single (.loader nofun .forgotten)
              · refine ⟨.waiting process rest, .head hstarted ?_,
                  fun hgoes => absurd rfl (hgoes stop)⟩
                cases stop <;> exact hreach
              · exact ⟨.next rest, .head hstarted (.single (.loader nofun (.described hdescribe))),
                  fun _ => rfl⟩

/-- Loading in one go is one order in which loader, handler and children can take turns.  It comes
to its end unless it is stopped for good. -/
theorem loadEach_reaches {ε : Type} (paths : List Path) (h : Host) :
    ∃ l, Reaches options ⟨h, .next paths, .idle⟩
        ⟨((PluginSet.loadEach options paths : Step ε PluginSet) h).2, l,
          handlerAfter ((PluginSet.loadEach options paths : Step ε PluginSet) h).1⟩ ∧
      ((∀ s, ((PluginSet.loadEach options paths : Step ε PluginSet) h).1 ≠ .error (.halted s)) →
        l = .next []) := by
  induction paths generalizing h with
  | nil => exact ⟨.next [], .refl, fun _ => rfl⟩
  | cons path rest ih =>
      obtain ⟨l, hreach, hgoes⟩ := load_reaches options path rest h
      unfold PluginSet.loadEach
      rw [bind_run, Step.attempt_run]
      cases hload : LoadedPlugin.load options path h with
      | mk r h₁ =>
          rw [hload] at hreach hgoes
          rcases r with (e | stop) | plugin
          · obtain rfl := hgoes nofun
            obtain ⟨l, hrest, hends⟩ := ih (Step.noted h₁ (failedRecord path e))
            exact ⟨l, hreach.trans (.head (.stirs (noted_stirs _ _)) hrest), hends⟩
          · refine ⟨l, ?_, fun hgoes => absurd rfl (hgoes stop)⟩
            cases stop <;> exact hreach
          · obtain rfl := hgoes nofun
            obtain ⟨l, hrest, hends⟩ := ih (Step.noted h₁ (loadedRecord path plugin.descriptor))
            have hloaded := hreach.trans (.head (.stirs (noted_stirs _ _)) hrest)
            dsimp only
            rw [bind_run, Step.note_run]
            dsimp only
            rw [bind_run]
            cases hothers : (PluginSet.loadEach options rest : Step ε PluginSet)
                (Step.noted h₁ (loadedRecord path plugin.descriptor)) with
            | mk r h₂ =>
                rw [hothers] at hloaded hends
                rcases r with (e | stop) | others
                · exact ⟨l, hloaded, fun _ => hends nofun⟩
                · refine ⟨l, ?_, fun hgoes => absurd rfl (hgoes stop)⟩
                  cases stop <;> exact hloaded
                · exact ⟨l, hloaded, fun _ => hends nofun⟩

/-! ## What a signal leaves -/

/-- Once the loader stands between two files, nothing but the list has changed. -/
theorem reaches_next {k : Handler} (hk : k ≠ .exited) (h : Host) (l : Loader) :
    ∃ h', Reaches options ⟨h, l, k⟩ ⟨h', .next l.rest, k⟩ ∧ setting h' = setting h ∧
      h'.nextPid = h.nextPid := by
  have hforgotten : ∀ (h : Host) process rest, Reaches options ⟨h, .ended process rest, k⟩
      ⟨{ h with tracked := h.tracked.filter (· != process.pid) }, .next rest, k⟩ :=
    fun _ _ _ => .single (.loader hk .forgotten)
  have hended : ∀ (h : Host) process rest, Reaches options ⟨h, .failed process rest, k⟩ _ :=
    fun h process rest =>
      .head (.loader hk .ended) (hforgotten (h.childEnds process.pid) process rest)
  cases l with
  | next rest => exact ⟨h, .refl, rfl, rfl⟩
  | waiting process rest => exact ⟨_, .head (.loader hk .failed) (hended h process rest), rfl, rfl⟩
  | failed process rest => exact ⟨_, hended h process rest, rfl, rfl⟩
  | ended process rest => exact ⟨_, hforgotten h process rest, rfl, rfl⟩

/-- When the handler has nothing more to end, the loader can still come to a program that goes on
running. -/
theorem exists_started_late (paths : List Path) {h : Host}
    (hruns : runsAmong options h h.nextPid paths = true) :
    ∃ s, Reaches options ⟨h, .next paths, .ending []⟩ s ∧ s.handler = .ending [] ∧
      s.host.alivePids ≠ [] := by
  induction paths generalizing h with
  | nil => cases hruns
  | cons path rest ih =>
      unfold runsAmong at hruns
      cases hlaunch : launch? options h h.nextPid path with
      | none =>
          rw [hlaunch] at hruns
          obtain ⟨e, hspawn⟩ := spawn_of_no_launch hlaunch
          obtain ⟨s, hreach, hleft⟩ := ih hruns
          exact ⟨s, .head (.loader nofun (.refused hspawn)) hreach, hleft⟩
      | some launch =>
          rw [hlaunch] at hruns
          have hstarted : Advances options ⟨h, .next (path :: rest), .ending []⟩
              ⟨launched h launch, .waiting { path, pid := h.nextPid } rest, .ending []⟩ :=
            .loader nofun (.started (spawn_of_launch hlaunch))
          cases hgoes : goesOn launch with
          | true =>
              have halive : h.nextPid ∈ (launched h launch).alivePids :=
                mem_alivePids_launched.2 (.inr ⟨hgoes, rfl⟩)
              exact ⟨_, .single hstarted, rfl, List.ne_nil_of_mem halive⟩
          | false =>
              -- The child has ended at once; its load fails, and the next file is up.
              obtain ⟨h', hnext, hsetting, hpid⟩ := reaches_next options
                (k := .ending []) nofun (launched h launch)
                (.waiting { path, pid := h.nextPid } rest)
              rw [launched_setting] at hsetting
              rw [launched_nextPid] at hpid
              obtain ⟨s, hreach, hleft⟩ := ih (h := h') (by
                rw [runsAmong_congr hsetting, hpid]
                simpa [hgoes] using hruns)
              exact ⟨s, .head hstarted (hnext.trans hreach), hleft⟩

end Runs

/-- What a signal leaves that arrives in a scene, whatever the order in which loader and handler
take turns.  It is possible that nobody is left.  Of those that are left, nobody had been started
when the signal arrived.  It is certain that nobody is left exactly if there is no program that goes
on running among the files that were still to be started. -/
theorem interrupt_leaves_none_iff {h : Host} (hnone : h.alivePids = []) {paths : List Path}
    (hreach : Reaches options ⟨h, .next paths, .idle⟩ s) (hidle : s.handler = .idle) :
    (∃ s', Reaches options s s' ∧ s'.handler = .exited ∧ s'.host.alivePids = []) ∧
    (∀ s', Reaches options s s' → s'.handler = .exited →
      ∀ pid ∈ s'.host.alivePids, s.host.nextPid ≤ pid) ∧
    ((∀ s', Reaches options s s' → s'.handler = .exited → s'.host.alivePids = []) ↔
      runsAmong options s.host s.host.nextPid s.loader.rest = false) := by
  have hstart : Guarded (fun _ => False) ⟨h, .next paths, .idle⟩ :=
    ⟨fun pid hpid => by rw [hnone] at hpid; exact absurd hpid List.not_mem_nil, nofun⟩
  have hguarded := guarded_of_idle hstart hreach hidle
  obtain ⟨host, loader, handler⟩ := s
  obtain rfl : handler = .idle := hidle
  have hterminated := reaches_terminated options host loader
  refine ⟨⟨_, hterminated.tail (.handler .exited), rfl, ?_⟩, fun s' hs' hexited pid hpid => ?_,
    ⟨fun hnobody => ?_, fun hruns s' hs' hexited => ?_⟩⟩
  · -- All that are alive are on the list, and all that are on the list are ended.
    refine List.eq_nil_iff_forall_not_mem.2 fun pid hpid => ?_
    obtain ⟨halive, hothers⟩ := alivePids_foldl_childEnds hpid
    exact hothers ((hguarded.alive pid halive).resolve_right id)
  · have hlate : Guarded (host.nextPid ≤ ·) ⟨host, loader, .idle⟩ :=
      ⟨fun pid hpid => .inl ((hguarded.alive pid hpid).resolve_right id), hguarded.ended⟩
    exact (hlate.reaches hs' fun s₁ hs₁ _ => nextPid_le_of_reaches hs₁).exited hexited hpid
  · -- The handler does all but the last of its actions before the loader does its next one.
    by_contra hruns
    have htaken : Calm host { host with tracked := [] } := ⟨fun _ => id, rfl, rfl⟩
    have hended := htaken.trans (Stirs.of_tends (terminateAll_tends host)).toCalm
    obtain ⟨h', hnext, hsetting, hpid⟩ := reaches_next options (k := .ending [])
      nofun host.terminateAll loader
    obtain ⟨⟨h'', l, k⟩, hlate, hending, hleft⟩ :=
      exists_started_late options loader.rest (h := h') (by
        rw [runsAmong_congr (hsetting.trans hended.setting), hpid.trans hended.nextPid]
        simpa using hruns)
    obtain rfl : k = .ending [] := hending
    exact hleft (hnobody ⟨h'', l, .exited⟩
      ((hterminated.trans (hnext.trans hlate)).tail (.handler .exited)) rfl)
  · refine List.eq_nil_iff_forall_not_mem.2 fun pid hpid => ?_
    refine (hguarded.reaches hs' fun s₁ hs₁ hruns₁ => ?_).exited hexited hpid
    have hnone := runsAhead_of_reaches hs₁ hruns
    rw [hruns₁] at hnone
    cases hnone

/-- A plugin directory with two programs that never say anything. -/
def silentHost : Host where
  world := {
    files := ⟨[([utf8 "plugins"], .directory),
      ([utf8 "plugins", utf8 "first"], .file 0o755 (utf8 "silent")),
      ([utf8 "plugins", utf8 "second"], .file 0o755 (utf8 "silent"))], []⟩
    client := .offline }
  executables data := if data == utf8 "silent" then some fun _ => { stage := .idle } else none
  environment := []

/-- A signal that arrives while the first of them is loaded ends it, but may leave the second. -/
theorem interrupt_leaves_plugin :
    silentHost.alivePids = [] ∧ ∃ s,
      Reaches {} ⟨silentHost, .next [utf8 "/plugins/first", utf8 "/plugins/second"], .idle⟩ s ∧
      s.handler = .idle ∧ s.host.alivePids = [1] ∧ ∃ s', Reaches {} s s' ∧
        s'.handler = .exited ∧ s'.host.alivePids ≠ [] ∧ 1 ∉ s'.host.alivePids := by
  have hfirst : launch? {} silentHost 1 (utf8 "/plugins/first") = some { stage := .idle } :=
    rfl
  have hsecond : launch? {} silentHost 2 (utf8 "/plugins/second") = some { stage := .idle } :=
    rfl
  have hstarted : Advances {} ⟨silentHost, .next [utf8 "/plugins/first", utf8 "/plugins/second"],
      .idle⟩ ⟨launched silentHost { stage := .idle },
        .waiting { path := utf8 "/plugins/first", pid := 1 } [utf8 "/plugins/second"], .idle⟩ :=
    .loader nofun (.started (spawn_of_launch hfirst))
  have hreach := Relation.ReflTransGen.single hstarted
  obtain ⟨-, hlate, hiff⟩ := interrupt_leaves_none_iff rfl hreach rfl
  refine ⟨rfl, _, hreach, rfl, rfl, ?_⟩
  have hruns : runsAmong {} (launched silentHost { stage := .idle }) 2
      [utf8 "/plugins/second"] = true := by
    rw [runsAmong_congr (launched_setting silentHost _), runsAmong, hsecond]
    rfl
  have hleft := mt hiff.1 (Bool.eq_false_iff.not_left.2 hruns)
  push Not at hleft
  obtain ⟨s', hs', hexited, hsome⟩ := hleft
  exact ⟨s', hs', hexited, hsome, fun hfirst => absurd (hlate s' hs' hexited 1 hfirst) (by decide)⟩

end Interrupt

end PluginHost

import Mathlib.Tactic.SplitIfs
import PluginHost.Children.Supervise
import PluginHost.Proofs.Children.Steps

/-!
# What supervising a child does to the host

A file that is started becomes a new child (`spawn_cases`, `start_opened`), and a process that is
ended is struck off the list (`terminate_run`).  All else that the host does to its children lets
them write, marks what it has read, or ends them (`Tends`).  Whoever proves what is kept while
plugins are loaded has to look at these three only.
-/

namespace PluginHost.Children

open Rpc

/-- A file that is started becomes a child with the next number; otherwise nothing happens. -/
theorem spawn_cases (path : Path) (args : List Bytes) (offer : Offer) (h : Host) :
    (∃ e, spawn path args offer h = (.error (.failed (.ofSpawn path e)), h)) ∨
      ∃ program name environment, spawn path args offer h =
        (.ok { path, pid := h.nextPid }, (h.start program name args environment).2) := by
  unfold spawn
  cases hspawn : h.spawn path args offer with
  | error e => exact .inl ⟨e, rfl⟩
  | ok started =>
      simp only [Host.spawn, bind, Except.bind, pure, Except.pure] at hspawn
      split at hspawn
      · cases hspawn
      · split at hspawn
        · cases hspawn
        · rename_i found _
          cases hspawn
          exact .inr ⟨found.1, found.2, _, rfl⟩

/-! ## Children that are dealt with -/

/-- The same child at a later time.  It does not come to life again. -/
structure Child.Later (c c' : Child) : Prop where
  pid : c'.pid = c.pid
  stage : c'.stage = c.stage
  alive : c'.isAlive = true → c.isAlive = true

/-- The same children at a later time; nothing else has changed but what they have written. -/
structure Tends (h h' : Host) : Prop where
  world : h'.world = h.world
  executables : h'.executables = h.executables
  resolve : h'.resolve = h.resolve
  environment : h'.environment = h.environment
  children : ∃ grown : Child → Child, (∀ c : Child, c.Later (grown c)) ∧
    h'.children = h.children.map grown
  tracked : h'.tracked = h.tracked
  nextPid : h'.nextPid = h.nextPid
  stdin : h'.stdin = h.stdin

theorem Child.Later.refl (c : Child) : c.Later c := ⟨rfl, rfl, id⟩

theorem Child.Later.trans {c₁ c₂ c₃ : Child} (h₁₂ : c₁.Later c₂) (h₂₃ : c₂.Later c₃) :
    c₁.Later c₃ :=
  ⟨h₂₃.pid.trans h₁₂.pid, h₂₃.stage.trans h₁₂.stage, h₁₂.alive ∘ h₂₃.alive⟩

theorem Tends.of_written (h : Host) (stdout stderr : Bytes) : Tends h { h with stdout, stderr } where
  world := rfl
  executables := rfl
  resolve := rfl
  environment := rfl
  children := ⟨id, Child.Later.refl, (List.map_id _).symm⟩
  tracked := rfl
  nextPid := rfl
  stdin := rfl

instance : Std.Refl Tends := ⟨fun h => .of_written h h.stdout h.stderr⟩

instance : Trans Tends Tends Tends where
  trans h₁ h₂ := by
    obtain ⟨f, hf, hfirst⟩ := h₁.children
    obtain ⟨g, hg, hsecond⟩ := h₂.children
    exact
      { world := h₂.world.trans h₁.world
        executables := h₂.executables.trans h₁.executables
        resolve := h₂.resolve.trans h₁.resolve
        environment := h₂.environment.trans h₁.environment
        children := ⟨g ∘ f, fun c => (hf c).trans (hg (f c)), by
          rw [hsecond, hfirst, List.map_map]⟩
        tracked := h₂.tracked.trans h₁.tracked
        nextPid := h₂.nextPid.trans h₁.nextPid
        stdin := h₂.stdin.trans h₁.stdin }

theorem Tends.mem_children {h h' : Host} (htends : Tends h h') {c' : Child}
    (hc' : c' ∈ h'.children) : ∃ c ∈ h.children, c.Later c' := by
  obtain ⟨grown, hgrown, hchildren⟩ := htends.children
  rw [hchildren] at hc'
  obtain ⟨c, hc, rfl⟩ := List.mem_map.1 hc'
  exact ⟨c, hc, hgrown c⟩

theorem updateChild_tends {f : Child → Child} (hf : ∀ c : Child, c.Later (f c)) (h : Host) (pid : Nat) :
    Tends h (h.updateChild pid f) where
  world := rfl
  executables := rfl
  resolve := rfl
  environment := rfl
  children := by
    refine ⟨fun c => if c.pid == pid then f c else c, fun c => ?_, rfl⟩
    dsimp only
    split_ifs
    · exact hf c
    · exact .refl c
  tracked := rfl
  nextPid := rfl
  stdin := rfl

theorem childEnds_tends (h : Host) (pid : Nat) : Tends h (h.childEnds pid) :=
  updateChild_tends (f := fun c => { c with isAlive := false }) (fun _ => ⟨rfl, rfl, nofun⟩) h pid

theorem takeOutput_tends (h : Host) (pid : Nat) (stdout stderr : Bytes) :
    Tends h (h.takeOutput pid stdout stderr) := by
  unfold Host.takeOutput
  split
  · exact Std.Refl.refl h
  · rename_i c _
    have htaken := updateChild_tends (f := fun d => { d with output := (c.output.feed stdout).2 })
      (fun _ => ⟨rfl, rfl, id⟩) h pid
    exact Trans.trans htaken (Tends.of_written _ _ _)

theorem foldl_childEnds_tends (pids : List Nat) (h : Host) :
    Tends h (pids.foldl Host.childEnds h) := by
  induction pids generalizing h with
  | nil => exact Std.Refl.refl h
  | cons pid pids ih => exact Trans.trans (childEnds_tends h pid) (ih (h.childEnds pid))

/-- A signal takes the list of the tracked, and ends children. -/
theorem terminateAll_tends (h : Host) : Tends { h with tracked := [] } h.terminateAll :=
  { foldl_childEnds_tends h.tracked h with tracked := rfl }

/-! ## Single steps -/

theorem awaitHandshake_tends (p : PluginProcess) (limit : Duration) (offer : Offer) :
    Step.Interruptible Tends (awaitHandshake p limit offer) := by
  intro h
  have htaken := updateChild_tends (f := fun c => { c with isTaken := true })
    (fun _ => ⟨rfl, rfl, id⟩) h p.pid
  unfold awaitHandshake
  split
  · exact ⟨h, Std.Refl.refl h, rfl⟩
  · split
    · exact ⟨h, Std.Refl.refl h, rfl⟩
    · exact ⟨h, Std.Refl.refl h, rfl⟩
    · dsimp only
      split <;> exact ⟨_, htaken, rfl⟩

theorem connect_state (line : HandshakeLine) (limit : Option Duration) (h : Host) :
    (connect line limit h).2 = h := by
  unfold connect
  split
  · rfl
  · split_ifs <;> rfl

theorem connect_tends (line : HandshakeLine) (limit : Option Duration) :
    Step.Interruptible Tends (connect line limit) := by
  intro h
  unfold connect
  split
  · exact ⟨h, Std.Refl.refl h, rfl⟩
  · split_ifs <;> exact ⟨h, Std.Refl.refl h, rfl⟩

/-- A call leaves the host as the child leaves it that reacts.  If the child signals the host, the
call does not return. -/
theorem performCall_tends {ε α : Type} (pid : Nat) (client : Client) (call : Client → Call α) :
    Step.Interruptible Tends
      (performCall pid client call : Step ε (Except RpcError α × Client)) := by
  intro h
  unfold performCall
  dsimp only
  generalize (call _) = c
  cases c.reaction with
  | none => cases c.outcome <;> exact ⟨h, Std.Refl.refl h, rfl⟩
  | some r =>
      have houtput := takeOutput_tends h pid r.stdout r.stderr
      unfold Host.react
      dsimp only
      by_cases hsignal : r.signal.isSome = true
      · rw [if_pos hsignal]
        exact ⟨_, houtput, rfl⟩
      · rw [if_neg hsignal]
        by_cases hends : r.ends = true
        · have hended := Trans.trans houtput
            (childEnds_tends (h.takeOutput pid r.stdout r.stderr) pid)
          rw [if_pos hends]
          cases c.outcome <;> exact ⟨_, hended, rfl⟩
        · rw [if_neg hends]
          cases c.outcome <;> exact ⟨_, houtput, rfl⟩

/-! ## Starting and ending -/

/-- The host with a new child that it tracks. -/
def Host.opened (h : Host) (child : Child) : Host :=
  { h with
    children := h.children ++ [child]
    tracked := h.tracked ++ [h.nextPid]
    nextPid := h.nextPid + 1 }

/-- A program that is started becomes a new child, which may already have written. -/
theorem start_opened (h : Host) (program : Executable) (name : Bytes) (args : List Bytes)
    (environment : Environment) :
    ∃ child : Child, child.pid = h.nextPid ∧
      child.stage = (program ⟨name, args, environment, h.nextPid⟩).stage ∧
      Tends (h.opened child) (h.start program name args environment).2 := by
  have htends : ∀ (child : Child) (stdout stderr : Bytes),
      Tends (h.opened child) ((h.opened child).takeOutput h.nextPid stdout stderr) :=
    fun child stdout stderr => takeOutput_tends (h.opened child) h.nextPid stdout stderr
  exact ⟨_, rfl, rfl, htends _ _ _⟩

/-- A process that is ended is no longer tracked. -/
theorem terminate_run {ε : Type} {p : PluginProcess} (hp : p.isTerminated = false) (h : Host) :
    (terminate p : Step ε PluginProcess) h =
      (.ok { p with isTerminated := true },
        { h.childEnds p.pid with tracked := h.tracked.filter (· != p.pid) }) := by
  unfold terminate
  rw [hp]
  rfl

theorem terminate_again {ε : Type} {p : PluginProcess} (hp : p.isTerminated = true) (h : Host) :
    (terminate p : Step ε PluginProcess) h = (.ok p, h) := by
  unfold terminate
  rw [hp]
  rfl

/-- Ending a process does not fail. -/
theorem terminate_ok {ε : Type} (p : PluginProcess) (h : Host) :
    ∃ ended, (terminate p h : Except (Stop ε) PluginProcess × Host).1 = .ok ended := by
  cases hp : p.isTerminated with
  | false =>
      rw [terminate_run hp]
      exact ⟨_, rfl⟩
  | true =>
      rw [terminate_again hp]
      exact ⟨_, rfl⟩

end PluginHost.Children

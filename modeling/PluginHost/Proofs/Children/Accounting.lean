import Mathlib.Data.List.Nodup
import Mathlib.Order.Defs.PartialOrder
import PluginHost.Proofs.Children.Supervision

/-!
# Accounting for children

A child that the host has started is either tracked, or it has been ended.  `Accounted` keeps the
books between two states of the host: which of the children started in between are left, and which
warnings have been told.  Books are added up along the way (`Accounted.trans`).

There are three kinds of entries.

* Starting a program opens an account (`start_accounted`).
* Ending a process closes it (`Accounted.ended`).
* Everything else that the host does with a child, unless it is stopped for good, leaves the
  accounts as they are (`Settles`).
-/

namespace PluginHost.Children

namespace Host

/-- The numbers of the children. -/
def pids (h : Host) : List Nat := h.children.map (·.pid)

/-- The numbers of the children that have not ended. -/
def alivePids (h : Host) : List Nat := (h.children.filter (·.isAlive)).map (·.pid)

/-- No number has been given twice, and the next number has not been given yet. -/
structure Numbered (h : Host) : Prop where
  pids_nodup : h.pids.Nodup
  pids_lt : ∀ pid ∈ h.pids, pid < h.nextPid
  tracked_nodup : h.tracked.Nodup
  tracked_lt : ∀ pid ∈ h.tracked, pid < h.nextPid

theorem mem_alivePids {h : Host} {pid : Nat} :
    pid ∈ h.alivePids ↔ ∃ c ∈ h.children, c.isAlive = true ∧ c.pid = pid := by
  simp [alivePids, and_assoc]

end Host

/-! ## The same children later on -/

theorem Tends.pids_eq {h h' : Host} (htends : Tends h h') : h'.pids = h.pids := by
  obtain ⟨grown, hgrown, hchildren⟩ := htends.children
  unfold Host.pids
  rw [hchildren, List.map_map]
  exact List.map_congr_left fun c _ => (hgrown c).pid

/-- Who is alive later on has been alive before. -/
theorem Tends.alive {h h' : Host} (htends : Tends h h') {pid : Nat} (hpid : pid ∈ h'.alivePids) :
    pid ∈ h.alivePids := by
  rw [Host.mem_alivePids] at hpid ⊢
  obtain ⟨c', hc', hlive, rfl⟩ := hpid
  obtain ⟨c, hc, hlater⟩ := htends.mem_children hc'
  exact ⟨c, hc, hlater.alive hlive, hlater.pid.symm⟩

/-- A child that has ended is not alive. -/
theorem Host.alivePids_childEnds {h : Host} {pid q : Nat} (hq : q ∈ (h.childEnds pid).alivePids) :
    q ∈ h.alivePids ∧ q ≠ pid := by
  refine ⟨(childEnds_tends h pid).alive hq, ?_⟩
  rw [mem_alivePids] at hq
  obtain ⟨c', hc', hlive, rfl⟩ := hq
  obtain ⟨c, hc, rfl⟩ := List.mem_map.1 hc'
  by_cases hsame : c.pid = pid
  · simp [hsame] at hlive
  · simp [hsame]

/-! ## The books -/

/-- Of the children started on the way from one host to another, those with the given numbers are
left, and the given warnings have been told. -/
structure Accounted (h : Host) (pids : List Nat) (warnings : List LogRecord) (h' : Host) :
    Prop where
  /-- Those that are left are tracked, in the order in which they were started. -/
  tracked : h'.tracked = h.tracked ++ pids
  /-- They have numbers of their own. -/
  fresh : ∀ pid ∈ pids, h.nextPid ≤ pid ∧ pid ∈ h'.pids
  /-- Nobody else that has been started is alive. -/
  alive : ∀ pid ∈ h'.alivePids, pid ∈ pids ∨ pid ∈ h.alivePids
  /-- The children that were there before are still known. -/
  known : h.pids <+: h'.pids
  nextPid : h.nextPid ≤ h'.nextPid
  numbered : h.Numbered → h'.Numbered
  warned : ∃ records, h'.world.log = h.world.log ++ records ∧
    records.filter (·.level == .warn) = warnings

/-- No child has been started that is left, and no warning has been told. -/
abbrev Settles (h h' : Host) : Prop := Accounted h [] [] h'

theorem Accounted.trans {h₁ h₂ h₃ : Host} {ps qs : List Nat} {ws vs : List LogRecord}
    (h₁₂ : Accounted h₁ ps ws h₂) (h₂₃ : Accounted h₂ qs vs h₃) :
    Accounted h₁ (ps ++ qs) (ws ++ vs) h₃ where
  tracked := by rw [h₂₃.tracked, h₁₂.tracked, List.append_assoc]
  fresh := by
    intro pid hpid
    rcases List.mem_append.1 hpid with hp | hq
    · obtain ⟨hle, hmem⟩ := h₁₂.fresh pid hp
      exact ⟨hle, h₂₃.known.subset hmem⟩
    · obtain ⟨hle, hmem⟩ := h₂₃.fresh pid hq
      exact ⟨Nat.le_trans h₁₂.nextPid hle, hmem⟩
  alive := by
    intro pid hpid
    rcases h₂₃.alive pid hpid with hq | hbefore
    · exact .inl (List.mem_append_right ps hq)
    · exact (h₁₂.alive pid hbefore).imp_left (List.mem_append_left qs)
  known := h₁₂.known.trans h₂₃.known
  nextPid := Nat.le_trans h₁₂.nextPid h₂₃.nextPid
  numbered := h₂₃.numbered ∘ h₁₂.numbered
  warned := by
    obtain ⟨rs, hrs, rfl⟩ := h₁₂.warned
    obtain ⟨ss, hss, rfl⟩ := h₂₃.warned
    exact ⟨rs ++ ss, by rw [hss, hrs, List.append_assoc], List.filter_append rs ss⟩

/-- What neither starts a child nor brings one to life adds to the log only. -/
theorem Accounted.of_pids {h h' : Host} {records : List LogRecord} (hpids : h'.pids = h.pids)
    (halive : ∀ pid ∈ h'.alivePids, pid ∈ h.alivePids) (htracked : h'.tracked = h.tracked)
    (hnext : h'.nextPid = h.nextPid) (hlog : h'.world.log = h.world.log ++ records) :
    Accounted h [] (records.filter (·.level == .warn)) h' where
  tracked := by rw [htracked, List.append_nil]
  fresh := nofun
  alive := fun pid hpid => .inr (halive pid hpid)
  known := hpids ▸ List.prefix_rfl
  nextPid := Nat.le_of_eq hnext.symm
  numbered := fun hn =>
    { pids_nodup := by rw [hpids]; exact hn.pids_nodup
      pids_lt := by rw [hpids, hnext]; exact hn.pids_lt
      tracked_nodup := by rw [htracked]; exact hn.tracked_nodup
      tracked_lt := by rw [htracked, hnext]; exact hn.tracked_lt }
  warned := ⟨records, hlog, rfl⟩

theorem Accounted.of_children {h h' : Host} {records : List LogRecord}
    (hchildren : h'.children = h.children) (htracked : h'.tracked = h.tracked)
    (hnext : h'.nextPid = h.nextPid) (hlog : h'.world.log = h.world.log ++ records) :
    Accounted h [] (records.filter (·.level == .warn)) h' :=
  .of_pids (by rw [Host.pids, Host.pids, hchildren])
    (fun pid hpid => by rwa [Host.alivePids, hchildren] at hpid) htracked hnext hlog

theorem Settles.of_children {h h' : Host} (hchildren : h'.children = h.children)
    (htracked : h'.tracked = h.tracked) (hnext : h'.nextPid = h.nextPid)
    (hlog : h'.world.log = h.world.log) : Settles h h' :=
  Accounted.of_children hchildren htracked hnext (hlog.trans (List.append_nil _).symm)

theorem Settles.refl (h : Host) : Settles h h := .of_children rfl rfl rfl rfl

instance : Std.Refl Settles := ⟨Settles.refl⟩

instance : Trans Settles Settles Settles where
  trans h₁ h₂ := h₁.trans h₂

/-! ## Closing an account -/

/-- A process that is ended is struck from the accounts. -/
theorem Accounted.ended {h h' : Host} {pids : List Nat} {warnings : List LogRecord}
    (hacc : Accounted h pids warnings h') (hn : h.Numbered) {pid : Nat} (hpid : pid ∈ pids) :
    Accounted h (pids.filter (· != pid)) warnings
      { h'.childEnds pid with tracked := h'.tracked.filter (· != pid) } where
  tracked := by
    have hother : ∀ q ∈ h.tracked, (q != pid) = true := by
      intro q hq
      have hlt := hn.tracked_lt q hq
      have hle := (hacc.fresh pid hpid).1
      simp only [bne_iff_ne, ne_eq]
      omega
    show h'.tracked.filter (· != pid) = _
    rw [hacc.tracked, List.filter_append, List.filter_eq_self.2 hother]
  fresh := by
    intro q hq
    obtain ⟨hle, hmem⟩ := hacc.fresh q (List.mem_filter.1 hq).1
    refine ⟨hle, ?_⟩
    show q ∈ (h'.childEnds pid).pids
    rwa [(childEnds_tends h' pid).pids_eq]
  alive := by
    intro q hq
    obtain ⟨hbefore, hne⟩ := Host.alivePids_childEnds (h := h') hq
    refine (hacc.alive q hbefore).imp_left fun hmem => ?_
    exact List.mem_filter.2 ⟨hmem, by simpa using hne⟩
  known := by
    show h.pids <+: (h'.childEnds pid).pids
    rw [(childEnds_tends h' pid).pids_eq]
    exact hacc.known
  nextPid := hacc.nextPid
  numbered := by
    intro hstart
    have hn' := hacc.numbered hstart
    have hpids := (childEnds_tends h' pid).pids_eq
    exact
      { pids_nodup := hpids.symm ▸ hn'.pids_nodup
        pids_lt := hpids.symm ▸ hn'.pids_lt
        tracked_nodup := hn'.tracked_nodup.filter _
        tracked_lt := fun q hq => hn'.tracked_lt q (List.mem_filter.1 hq).1 }
  warned := hacc.warned

/-! ## What leaves the accounts as they are -/

/-- The accounts are the same as long as the children are. -/
theorem Settles.of_tends {h h' : Host} (htends : Tends h h') : Settles h h' :=
  Accounted.of_pids htends.pids_eq (fun _ => htends.alive) htends.tracked htends.nextPid
    ((congrArg World.log htends.world).trans (List.append_nil _).symm)

/-- A record leaves the accounts as they are, apart from the warning that it is. -/
theorem noted_accounted (h : Host) (record : LogRecord) :
    Accounted h [] ([record].filter (·.level == .warn)) (Step.noted h record) :=
  .of_children rfl rfl rfl rfl

/-! ## Opening an account -/

/-- The next number can stand behind those that have been given. -/
theorem nodup_append_next {pids : List Nat} {next : Nat} (hlt : ∀ pid ∈ pids, pid < next)
    (hnodup : pids.Nodup) : (pids ++ [next]).Nodup := by
  refine List.nodup_append.2 ⟨hnodup, List.nodup_singleton next, ?_⟩
  intro pid hpid q hq hsame
  have hbelow := hlt pid hpid
  rw [List.mem_singleton] at hq
  omega

theorem lt_append_next {pids : List Nat} {next : Nat} (hlt : ∀ pid ∈ pids, pid < next) :
    ∀ pid ∈ pids ++ [next], pid < next + 1 := by
  intro pid hpid
  rcases List.mem_append.1 hpid with hpid | hpid
  · exact Nat.lt_succ_of_lt (hlt pid hpid)
  · rw [List.mem_singleton] at hpid
    omega

theorem opened_accounted {h : Host} {child : Child} (hchild : child.pid = h.nextPid) :
    Accounted h [h.nextPid] [] (h.opened child) := by
  have hpids : (h.opened child).pids = h.pids ++ [h.nextPid] := by
    simp [Host.pids, Host.opened, hchild]
  exact
    { tracked := rfl
      fresh := by
        intro pid hpid
        rw [List.mem_singleton] at hpid
        rw [hpids, hpid]
        exact ⟨Nat.le_refl _, List.mem_append_right _ (List.mem_singleton_self _)⟩
      alive := by
        intro pid hpid
        obtain ⟨c, hc, hlive, rfl⟩ := Host.mem_alivePids.1 hpid
        rcases List.mem_append.1 hc with hc | hc
        · exact .inr (Host.mem_alivePids.2 ⟨c, hc, hlive, rfl⟩)
        · rw [List.mem_singleton] at hc
          rw [hc, hchild]
          exact .inl (List.mem_singleton_self _)
      known := by
        rw [hpids]
        exact List.prefix_append _ _
      nextPid := Nat.le_succ _
      numbered := fun hn =>
        { pids_nodup := by rw [hpids]; exact nodup_append_next hn.pids_lt hn.pids_nodup
          pids_lt := by rw [hpids]; exact lt_append_next hn.pids_lt
          tracked_nodup := nodup_append_next hn.tracked_lt hn.tracked_nodup
          tracked_lt := lt_append_next hn.tracked_lt }
      warned := ⟨[], (List.append_nil _).symm, rfl⟩ }

/-- A program that is started is tracked under the next number. -/
theorem start_accounted (h : Host) (program : Executable) (name : Bytes) (args : List Bytes)
    (environment : Environment) :
    Accounted h [h.nextPid] [] (h.start program name args environment).2 := by
  obtain ⟨child, hchild, -, htends⟩ := start_opened h program name args environment
  exact (opened_accounted hchild).trans (Settles.of_tends htends)

end PluginHost.Children

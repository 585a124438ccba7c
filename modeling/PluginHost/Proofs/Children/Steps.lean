import PluginHost.Children.Host
import PluginHost.Proofs.Actions

/-!
# Steps

A step is a computation on the host that fails or is stopped for good.  `Moves` of
`PluginHost.Proofs.Actions` says of every step what it leaves, however it ends; `Returns` says it of
the steps that are not stopped, and `Interruptible` also tells what a signal makes of the host.  They
go through what steps are put together with: going on behind another step, attempting one, and
telling its failures in other terms.
-/

namespace PluginHost.Children

namespace Step

variable {ε δ α β : Type} {R : Host → Host → Prop}

/-! ## Runs -/

theorem ofExcept_run (r : Except ε α) (h : Host) :
    ofExcept r h = (r.mapError .failed, h) := by
  cases r <;> rfl

theorem ofExcept_ok {r : Except ε α} {h h' : Host} {a : α} (hrun : ofExcept r h = (.ok a, h')) :
    r = .ok a ∧ h' = h := by
  rw [ofExcept_run] at hrun
  cases r with
  | ok b =>
      cases hrun
      exact ⟨rfl, rfl⟩
  | error e => cases hrun

theorem wrapped_run (wrap : δ → ε) (step : Step δ α) (h : Host) :
    step.wrapped wrap h =
      match step h with
      | (.ok a, h) => (.ok a, h)
      | (.error (.failed e), h) => (.error (.failed (wrap e)), h)
      | (.error (.halted s), h) => (.error (.halted s), h) := rfl

theorem wrapped_state (wrap : δ → ε) (step : Step δ α) (h : Host) :
    (step.wrapped wrap h).2 = (step h).2 := by
  rw [wrapped_run]
  rcases step h with ⟨(e | s) | a, h'⟩ <;> rfl

theorem wrapped_congr {wrap : δ → ε} {step : Step δ α} {h h' : Host}
    (hsame : (step h).1 = (step h').1) :
    (step.wrapped wrap h).1 = (step.wrapped wrap h').1 := by
  rw [wrapped_run, wrapped_run]
  cases hrun : step h with
  | mk r h₁ =>
      cases hrun' : step h' with
      | mk r' h₁' =>
          rw [hrun, hrun'] at hsame
          cases hsame
          rcases r with (e | s) | a <;> rfl

theorem wrapped_ok {wrap : δ → ε} {step : Step δ α} {h h' : Host} {a : α}
    (hrun : step.wrapped wrap h = (.ok a, h')) : step h = (.ok a, h') := by
  rw [wrapped_run] at hrun
  cases hstep : step h with
  | mk r h₁ =>
      rw [hstep] at hrun
      rcases r with (e | s) | b <;> cases hrun
      rfl

theorem attempt_run (step : Step ε α) (h : Host) :
    (step.attempt : Step δ (Except ε α)) h =
      match step h with
      | (.ok a, h) => (.ok (.ok a), h)
      | (.error (.failed e), h) => (.ok (.error e), h)
      | (.error (.halted s), h) => (.error (.halted s), h) := rfl

/-- A run is told to succeed by something that is told of its result. -/
theorem exists_ok_of_map {x : Step ε α} {h : Host} {f : α → β} {b : β}
    (hx : (x h).1.toOption.map f = some b) : ∃ a h', x h = (.ok a, h') ∧ f a = b := by
  cases hrun : x h with
  | mk r h' =>
      rw [hrun] at hx
      cases r with
      | ok a => exact ⟨a, h', rfl, Option.some.inj hx⟩
      | error stop => cases hx

/-- The host after a record has been added to the log. -/
def noted (h : Host) (record : LogRecord) : Host :=
  withWorld h { h.world with log := h.world.log ++ [record] }

theorem note_run (record : LogRecord) (h : Host) :
    (note record : Step ε Unit) h = (.ok (), noted h record) := rfl

/-- Where first parts give the same and second parts go on to agree, the results agree. -/
theorem bind_result_congr {γ ξ : Type} {x x' : Step ε α} {f : α → Step ε β} {f' : α → Step ε γ}
    {view : β → ξ} {view' : γ → ξ} {h h' : Host} (hfirst : (x h).1 = (x' h').1)
    (hthen : ∀ a, (x h).1 = .ok a →
      (f a (x h).2).1.map view = (f' a (x' h').2).1.map view') :
    ((x >>= f) h).1.map view = ((x' >>= f') h').1.map view' := by
  rw [bind_run, bind_run]
  cases hx : x h with
  | mk r h₁ =>
      cases hx' : x' h' with
      | mk r' h₁' =>
          rw [hx, hx'] at hfirst
          rw [hx, hx'] at hthen
          cases hfirst
          cases r with
          | error e => rfl
          | ok a => exact hthen a rfl

/-! ## What every step leaves -/

theorem moves_fail [Std.Refl R] (e : ε) : Moves R (fail e : Step ε α) := moves_throw _

theorem moves_ofExcept [Std.Refl R] (r : Except ε α) : Moves R (ofExcept r) := by
  intro h
  rw [ofExcept_run]
  exact Std.Refl.refl h

theorem moves_get [Std.Refl R] : Moves R (get : Step ε Host) := fun h => Std.Refl.refl h

theorem moves_modify {f : Host → Host} (hf : ∀ h, R h (f h)) : Moves R (modify f : Step ε Unit) :=
  hf

theorem moves_attempt {step : Step ε α} (hstep : Moves R step) :
    Moves R (step.attempt : Step δ (Except ε α)) := by
  intro h
  have hmoved := hstep h
  rw [attempt_run]
  cases hrun : step h with
  | mk r h' =>
      rw [hrun] at hmoved
      rcases r with (e | s) | a <;> exact hmoved

theorem moves_wrapped {wrap : δ → ε} {step : Step δ α} (hstep : Moves R step) :
    Moves R (step.wrapped wrap) := by
  intro h
  have hmoved := hstep h
  rw [wrapped_run]
  cases hrun : step h with
  | mk r h' =>
      rw [hrun] at hmoved
      rcases r with (e | s) | a <;> exact hmoved

theorem onWorld_state (task : Task ε α) (h : Host) :
    (onWorld task h).2 = withWorld h (task h.world).2 := by
  unfold onWorld
  cases task h.world with
  | mk r w => cases r <;> rfl

theorem moves_onWorld {task : Task ε α} (htask : ∀ h, R h (withWorld h (task h.world).2)) :
    Moves R (onWorld task) := by
  intro h
  rw [onWorld_state]
  exact htask h

theorem moves_forM [Std.Refl R] [Trans R R R] {items : List β} {f : β → Step ε PUnit}
    (hf : ∀ b ∈ items, Moves R (f b)) : Moves R (items.forM f) := by
  induction items with
  | nil => exact moves_pure _
  | cons b items ih =>
      exact moves_bind (hf b (by simp)) fun _ => ih fun c hc => hf c (by simp [hc])

theorem moves_mapM [Std.Refl R] [Trans R R R] {items : List α} {f : α → Step ε β}
    (hf : ∀ a ∈ items, Moves R (f a)) : Moves R (items.mapM f) := by
  induction items with
  | nil => exact moves_pure _
  | cons a items ih =>
      rw [List.mapM_cons]
      exact moves_bind (hf a (by simp)) fun _ =>
        moves_bind (ih fun c hc => hf c (by simp [hc])) fun _ => moves_pure _

/-! ## What a step leaves that is not stopped -/

/-- The host that a step leaves is related to the one that it found, unless it is stopped for
good. -/
def Returns (R : Host → Host → Prop) (x : Step ε α) : Prop :=
  ∀ h, (∀ s, (x h).1 ≠ .error (.halted s)) → R h (x h).2

/-! ## What a step leaves that a signal may interrupt -/

/-- What becomes of the host that a step has come to, if a signal has interrupted the step. -/
def afterSignal : Except (Stop ε) α → Host → Host
  | .error (.halted .interrupted), h => h.terminateAll
  | _, h => h

/-- The step comes to a host that is related to the one that it found.  If a signal interrupts it,
the children of that host are ended. -/
def Interruptible (R : Host → Host → Prop) (x : Step ε α) : Prop :=
  ∀ h, ∃ h', R h h' ∧ (x h).2 = afterSignal (x h).1 h'

theorem interruptible_pure [Std.Refl R] (a : α) : Interruptible R (pure a : Step ε α) :=
  fun h => ⟨h, Std.Refl.refl h, rfl⟩

theorem interruptible_fail [Std.Refl R] (e : ε) : Interruptible R (fail e : Step ε α) :=
  fun h => ⟨h, Std.Refl.refl h, rfl⟩

theorem interruptible_note {record : LogRecord} (hR : ∀ h, R h (noted h record)) :
    Interruptible R (note record : Step ε Unit) :=
  fun h => ⟨noted h record, hR h, rfl⟩

theorem interruptible_bind [Trans R R R] {x : Step ε α} {f : α → Step ε β}
    (hx : Interruptible R x) (hf : ∀ a, Interruptible R (f a)) : Interruptible R (x >>= f) := by
  intro h
  obtain ⟨h₁, hfirst, hstate⟩ := hx h
  rw [bind_run]
  cases hrun : x h with
  | mk r h' =>
      rw [hrun] at hstate
      cases r with
      | ok a =>
          obtain rfl : h' = h₁ := hstate
          obtain ⟨h₂, hsecond, hstate⟩ := hf a h'
          exact ⟨h₂, Trans.trans hfirst hsecond, hstate⟩
      | error stop =>
          refine ⟨h₁, hfirst, ?_⟩
          rcases stop with e | (_ | _) <;> exact hstate

theorem interruptible_wrapped {wrap : δ → ε} {step : Step δ α} (hstep : Interruptible R step) :
    Interruptible R (step.wrapped wrap) := by
  intro h
  obtain ⟨h', hmoved, hstate⟩ := hstep h
  refine ⟨h', hmoved, ?_⟩
  rw [wrapped_run]
  cases hrun : step h with
  | mk r h₁ =>
      rw [hrun] at hstate
      rcases r with (e | (_ | _)) | a <;> exact hstate

theorem Interruptible.mono {S : Host → Host → Prop} (hRS : ∀ h h', R h h' → S h h')
    {x : Step ε α} (hx : Interruptible R x) : Interruptible S x := by
  intro h
  obtain ⟨h', hmoved, hstate⟩ := hx h
  exact ⟨h', hRS h h' hmoved, hstate⟩

theorem Interruptible.of_ok {x : Step ε α} (hx : Interruptible R x) {h h' : Host} {a : α}
    (hrun : x h = (.ok a, h')) : R h h' := by
  obtain ⟨h₁, hmoved, hstate⟩ := hx h
  rw [hrun] at hstate
  obtain rfl : h' = h₁ := hstate
  exact hmoved

theorem returns_of_interruptible {x : Step ε α} (hx : Interruptible R x) : Returns R x := by
  intro h hreturns
  obtain ⟨h', hmoved, hstate⟩ := hx h
  rw [hstate]
  rcases hrun : (x h).1 with (e | s) | a
  · exact hmoved
  · exact absurd hrun (hreturns s)
  · exact hmoved

theorem moves_of_interruptible [Trans R R R] (hsignal : ∀ h : Host, R h h.terminateAll)
    {x : Step ε α} (hx : Interruptible R x) : Moves R x := by
  intro h
  obtain ⟨h', hmoved, hstate⟩ := hx h
  rw [hstate]
  rcases (x h).1 with (e | (_ | _)) | a
  · exact hmoved
  · exact Trans.trans hmoved (hsignal h')
  · exact hmoved
  · exact hmoved

/-! ## Steps in a row -/

/-- Steps of which none fails do not fail one after the other. -/
theorem mapM_succeeds {f : α → Step ε β} (hf : ∀ a h, ∃ b, (f a h).1 = .ok b) (items : List α)
    (h : Host) : ∃ bs, (items.mapM f h).1 = .ok bs := by
  induction items generalizing h with
  | nil => exact ⟨[], rfl⟩
  | cons a items ih =>
      rw [List.mapM_cons, bind_run]
      obtain ⟨b, hb⟩ := hf a h
      cases hrun : f a h with
      | mk r h' =>
          rw [hrun] at hb
          cases hb
          dsimp only
          obtain ⟨bs, hbs⟩ := ih h'
          rw [bind_run]
          cases hmore : items.mapM f h' with
          | mk r h'' =>
              rw [hmore] at hbs
              cases hbs
              exact ⟨b :: bs, rfl⟩

end Step

end PluginHost.Children

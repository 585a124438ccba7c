import PluginHost.World

/-!
# Actions and tasks

Actions on files and tasks on the world are computations on a state that may fail.  `bind_run` says
how one goes on behind another, `bind_ok` takes apart one that succeeds.

`Moves` says that a computation only ever moves the state along a relation, whether it succeeds or
fails.  For a relation that is reflexive and transitive it is enough to look at the single steps.  An
invariant is such a relation (`Keeps`).

`Resembles` compares two computations by what counts of their results.
-/

namespace PluginHost

variable {σ ε α β : Type}

theorem ok_of_toOption {r : Except ε α} {a : α} (h : r.toOption = some a) : r = .ok a := by
  cases r with
  | error e => cases h
  | ok b => exact congrArg Except.ok (Option.some.inj h)

theorem bind_run (x : ExceptT ε (StateM σ) α) (f : α → ExceptT ε (StateM σ) β) (s : σ) :
    (x >>= f) s =
      match x s with
      | (.ok a, s') => f a s'
      | (.error e, s') => (.error e, s') := by
  show (do let r ← x; ExceptT.bindCont f r : StateM σ (Except ε β)) s = _
  cases h : x s with
  | mk r s' =>
      have hbind : (do let r ← x; ExceptT.bindCont f r : StateM σ (Except ε β)) s =
          ExceptT.bindCont f (x s).1 (x s).2 := rfl
      rw [hbind, h]
      cases r <;> rfl

/-- A computation behind a result that is there already. -/
theorem mk_bind_run (r : Except ε α) (f : α → ExceptT ε (StateM σ) β) (s : σ) :
    ((ExceptT.mk (pure r) : ExceptT ε (StateM σ) α) >>= f) s =
      match r with
      | .ok a => f a s
      | .error e => (.error e, s) := by
  cases r <;> rfl

/-- Giving another form to the result does not touch the state. -/
theorem bind_pure_state (x : ExceptT ε (StateM σ) α) (f : α → β) (s : σ) :
    ((x >>= fun a => pure (f a)) s).2 = (x s).2 := by
  rw [bind_run]
  cases x s with
  | mk r s' => cases r <;> rfl

/-- What succeeds has succeeded in its first part and then in its second. -/
theorem bind_ok {x : ExceptT ε (StateM σ) α} {f : α → ExceptT ε (StateM σ) β} {s s'' : σ} {b : β}
    (h : (x >>= f) s = (.ok b, s'')) : ∃ a s', x s = (.ok a, s') ∧ f a s' = (.ok b, s'') := by
  rw [bind_run] at h
  cases hx : x s with
  | mk r s' =>
      rw [hx] at h
      cases r with
      | ok a => exact ⟨a, s', rfl, h⟩
      | error e => cases h

/-- What goes on behind a part that succeeds goes on with its result. -/
theorem bind_of_ok {x : ExceptT ε (StateM σ) α} {f : α → ExceptT ε (StateM σ) β} {s s' : σ} {a : α}
    (h : x s = (.ok a, s')) : (x >>= f) s = f a s' := by
  rw [bind_run, h]

/-- The state that a computation leaves is related to the one that it found. -/
def Moves (R : σ → σ → Prop) (x : ExceptT ε (StateM σ) α) : Prop := ∀ s, R s (x s).2

section Moves

variable {R : σ → σ → Prop}

theorem moves_pure [Std.Refl R] (a : α) : Moves R (pure a : ExceptT ε (StateM σ) α) :=
  fun s => Std.Refl.refl s

theorem moves_throw [Std.Refl R] (e : ε) : Moves R (throw e : ExceptT ε (StateM σ) α) :=
  fun s => Std.Refl.refl s

theorem moves_bind [Trans R R R] {x : ExceptT ε (StateM σ) α} {f : α → ExceptT ε (StateM σ) β}
    (hx : Moves R x) (hf : ∀ a, Moves R (f a)) : Moves R (x >>= f) := by
  intro s
  rw [bind_run]
  have hfirst := hx s
  cases h : x s with
  | mk r s' =>
      rw [h] at hfirst
      cases r with
      | ok a => exact Trans.trans hfirst (hf a s')
      | error e => exact hfirst

end Moves

section Resembles

variable {γ δ ζ : Type} {e : ε → ζ} {f : α → γ} {g : β → δ}

/-- From every state, the computations leave the same state and the same result, as far as it
counts: `e` is what counts of an error and `f` what counts of a value. -/
def Resembles (e : ε → ζ) (f : α → γ) (x y : ExceptT ε (StateM σ) α) : Prop :=
  ∀ s, ((x s).1.mapError e).map f = ((y s).1.mapError e).map f ∧ (x s).2 = (y s).2

theorem Resembles.refl (x : ExceptT ε (StateM σ) α) : Resembles e f x x := fun _ => ⟨rfl, rfl⟩

theorem resembles_pure {a b : α} (h : f a = f b) :
    Resembles e f (pure a : ExceptT ε (StateM σ) α) (pure b) :=
  fun _ => ⟨congrArg Except.ok h, rfl⟩

theorem resembles_throw {c d : ε} (h : e c = e d) :
    Resembles e f (throw c : ExceptT ε (StateM σ) α) (throw d) :=
  fun _ => ⟨congrArg Except.error h, rfl⟩

/-- What counts of a whole depends on what counts of its parts. -/
theorem resembles_bind {x y : ExceptT ε (StateM σ) α} {k l : α → ExceptT ε (StateM σ) β}
    (hfirst : Resembles e f x y) (hrest : ∀ a b, f a = f b → Resembles e g (k a) (l b)) :
    Resembles e g (x >>= k) (y >>= l) := by
  intro s
  obtain ⟨hresult, hstate⟩ := hfirst s
  rw [bind_run, bind_run]
  cases hx : x s with
  | mk r s' =>
      cases hy : y s with
      | mk r' s'' =>
          rw [hx, hy] at hresult hstate
          dsimp only at hresult hstate
          subst hstate
          cases r with
          | error c =>
              cases r' with
              | error d =>
                  have hcause : e c = e d := Except.error.inj hresult
                  exact ⟨congrArg Except.error hcause, rfl⟩
              | ok b => cases hresult
          | ok a =>
              cases r' with
              | error d => cases hresult
              | ok b => exact hrest a b (Except.ok.inj hresult) s'

end Resembles

/-- What is true before is true afterwards. -/
def Keeps (P : σ → Prop) (s s' : σ) : Prop := P s → P s'

instance (P : σ → Prop) : Std.Refl (Keeps P) := ⟨fun _ h => h⟩

instance (P : σ → Prop) : Trans (Keeps P) (Keeps P) (Keeps P) where
  trans h₁ h₂ h := h₂ (h₁ h)

/-! ## Actions on files -/

namespace FileAction

variable {R : FileTree → FileTree → Prop}

theorem ask_eq (wrap : IoError → ε) (f : FileTree → Except IoError α) (t : FileTree) :
    ask wrap f t = ((f t).mapError wrap, t) := by
  unfold ask
  cases f t <;> rfl

/-- What is asked for is read, and nothing is changed. -/
theorem ask_ok {wrap : IoError → ε} {f : FileTree → Except IoError α} {t t' : FileTree} {a : α}
    (h : ask wrap f t = (.ok a, t')) : f t = .ok a ∧ t' = t := by
  unfold ask at h
  cases hf : f t with
  | ok b =>
      rw [hf] at h
      cases h
      exact ⟨rfl, rfl⟩
  | error e =>
      rw [hf] at h
      cases h

theorem ask_eq_ok_iff {wrap : IoError → ε} {f : FileTree → Except IoError α} {t t' : FileTree} {a : α} :
    ask wrap f t = (.ok a, t') ↔ f t = .ok a ∧ t' = t := by
  constructor
  · exact ask_ok
  · rintro ⟨hread, rfl⟩
    rw [ask_eq, hread]
    rfl

theorem moves_ask [Std.Refl R] (wrap : IoError → ε) (f : FileTree → Except IoError α) :
    Moves R (ask wrap f) := by
  intro t
  rw [ask_eq]
  exact Std.Refl.refl t

theorem moves_change [Std.Refl R] {wrap : IoError → ε} {f : FileTree → Except IoError FileTree}
    (hf : ∀ t t', f t = .ok t' → R t t') : Moves R (change wrap f) := by
  intro t
  unfold change
  cases h : f t with
  | ok t' => exact hf t t' h
  | error e => exact Std.Refl.refl t

/-- A change that succeeds is made. -/
theorem change_ok {wrap : IoError → ε} {f : FileTree → Except IoError FileTree} {t t' : FileTree}
    {u : Unit} (h : change wrap f t = (.ok u, t')) : f t = .ok t' := by
  unfold change at h
  cases hf : f t with
  | ok s =>
      rw [hf] at h
      cases h
      rfl
  | error e =>
      rw [hf] at h
      cases h

theorem change_eq_ok_iff {wrap : IoError → ε} {f : FileTree → Except IoError FileTree}
    {t t' : FileTree} : change wrap f t = (.ok (), t') ↔ f t = .ok t' := by
  constructor
  · exact change_ok
  · intro h
    rw [change, h]

theorem changeAll_eq (wrap : IoError → ε) (f : FileTree → Except IoError Unit × FileTree)
    (t : FileTree) : changeAll wrap f t = ((f t).1.mapError wrap, (f t).2) := by
  unfold changeAll
  cases f t with
  | mk r s => cases r <;> rfl

theorem changeAll_ok {wrap : IoError → ε} {f : FileTree → Except IoError Unit × FileTree}
    {t t' : FileTree} {u : Unit} (h : changeAll wrap f t = (.ok u, t')) : f t = (.ok (), t') := by
  rw [changeAll_eq] at h
  cases hf : f t with
  | mk r s =>
      rw [hf] at h
      cases r <;> cases h
      rfl

theorem changeAll_eq_ok_iff {wrap : IoError → ε} {f : FileTree → Except IoError Unit × FileTree}
    {t t' : FileTree} : changeAll wrap f t = (.ok (), t') ↔ f t = (.ok (), t') := by
  constructor
  · exact changeAll_ok
  · intro h
    rw [changeAll_eq, h]
    rfl

theorem moves_changeAll {wrap : IoError → ε} {f : FileTree → Except IoError Unit × FileTree}
    (hf : ∀ t, R t (f t).2) : Moves R (changeAll wrap f) := by
  intro t
  rw [changeAll_eq]
  exact hf t

/-- What succeeds is not tidied up. -/
theorem onFailure_ok {tidy : FileTree → FileTree} {action : FileAction ε α} {t t' : FileTree} {a : α}
    (h : onFailure tidy action t = (.ok a, t')) : action t = (.ok a, t') := by
  unfold onFailure at h
  cases haction : action t with
  | mk r s =>
      rw [haction] at h
      cases r <;> cases h
      rfl

theorem wrapped_eq {δ : Type} (wrap : δ → ε) (action : FileAction δ α) (t : FileTree) :
    wrapped wrap action t = ((action t).1.mapError wrap, (action t).2) := by
  unfold wrapped
  cases action t with
  | mk r s => cases r <;> rfl

theorem wrapped_ok {δ : Type} {wrap : δ → ε} {action : FileAction δ α} {t t' : FileTree} {a : α}
    (h : wrapped wrap action t = (.ok a, t')) : action t = (.ok a, t') := by
  rw [wrapped_eq] at h
  cases haction : action t with
  | mk r s =>
      rw [haction] at h
      cases r <;> cases h
      rfl

end FileAction

/-! ## Tasks -/

namespace Task

theorem onFiles_eq (action : FileAction ε α) (w : World) :
    onFiles action w = ((action w.files).1, { w with files := (action w.files).2 }) := by
  unfold onFiles
  cases action w.files with
  | mk r t => rfl

/-- What succeeds on the files has succeeded on the files alone. -/
theorem onFiles_ok {action : FileAction ε α} {w w' : World} {a : α}
    (h : onFiles action w = (.ok a, w')) : action w.files = (.ok a, w'.files) := by
  rw [onFiles_eq] at h
  obtain ⟨hresult, rfl⟩ := Prod.mk.inj h
  exact Prod.ext hresult rfl

theorem wrapped_eq {δ : Type} (wrap : δ → ε) (task : Task δ α) (w : World) :
    wrapped wrap task w = ((task w).1.mapError wrap, (task w).2) := by
  unfold wrapped
  cases task w with
  | mk r w' => cases r <;> rfl

end Task

end PluginHost

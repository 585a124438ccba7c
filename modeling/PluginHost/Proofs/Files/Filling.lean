import PluginHost.Proofs.Files.Walking

/-!
# Trees that fill with files

Nodes are put at their locations one after the other (`putAll`).  What stands at a location then is
what was put there last (`get?_putAll`).

When files are put where no directories are, links may go away with what lay behind them, so the
tree does not grow.  `Fills` is what is left: the directories stay, and a path that led to one, or
behind one, leads there or nowhere (`locate_fills`, `locate_name_fills`).
-/

namespace PluginHost

namespace FileTree

open PluginHost.Path

/-! ## What was put last -/

/-- What was put last at a location. -/
def lastAt (l : Location) : List (Location × FileNode) → Option FileNode
  | [] => none
  | (k, n) :: rest => (lastAt l rest).or (if k = l then some n else none)

/-- Puts nodes at their locations, in order. -/
def putAll (t : FileTree) (moves : List (Location × FileNode)) : FileTree :=
  moves.foldl (fun t m => t.put m.1 m.2) t

theorem mem_of_lastAt {moves : List (Location × FileNode)} {l : Location} {n : FileNode}
    (h : lastAt l moves = some n) : (l, n) ∈ moves := by
  induction moves with
  | nil => cases h
  | cons m rest ih =>
      obtain ⟨k, n'⟩ := m
      rw [lastAt] at h
      cases hrest : lastAt l rest with
      | some _ =>
          rw [hrest, Option.some_or] at h
          apply List.mem_cons_of_mem
          exact ih (hrest.trans h)
      | none =>
          rw [hrest, Option.none_or] at h
          split at h
          · rename_i hk
            cases h
            rw [hk]
            exact List.mem_cons_self
          · cases h

theorem lastAt_eq_none_iff {moves : List (Location × FileNode)} {l : Location} :
    lastAt l moves = none ↔ ∀ m ∈ moves, m.1 ≠ l := by
  induction moves with
  | nil => simp [lastAt]
  | cons m rest ih =>
      obtain ⟨k, n⟩ := m
      rw [lastAt, Option.or_eq_none_iff, ih, List.forall_mem_cons, and_comm]
      apply and_congr_left'
      split <;> simp_all

theorem get?_putAll {moves : List (Location × FileNode)} (hmoves : ∀ m ∈ moves, m.1 ≠ [])
    (t : FileTree) (l : Location) :
    (putAll t moves).get? l = (lastAt l moves).or (t.get? l) := by
  induction moves generalizing t with
  | nil => rfl
  | cons m rest ih =>
      obtain ⟨k, n⟩ := m
      have hk : k ≠ [] := hmoves (k, n) (by simp)
      have hrest := ih (fun m hm => hmoves m (by simp [hm])) (t.put k n)
      show (putAll (t.put k n) rest).get? l = _
      rw [hrest, lastAt, Option.or_assoc]
      by_cases hkl : k = l
      · subst hkl
        rw [get?_put_self hk, if_pos rfl, Option.some_or]
      · rw [get?_put_of_ne (Ne.symm hkl), if_neg hkl, Option.none_or]

/-! ## Ways through a tree that fills -/

/-- The second tree has more files where the first one has no directories. -/
structure Fills (t t' : FileTree) : Prop where
  workingDirectory : t'.workingDirectory = t.workingDirectory
  filled : ∀ l, t'.get? l = t.get? l ∨
    (t.get? l ≠ some .directory ∧ ∃ mode data, t'.get? l = some (.file mode data))

namespace Fills

theorem refl (t : FileTree) : Fills t t := ⟨rfl, fun _ => .inl rfl⟩

theorem trans {t₁ t₂ t₃ : FileTree} (h₁ : Fills t₁ t₂) (h₂ : Fills t₂ t₃) : Fills t₁ t₃ := by
  refine ⟨h₂.workingDirectory.trans h₁.workingDirectory, fun l => ?_⟩
  rcases h₁.filled l with hsame₁ | ⟨hdirectory, hfile₁⟩
  · rw [← hsame₁]
    exact h₂.filled l
  · rcases h₂.filled l with hsame₂ | ⟨-, hfile₂⟩
    · rw [hsame₂]
      exact .inr ⟨hdirectory, hfile₁⟩
    · exact .inr ⟨hdirectory, hfile₂⟩

theorem put {t : FileTree} {l : Location} (hl : t.get? l ≠ some .directory) (mode : Nat)
    (data : Bytes) : Fills t (t.put l (.file mode data)) := by
  have hroot : l ≠ [] := by
    rintro rfl
    exact hl rfl
  refine ⟨rfl, fun k => ?_⟩
  by_cases hk : k = l
  · subst hk
    exact .inr ⟨hl, mode, data, get?_put_self hroot _⟩
  · exact .inl (get?_put_of_ne hk _)

theorem directory {t t' : FileTree} (h : Fills t t') {l : Location}
    (hl : t.get? l = some .directory) : t'.get? l = some .directory := by
  rcases h.filled l with hsame | ⟨hdirectory, -⟩
  · rw [hsame, hl]
  · exact absurd hl hdirectory

theorem noLinkFrom {t t' : FileTree} (h : Fills t t') {d : Location} (hlinks : NoLinkFrom t d) :
    NoLinkFrom t' d := by
  intro l target hl hlink
  rcases h.filled l with hsame | ⟨-, mode, data, hfile⟩
  · exact hlinks l target hl (hsame.symm.trans hlink)
  · rw [hfile] at hlink
    cases hlink

/-- A tree that fills has grown if no link went away. -/
theorem grows {t t' : FileTree} (h : Fills t t')
    (hlinks : ∀ l target, t.get? l = some (.link target) → t'.get? l = some (.link target)) :
    Grows t t' := by
  refine ⟨h.workingDirectory, fun l => h.directory, ?_, ?_⟩
  · intro l target
    refine ⟨fun hl => ?_, hlinks l target⟩
    rcases h.filled l with hsame | ⟨-, mode, data, hfile⟩
    · rw [← hsame, hl]
    · rw [hfile] at hl
      cases hl
  · intro l hl
    rcases h.filled l with hsame | ⟨-, mode, data, hfile⟩
    · rw [← hsame, hl]
    · rw [hfile] at hl
      cases hl

end Fills

/-- While files take the place of other things, a path that goes on behind a way to a directory goes
on from there or leads nowhere.  So does one that ends there, unless the way may end at a link. -/
theorem Way.fills {t t' : FileTree} (hfills : Fills t t') {d l : Location}
    (hd : t.get? d = some .directory) {follow : Bool} {links : Nat} {current : Location}
    {steps : List Bytes} (h : Way t follow d links current steps) {follow' : Bool}
    {more : List Bytes} (hwalk : walk t' follow' links current (steps ++ more) = .ok l)
    (hend : more ≠ [] ∨ follow = false ∨ t'.get? l = some .directory) :
    ∃ left, walk t' follow' left d more = .ok l := by
  induction h with
  | here => exact ⟨_, hwalk⟩
  | last _ _ hnode _ => exact absurd hd hnode
  | skip hpart _ ih =>
      rw [List.cons_append, walk_skip hpart] at hwalk
      exact ih hwalk
  | up _ ih =>
      rw [List.cons_append, walk_up] at hwalk
      exact ih hwalk
  | @into links current part rest hpart hnode _ ih =>
      rcases hfills.filled (current ++ [part]) with hsame | ⟨hother, -⟩
      · rw [List.cons_append, walk_into hpart (hsame.trans hnode)] at hwalk
        exact ih hwalk
      · exact absurd hnode hother
  | @behind links current part rest target hpart hnode hon _ ih =>
      have hnode' : t'.get? (current ++ [part]) = some (.link target) ∨
          ∃ mode data, t'.get? (current ++ [part]) = some (.file mode data) := by
        rcases hfills.filled (current ++ [part]) with hsame | ⟨-, hfile⟩
        · exact .inl (hsame.trans hnode)
        · exact .inr hfile
      -- The way cannot end at what stands there now.
      have hgoes : rest ++ more = [] → l ≠ current ++ [part] := by
        rintro hnil rfl
        obtain ⟨rfl, rfl⟩ := List.append_eq_nil_iff.1 hnil
        rcases hend with hmore | rfl | hdirectory
        · exact hmore rfl
        · cases hon
        · rcases hnode' with hlink | ⟨mode, data, hfile⟩
          · rw [hlink] at hdirectory
            cases hdirectory
          · rw [hfile] at hdirectory
            cases hdirectory
      rw [List.cons_append] at hwalk
      generalize hsteps : part :: (rest ++ more) = all at hwalk
      cases walk_way hwalk with
      | here => cases hsteps
      | last _ hl _ _ =>
          obtain ⟨rfl, hnil⟩ := List.cons.inj hsteps
          exact absurd hl (hgoes hnil)
      | skip hskip _ =>
          obtain ⟨rfl, -⟩ := List.cons.inj hsteps
          exact absurd hskip (not_or.2 ⟨hpart.ne_nil, hpart.ne_dot⟩)
      | up _ =>
          obtain ⟨rfl, -⟩ := List.cons.inj hsteps
          exact absurd rfl hpart.ne_dots
      | into _ hdirectory _ =>
          obtain ⟨rfl, -⟩ := List.cons.inj hsteps
          rcases hnode' with hlink | ⟨mode, data, hfile⟩
          · rw [hlink] at hdirectory
            cases hdirectory
          · rw [hfile] at hdirectory
            cases hdirectory
      | behind _ hlink' _ hway =>
          obtain ⟨rfl, rfl⟩ := List.cons.inj hsteps
          rcases hnode' with hlink | ⟨mode, data, hfile⟩
          · rw [hlink] at hlink'
            cases hlink'
            apply ih
            rw [List.append_assoc]
            exact hway.walk_eq
          · rw [hfile] at hlink'
            cases hlink'

/-- A path that led to a directory leads there or nowhere, if its end is no link to be followed. -/
theorem locate_fills {t t' : FileTree} (h : Fills t t') {p : Path} {d l : Location}
    (hd : t.get? d = some .directory) {follow : Bool} (hp : t.locate follow p = .ok d)
    (hp' : t'.locate follow p = .ok l) (hend : follow = false ∨ t'.get? l = some .directory) :
    l = d := by
  obtain ⟨-, -, -, hwalk⟩ := locate_ok hp
  obtain ⟨-, -, -, hwalk'⟩ := locate_ok hp'
  rw [h.workingDirectory, ← List.append_nil (parts p)] at hwalk'
  obtain ⟨left, hleft⟩ := (walk_way hwalk).fills h hd hwalk' (.inr hend)
  rw [walk_nil] at hleft
  exact (Except.ok.inj hleft).symm

/-- A name behind a path that led to a directory leads to the place of that name in it, or nowhere. -/
theorem locate_name_fills {t t' : FileTree} (h : Fills t t') {p : Path} {d l : Location}
    (hopens : OpensAt t p d) {part : Bytes} (hpart : IsName part)
    (hl : t'.locate false (front p ++ part) = .ok l) : l = d ++ [part] ∧ IsChild p part := by
  obtain ⟨hzero, -, hlength, hwalk⟩ := locate_ok hl
  have hend : ∀ links, walk t' false links d [part] = .ok l →
      l = d ++ [part] ∧ IsChild p part := by
    intro links hwalk
    cases walk_way hwalk with
    | last hwalkable heq _ _ => exact ⟨heq, hpart, hwalkable.length_le, hzero, hlength⟩
    | skip hskip _ => exact absurd hskip (not_or.2 ⟨hpart.ne_nil, hpart.ne_dot⟩)
    | up _ => exact absurd rfl hpart.ne_dots
    | into hwalkable _ hway =>
        cases hway
        exact ⟨rfl, hpart, hwalkable.length_le, hzero, hlength⟩
    | behind _ _ hon _ => cases hon
  rcases hopens with ⟨rfl, rfl⟩ | ⟨hp, hlocate, hd⟩
  · have hfront : front [] ++ part = part := rfl
    rw [hfront, parts_name hpart, isAbsolute_name hpart, h.workingDirectory] at hwalk
    exact hend _ hwalk
  · obtain ⟨steps, hway, hparts, habsolute⟩ := way_front hp hlocate part
    rw [hparts, habsolute, h.workingDirectory, parts_name hpart] at hwalk
    obtain ⟨left, hleft⟩ := hway.fills h hd hwalk (.inl (List.cons_ne_nil part []))
    exact hend left hleft

end FileTree

end PluginHost

import PluginHost.Proofs.Files.Walking

/-!
# What the operations change

One lemma for each operation on a file tree says where it puts something.  `makeDirectories_makes`
is about the directories: each of them is new and stands where the path, or one above it, leads.
`makeDirectories_ready` says that the path leads to a directory afterwards.
-/

namespace PluginHost

namespace FileTree

open PluginHost.Path

/-- At the location that a path leads to, where nothing is, a directory can be put; the path leads
to it then. -/
theorem Way.put {t : FileTree} {l : Location} (hl : t.get? l = none) {follow : Bool} {links : Nat}
    {current : Location} {steps : List Bytes} (h : Way t follow l links current steps) :
    Way (t.put l .directory) true l links current steps := by
  have hroot : l ≠ [] := by
    rintro rfl
    cases hl
  have hkept : ∀ k node, t.get? k = some node → (t.put l .directory).get? k = some node := by
    intro k node hk
    have hne : k ≠ l := by
      rintro rfl
      rw [hl] at hk
      cases hk
    rw [get?_put_of_ne hne, hk]
  induction h with
  | here => exact .here
  | last hpart heq _ _ =>
      subst heq
      exact .into hpart (get?_put_self hroot _) .here
  | skip hpart _ ih => exact .skip hpart ih
  | up _ ih => exact .up ih
  | into hpart hnode _ ih => exact .into hpart (hkept _ _ hnode) ih
  | behind hpart hnode _ _ ih => exact .behind hpart (hkept _ _ hnode) (by simp) ih

theorem locate_put {t : FileTree} {l : Location} (hl : t.get? l = none) {follow : Bool} {p : Path}
    (hp : t.locate follow p = .ok l) : (t.put l .directory).locate true p = .ok l := by
  obtain ⟨hzero, hempty, hlength, hwalk⟩ := locate_ok hp
  exact locate_of_walk hzero hempty hlength ((walk_way hwalk).put hl).walk_eq

/-! ## Making directories -/

theorem makeDirectory_ok {t t' : FileTree} {p : Path} (h : t.makeDirectory p = .ok t') :
    ∃ l, t.locate false (withoutSlashes p) = .ok l ∧ t.get? l = none ∧
      t' = t.put l .directory := by
  simp only [makeDirectory, bind, Except.bind, pure, Except.pure] at h
  split at h
  · cases h
  · rename_i l hl
    split at h
    · cases h
    · rename_i hnone
      cases h
      exact ⟨l, hl, hnone, rfl⟩

/-- Between the trees only directories were made, where the path or one above it leads. -/
structure Makes (p : Path) (t t' : FileTree) : Prop where
  grows : Grows t t'
  made : ∀ l, t'.get? l ≠ t.get? l → t.get? l = none ∧ t'.get? l = some .directory ∧
    ∃ a, IsAbove p a ∧ t'.locate true (withoutSlashes a) = .ok l

namespace Makes

theorem refl (p : Path) (t : FileTree) : Makes p t t :=
  ⟨.refl t, fun _ h => absurd rfl h⟩

theorem trans {p : Path} {t₁ t₂ t₃ : FileTree} (h₁ : Makes p t₁ t₂) (h₂ : Makes p t₂ t₃) :
    Makes p t₁ t₃ := by
  refine ⟨h₁.grows.trans h₂.grows, fun l hl => ?_⟩
  by_cases hsame : t₂.get? l = t₁.get? l
  · rw [← hsame] at hl ⊢
    exact h₂.made l hl
  · obtain ⟨hnone, hdirectory, a, ha, hlocate⟩ := h₁.made l hsame
    exact ⟨hnone, h₂.grows.directory l hdirectory, a, ha,
      locate_grows h₂.grows hdirectory hlocate⟩

theorem above {p q : Path} {t t' : FileTree} (h : Makes q t t')
    (hq : ∀ a, IsAbove q a → IsAbove p a) : Makes p t t' := by
  refine ⟨h.grows, fun l hl => ?_⟩
  obtain ⟨hnone, hdirectory, a, ha, hlocate⟩ := h.made l hl
  exact ⟨hnone, hdirectory, a, hq a ha, hlocate⟩

end Makes

theorem makeDirectory_makes {t t' : FileTree} {p : Path} (h : t.makeDirectory p = .ok t') :
    Makes p t t' := by
  obtain ⟨l, hl, hnone, rfl⟩ := makeDirectory_ok h
  refine ⟨.put (.inl hnone) (by simp), fun k hk => ?_⟩
  have hkl : k = l := by
    by_contra hne
    exact hk (get?_put_of_ne hne _)
  subst hkl
  have hroot : k ≠ [] := by
    rintro rfl
    cases hnone
  exact ⟨hnone, get?_put_self hroot _, p, .self, locate_put hnone hl⟩

theorem madeOrThere_makes {t t' : FileTree} {p : Path} (h : t.madeOrThere p = .ok t') :
    Makes p t t' := by
  unfold madeOrThere at h
  split at h
  · rename_i s hs
    cases h
    exact makeDirectory_makes hs
  · split at h
    · cases h
      exact .refl p t
    · cases h

theorem makeDirectoriesUpTo_makes (depth : Nat) (t : FileTree) (p : Path) :
    Makes p t (makeDirectoriesUpTo depth t p).2 := by
  induction depth generalizing t p with
  | zero => exact .refl p t
  | succ depth ih =>
      unfold makeDirectoriesUpTo
      split
      · exact .refl p t
      · split
        · rename_i s hs
          exact makeDirectory_makes hs
        · split
          · split
            · exact .refl p t
            · rename_i above habove
              have hmakes := (ih t above).above fun a ha =>
                (IsAbove.parent .self habove).trans ha
              split
              · rename_i e s hs
                rw [hs] at hmakes
                exact hmakes
              · rename_i s hs
                rw [hs] at hmakes
                split
                · rename_i s' hs'
                  exact hmakes.trans (madeOrThere_makes hs')
                · exact hmakes
          · split
            · exact .refl p t
            · exact .refl p t

/-- Directories have been made for the path: it leads to one, unless it is empty or too long to lead
anywhere. -/
def Ready (t : FileTree) (p : Path) : Prop :=
  p = [] ∨ maxPathLength < p.length ∨ ∃ d, OpensAt t p d

theorem Ready.grows {t t' : FileTree} {p : Path} (h : Ready t p) (hgrows : Grows t t') :
    Ready t' p := by
  rcases h with hnil | hlong | ⟨d, hd⟩
  · exact .inl hnil
  · exact .inr (.inl hlong)
  · exact .inr (.inr ⟨d, hd.grows hgrows⟩)

/-- A path that leads behind another one for which directories have been made leads behind a
directory. -/
theorem Ready.opens {t : FileTree} {p q : Path} (h : Ready t p) {follow : Bool} {l : Location}
    (hl : t.locate follow (front p ++ q) = .ok l) : ∃ d, OpensAt t p d := by
  rcases h with hnil | hlong | hopens
  · exact ⟨t.workingDirectory, .inl ⟨hnil, rfl⟩⟩
  · obtain ⟨-, -, hlength, -⟩ := locate_ok hl
    have hfront := length_le_front p
    rw [List.length_append] at hlength
    omega
  · exact hopens

/-- Where a path leads to a directory at all, it leads to it from the start. -/
theorem OpensAt.of_grows {t t' : FileTree} {p : Path} {d : Location} (hready : Ready t p)
    (hgrows : Grows t t') (h : OpensAt t' p d) : OpensAt t p d := by
  rcases h with ⟨hp, hd⟩ | ⟨hp, hlocate, hd⟩
  · exact .inl ⟨hp, hd.trans hgrows.workingDirectory⟩
  · rcases hready with hnil | hlong | ⟨d', hd'⟩
    · exact absurd hnil hp
    · obtain ⟨-, -, hlength, -⟩ := locate_ok hlocate
      omega
    · rcases hd'.grows hgrows with ⟨hnil, -⟩ | ⟨-, hlocate', -⟩
      · exact absurd hnil hp
      · rw [hlocate] at hlocate'
        cases hlocate'
        exact hd'

/-- Slashes at the end of a path make no difference to a walk to a directory. -/
theorem walk_slashes {t : FileTree} {d : Location} (hd : t.get? d = some .directory)
    {p : Path} {slashes : Bytes} (hslashes : ∀ b ∈ slashes, b = slash) {links : Nat}
    {current : Location} (hwalk : walk t true links current (parts p) = .ok d) :
    walk t true links current (parts (p ++ slashes)) = .ok d := by
  induction slashes generalizing p with
  | nil => rwa [List.append_nil]
  | cons b slashes ih =>
      have hb : b = slash := hslashes b (by simp)
      subst hb
      obtain ⟨left, hleft⟩ := (walk_way hwalk).append hd true (List.cons_ne_nil [] [])
      rw [List.append_cons]
      refine ih (fun c hc => hslashes c (by simp [hc])) ?_
      rw [parts_concat_slash, hleft, walk_skip (.inl rfl), walk_nil]

theorem makeDirectory_ready {t t' : FileTree} {p : Path} (h : t.makeDirectory p = .ok t') :
    Ready t' p := by
  obtain ⟨l, hl, hnone, rfl⟩ := makeDirectory_ok h
  have hroot : l ≠ [] := by
    rintro rfl
    cases hnone
  have hd : (t.put l .directory).get? l = some .directory := get?_put_self hroot _
  obtain ⟨hzero, hempty, -, hwalk⟩ := locate_ok (locate_put hnone hl)
  by_cases hlong : maxPathLength < p.length
  · exact .inr (.inl hlong)
  · obtain ⟨slashes, hslashes, hp⟩ := withoutSlashes_append p
    have hzeros : (withoutSlashes p ++ slashes).contains 0 = false := by
      rw [List.contains_eq_mem, decide_eq_false_iff_not] at hzero ⊢
      intro hmem
      rcases List.mem_append.1 hmem with hmem | hmem
      · exact hzero hmem
      · exact absurd (hslashes 0 hmem) (by decide)
    have hslashed := walk_slashes hd hslashes hwalk
    rw [← isAbsolute_append hempty slashes] at hslashed
    rw [← hp] at hzeros hslashed
    have hne : p ≠ [] := by
      rw [hp]
      simp [hempty]
    exact .inr (.inr ⟨l, .inr ⟨hne, locate_of_walk hzeros hne (by omega) hslashed, hd⟩⟩)

theorem isDirectory_ready {t : FileTree} {p : Path} (h : t.isDirectory p = true) : Ready t p := by
  unfold isDirectory node at h
  simp only [bind, Except.bind] at h
  cases hl : t.locate true p with
  | error e =>
      rw [hl] at h
      cases h
  | ok l =>
      rw [hl] at h
      dsimp only at h
      cases hnode : t.get? l with
      | none =>
          rw [hnode] at h
          cases h
      | some node =>
          rw [hnode] at h
          cases node with
          | directory =>
              obtain ⟨-, hne, -, -⟩ := locate_ok hl
              exact .inr (.inr ⟨l, .inr ⟨hne, hl, hnode⟩⟩)
          | file mode data => cases h
          | link target => cases h

theorem madeOrThere_ready {t t' : FileTree} {p : Path} (h : t.madeOrThere p = .ok t') :
    Ready t' p := by
  unfold madeOrThere at h
  split at h
  · rename_i s hs
    cases h
    exact makeDirectory_ready hs
  · split at h
    · rename_i hthere
      cases h
      exact isDirectory_ready hthere
    · cases h

/-- When directories have been made for a path, it leads to one. -/
theorem makeDirectoriesUpTo_ready {depth : Nat} {t t' : FileTree} {p : Path}
    (h : makeDirectoriesUpTo depth t p = (.ok (), t')) : Ready t' p := by
  cases depth with
  | zero => cases h
  | succ depth =>
      unfold makeDirectoriesUpTo at h
      split at h
      · rename_i hempty
        exact .inl (List.isEmpty_iff.1 hempty)
      · split at h
        · rename_i s hs
          cases h
          exact makeDirectory_ready hs
        · split at h
          · split at h
            · cases h
            · split at h
              · cases h
              · split at h
                · rename_i s hs
                  cases h
                  exact madeOrThere_ready hs
                · cases h
          · split at h
            · rename_i hthere
              cases h
              exact isDirectory_ready hthere
            · cases h

theorem makeDirectories_makes (t : FileTree) (p : Path) : Makes p t (t.makeDirectories p).2 :=
  makeDirectoriesUpTo_makes _ t p

/-- Also when some of them could not be made. -/
theorem makes_of_makeDirectories {t t' : FileTree} {p : Path} {r : Except IoError Unit}
    (h : t.makeDirectories p = (r, t')) : Makes p t t' := by
  have hmakes := makeDirectories_makes t p
  rwa [h] at hmakes

theorem makeDirectories_ready {t t' : FileTree} {p : Path}
    (h : t.makeDirectories p = (.ok (), t')) : Ready t' p :=
  makeDirectoriesUpTo_ready h

/-! ## Directories that are there -/

/-- A walk to a directory that does not follow a link at its end leads to something as well. -/
theorem Way.stands {t : FileTree} {d : Location} (hd : t.get? d = some .directory) {links : Nat}
    {current : Location} {steps : List Bytes} (h : Way t true d links current steps) :
    ∃ l node, walk t false links current steps = .ok l ∧ t.get? l = some node := by
  induction h with
  | here => exact ⟨d, .directory, walk_nil t false _ d, hd⟩
  | last _ _ hnode _ => exact absurd hd hnode
  | skip hpart _ ih =>
      rw [walk_skip hpart]
      exact ih
  | up _ ih =>
      rw [walk_up]
      exact ih
  | into hpart hnode _ ih =>
      rw [walk_into hpart hnode]
      exact ih
  | @behind links current part rest target hpart hnode _ _ ih =>
      cases rest with
      | nil =>
          refine ⟨current ++ [part], .link target, ?_, hnode⟩
          exact walk_last hpart (by simp [hnode]) fun _ _ => rfl
      | cons p ps =>
          rw [walk_behind hpart hnode rfl]
          exact ih

theorem walk_dropSlashes {t : FileTree} {d : Location} {p : Path} {slashes : Bytes}
    (hslashes : ∀ b ∈ slashes, b = slash) {links : Nat} {current : Location}
    (hwalk : walk t true links current (parts (p ++ slashes)) = .ok d) :
    walk t true links current (parts p) = .ok d := by
  induction slashes generalizing p with
  | nil => rwa [List.append_nil] at hwalk
  | cons b slashes ih =>
      have hb : b = slash := hslashes b (by simp)
      subst hb
      rw [List.append_cons] at hwalk
      have hone := ih (fun c hc => hslashes c (by simp [hc])) hwalk
      rw [parts_concat_slash] at hone
      exact (walk_way hone).dropEmpty.walk_eq

/-- Where a path leads to a directory, none is made. -/
theorem makeDirectory_there {t : FileTree} {p : Path} {d : Location}
    (hp : t.locate true p = .ok d) (hd : t.get? d = some .directory) :
    t.makeDirectory p = .error .alreadyExists := by
  obtain ⟨hzero, hempty, hlength, hwalk⟩ := locate_ok hp
  obtain ⟨slashes, hslashes, hsplit⟩ := withoutSlashes_append p
  have hempty' := withoutSlashes_ne_nil hempty
  have hlength' : (withoutSlashes p).length ≤ maxPathLength := by
    have hsum := congrArg List.length hsplit
    rw [List.length_append] at hsum
    omega
  have hzero' : (withoutSlashes p).contains 0 = false := by
    rw [hsplit] at hzero
    rw [List.contains_eq_mem, decide_eq_false_iff_not] at hzero ⊢
    exact fun hmem => hzero (List.mem_append_left _ hmem)
  have habsolute : isAbsolute p = isAbsolute (withoutSlashes p) := by
    have happend := isAbsolute_append hempty' slashes
    rwa [← hsplit] at happend
  rw [habsolute] at hwalk
  have hdropped : walk t true maxLinks
      (if isAbsolute (withoutSlashes p) then [] else t.workingDirectory)
      (parts (withoutSlashes p)) = .ok d := by
    generalize (if isAbsolute (withoutSlashes p) then [] else t.workingDirectory) = start at hwalk ⊢
    rw [hsplit] at hwalk
    exact walk_dropSlashes hslashes hwalk
  obtain ⟨l, node, hl, hnode⟩ := (walk_way hdropped).stands hd
  have hlocate := locate_of_walk hzero' hempty' hlength' hl
  simp only [makeDirectory, hlocate, hnode, bind, Except.bind]
  rfl

theorem isDirectory_of_locate {t : FileTree} {p : Path} {d : Location}
    (hp : t.locate true p = .ok d) (hd : t.get? d = some .directory) : t.isDirectory p = true := by
  simp only [isDirectory, node, hp, hd, bind, Except.bind, pure, Except.pure]

/-- Making directories for a path that leads to one changes nothing. -/
theorem makeDirectories_there {t : FileTree} {p : Path} {d : Location} (h : OpensAt t p d) :
    t.makeDirectories p = (.ok (), t) := by
  rcases h with ⟨rfl, -⟩ | ⟨hne, hp, hd⟩
  · rfl
  · have hempty : ¬p.isEmpty = true := by simpa using hne
    have hfound : IoError.alreadyExists.isNotFound = false := by decide
    unfold makeDirectories makeDirectoriesUpTo
    rw [if_neg hempty, makeDirectory_there hp hd]
    dsimp only
    rw [hfound, if_neg Bool.false_ne_true, if_pos (isDirectory_of_locate hp hd)]

/-- A name behind a path leads to the place of that name in its directory, unless a link is there. -/
theorem OpensAt.locate_child {t : FileTree} {p : Path} {d : Location} (h : OpensAt t p d)
    {part : Bytes} (hpart : IsChild p part)
    (hnode : ∀ target, t.get? (d ++ [part]) ≠ some (.link target)) (follow : Bool) :
    t.locate follow (front p ++ part) = .ok (d ++ [part]) := by
  have hname := hpart.name
  have hend : ∀ links, walk t follow links d [part] = .ok (d ++ [part]) := by
    intro links
    have hwalkable : IsWalkable part :=
      ⟨hname.ne_nil, hname.ne_dot, hname.ne_dots, hpart.length_le⟩
    by_cases hdirectory : t.get? (d ++ [part]) = some .directory
    · rw [walk_into hwalkable hdirectory, walk_nil]
    · exact walk_last hwalkable hdirectory fun target hlink => absurd hlink (hnode target)
  have hfront : front p ++ part ≠ [] := by simp [hname.ne_nil]
  refine locate_of_walk hpart.nonzero hfront hpart.path_length_le ?_
  rcases h with ⟨rfl, rfl⟩ | ⟨hne, hp, hd⟩
  · have hempty : front [] ++ part = part := rfl
    rw [hempty, parts_name hname, isAbsolute_name hname]
    exact hend _
  · obtain ⟨links, hfrom⟩ := walk_front hne hp hd part follow
    rw [hfrom, parts_name hname, hend]

/-- A directory is made where nothing is. -/
theorem makeDirectories_new {t : FileTree} {p : Path} {l : Location} (hne : p ≠ [])
    (hp : t.locate false (withoutSlashes p) = .ok l) (hnone : t.get? l = none) :
    t.makeDirectories p = (.ok (), t.put l .directory) := by
  have hempty : ¬p.isEmpty = true := by simpa using hne
  have hmade : t.makeDirectory p = .ok (t.put l .directory) := by
    simp only [makeDirectory, hp, hnone, bind, Except.bind, pure, Except.pure]
  unfold makeDirectories makeDirectoriesUpTo
  rw [if_neg hempty, hmade]

/-! ## Files -/

/-- A file is put where the path leads, in the place of a file or of nothing. -/
structure Puts (p : Path) (t t' : FileTree) : Prop where
  place : ∃ l mode data, t.locate true p = .ok l ∧ t' = t.put l (.file mode data) ∧
    (t.get? l = none ∨ ∃ mode data, t.get? l = some (.file mode data))

theorem Puts.grows {p : Path} {t t' : FileTree} (h : Puts p t t') : Grows t t' := by
  obtain ⟨l, mode, data, -, rfl, hold⟩ := h.place
  exact .put hold (by simp)

theorem Puts.located {p : Path} {t t' : FileTree} (h : Puts p t t') {l : Location}
    (hl : t'.get? l ≠ t.get? l) : t.locate true p = .ok l := by
  obtain ⟨k, mode, data, hk, rfl, -⟩ := h.place
  by_cases hlk : l = k
  · rw [hlk]
    exact hk
  · exact absurd (get?_put_of_ne hlk _) hl

theorem writeWithMode_puts {t t' : FileTree} {p : Path} {mode : Nat} {data : Bytes}
    (h : t.writeWithMode p mode data = .ok t') : Puts (withoutSlashes p) t t' := by
  simp only [writeWithMode, bind, Except.bind, pure, Except.pure] at h
  split at h
  · cases h
  · rename_i l hl
    split at h
    · cases h
    · split at h
      · rename_i old data' hfile
        cases h
        exact ⟨l, old, data, hl, rfl, .inr ⟨old, data', hfile⟩⟩
      · rename_i hnone
        cases h
        exact ⟨l, mode, data, hl, rfl, .inl hnone⟩
      · cases h

theorem setMode_puts {t t' : FileTree} {p : Path} {mode : Nat} (h : t.setMode p mode = .ok t') :
    t' = t ∨ Puts p t t' := by
  simp only [setMode, bind, Except.bind, pure, Except.pure] at h
  split at h
  · cases h
  · rename_i l hl
    split at h
    · rename_i old data hfile
      cases h
      exact .inr ⟨l, mode, data, hl, rfl, .inr ⟨old, data, hfile⟩⟩
    · cases h
      exact .inl rfl
    · cases h

/-- Copying is writing, and then perhaps setting the mode. -/
theorem copy_puts {t t' : FileTree} {source p : Path} (h : t.copy source p = .ok t') :
    ∃ s, Puts (withoutSlashes p) t s ∧ (t' = s ∨ Puts p s t') := by
  simp only [copy, bind, Except.bind] at h
  split at h
  · cases h
  · split at h
    · split at h
      · cases h
      · rename_i s hs
        exact ⟨s, writeWithMode_puts hs, setMode_puts h⟩
    · cases h

end FileTree

end PluginHost

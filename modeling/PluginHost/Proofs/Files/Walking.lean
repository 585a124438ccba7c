import PluginHost.FileTree
import PluginHost.Proofs.Files.Paths

/-!
# Where paths lead

A path is walked part by part (`FileTree.walkWith`), and a link puts new parts in front of those that
are left (`FileTree.walk`).  `Way` is a walk that leads somewhere, step by step; `walk_way` and
`Way.walk_eq` say that it is the same.  Two facts about ways carry everything else.

* A way to a directory stays one while the tree grows (`Way.grows`).  `Grows` says what growing is:
  directories stay, links stay and none is made, nothing is taken away.
* Behind a way to a directory, a path goes on from there (`Way.append`).  Where no links are, it goes
  on name by name (`Way.names_eq`), so a path of names behind a path leads below the place where that
  one leads (`locate_front`).
-/

namespace PluginHost

namespace FileTree

open PluginHost.Path

section Free

variable {t : FileTree} {l : Location}
  (hold : t.get? l = none ∨ ∃ mode data, t.get? l = some (.file mode data))

include hold

theorem ne_nil_of_free : l ≠ [] := by
  rintro rfl
  rcases hold with hnone | ⟨mode, data, hfile⟩
  · cases hnone
  · cases hfile

theorem ne_directory_of_free : t.get? l ≠ some .directory := by
  rcases hold with hnone | ⟨mode, data, hfile⟩
  · simp [hnone]
  · simp [hfile]

theorem ne_link_of_free (target : Path) : t.get? l ≠ some (.link target) := by
  rcases hold with hnone | ⟨mode, data, hfile⟩
  · simp [hnone]
  · simp [hfile]

end Free

/-! ## Trees that grow -/

/-- The second tree holds the directories and the links of the first one, no other links, and
something wherever the first one does. -/
structure Grows (t t' : FileTree) : Prop where
  workingDirectory : t'.workingDirectory = t.workingDirectory
  directory : ∀ l, t.get? l = some .directory → t'.get? l = some .directory
  link : ∀ l target, t'.get? l = some (.link target) ↔ t.get? l = some (.link target)
  missing : ∀ l, t'.get? l = none → t.get? l = none

namespace Grows

theorem refl (t : FileTree) : Grows t t :=
  ⟨rfl, fun _ h => h, fun _ _ => Iff.rfl, fun _ h => h⟩

theorem trans {t₁ t₂ t₃ : FileTree} (h₁ : Grows t₁ t₂) (h₂ : Grows t₂ t₃) : Grows t₁ t₃ :=
  ⟨h₂.workingDirectory.trans h₁.workingDirectory, fun l h => h₂.directory l (h₁.directory l h),
    fun l target => (h₂.link l target).trans (h₁.link l target),
    fun l h => h₁.missing l (h₂.missing l h)⟩

/-- A file or a directory is put where nothing was, or a file where a file was. -/
theorem put {t : FileTree} {l : Location} {n : FileNode}
    (hold : t.get? l = none ∨ ∃ mode data, t.get? l = some (.file mode data))
    (hnew : ∀ target, n ≠ .link target) : Grows t (t.put l n) := by
  have hl : l ≠ [] := ne_nil_of_free hold
  refine ⟨rfl, ?_, ?_, ?_⟩
  · intro k hk
    have hne : k ≠ l := by
      rintro rfl
      exact ne_directory_of_free hold hk
    rw [get?_put_of_ne hne, hk]
  · intro k target
    by_cases hk : k = l
    · subst hk
      rw [get?_put_self hl]
      constructor
      · intro h
        exact absurd (Option.some.inj h) (hnew target)
      · intro h
        exact absurd h (ne_link_of_free hold target)
    · rw [get?_put_of_ne hk]
  · intro k hk
    by_cases hkl : k = l
    · subst hkl
      rw [get?_put_self hl] at hk
      cases hk
    · rwa [get?_put_of_ne hkl] at hk

end Grows

/-! ## Walks -/

/-- The part is a name that a walk can go to. -/
structure IsWalkable (part : Bytes) : Prop where
  ne_nil : part ≠ []
  ne_dot : part ≠ [dot]
  ne_dots : part ≠ [dot, dot]
  length_le : part.length ≤ maxNameLength

theorem IsWalkable.isName {part : Bytes} (h : IsWalkable part) (hslash : slash ∉ part) :
    IsName part :=
  ⟨h.ne_nil, h.ne_dot, h.ne_dots, hslash⟩

section Walks

variable {t : FileTree} {onLink : Location → List Bytes → Except IoError Location} {follow : Bool}

theorem walkWith_skip {part : Bytes} (h : part = [] ∨ part = [dot]) (current : Location)
    (rest : List Bytes) :
    walkWith t onLink follow current (part :: rest) = walkWith t onLink follow current rest := by
  rw [walkWith, if_pos (by simpa using h)]

theorem walkWith_up (current : Location) (rest : List Bytes) :
    walkWith t onLink follow current ([dot, dot] :: rest) =
      walkWith t onLink follow current.dropLast rest := by
  rw [walkWith, if_neg (by decide), if_pos (by decide)]

theorem walkWith_name {part : Bytes} (h : IsWalkable part) (current : Location)
    (rest : List Bytes) :
    walkWith t onLink follow current (part :: rest) =
      match t.get? (current ++ [part]) with
      | some .directory => walkWith t onLink follow (current ++ [part]) rest
      | some (.link target) =>
          if rest.isEmpty && !follow then .ok (current ++ [part])
          else onLink (if Path.isAbsolute target then [] else current) (Path.parts target ++ rest)
      | some (.file _ _) => if rest.isEmpty then .ok (current ++ [part]) else .error .notADirectory
      | none => if rest.isEmpty then .ok (current ++ [part]) else .error .notFound := by
  have hlength := h.length_le
  have hskip : ¬(part == [] || part == [dot]) = true := by simp [h.ne_nil, h.ne_dot]
  have hup : ¬(part == [dot, dot]) = true := by simp [h.ne_dots]
  rw [walkWith]
  exact (if_neg hskip).trans ((if_neg hup).trans (if_neg (by omega)))

variable {links : Nat} {current : Location} {part : Bytes} {rest : List Bytes}

theorem walk_nil (t : FileTree) (follow : Bool) (links : Nat) (current : Location) :
    walk t follow links current [] = .ok current := by
  cases links <;> rfl

theorem walk_skip (h : part = [] ∨ part = [dot]) :
    walk t follow links current (part :: rest) = walk t follow links current rest := by
  cases links <;> exact walkWith_skip h current rest

theorem walk_up :
    walk t follow links current ([dot, dot] :: rest) =
      walk t follow links current.dropLast rest := by
  cases links <;> exact walkWith_up current rest

/-- The step into a directory. -/
theorem walk_into (h : IsWalkable part) (hnode : t.get? (current ++ [part]) = some .directory) :
    walk t follow links current (part :: rest) = walk t follow links (current ++ [part]) rest := by
  cases links <;> rw [walk, walkWith_name h, hnode]

/-- The step behind a link. -/
theorem walk_behind {target : Path} (h : IsWalkable part)
    (hnode : t.get? (current ++ [part]) = some (.link target))
    (hon : (rest.isEmpty && !follow) = false) :
    walk t follow (links + 1) current (part :: rest) =
      walk t follow links (if isAbsolute target then [] else current) (parts target ++ rest) := by
  rw [walk, walkWith_name h, hnode]
  dsimp only
  rw [hon, if_neg Bool.false_ne_true]

/-- The step to a last name that is no directory, and no link to be followed. -/
theorem walk_last (h : IsWalkable part) (hnode : t.get? (current ++ [part]) ≠ some .directory)
    (hlink : ∀ target, t.get? (current ++ [part]) = some (.link target) → follow = false) :
    walk t follow links current [part] = .ok (current ++ [part]) := by
  have hwith : ∀ onLink, walkWith t onLink follow current [part] = .ok (current ++ [part]) := by
    intro onLink
    rw [walkWith_name h]
    split
    · rename_i hdirectory
      exact absurd hdirectory hnode
    · rename_i target htarget
      rw [hlink target htarget]
      rfl
    · rfl
    · rfl
  cases links <;> exact hwith _

end Walks

/-- The way to a location, step by step. -/
inductive Way (t : FileTree) (follow : Bool) (l : Location) : Nat → Location → List Bytes → Prop where
  | here {links : Nat} : Way t follow l links l []
  | last {links : Nat} {current : Location} {part : Bytes} (hpart : IsWalkable part)
      (hl : l = current ++ [part]) (hnode : t.get? l ≠ some .directory)
      (hlink : ∀ target, t.get? l = some (.link target) → follow = false) :
      Way t follow l links current [part]
  | skip {links : Nat} {current : Location} {part : Bytes} {rest : List Bytes}
      (hpart : part = [] ∨ part = [dot]) (h : Way t follow l links current rest) :
      Way t follow l links current (part :: rest)
  | up {links : Nat} {current : Location} {rest : List Bytes}
      (h : Way t follow l links current.dropLast rest) :
      Way t follow l links current ([dot, dot] :: rest)
  | into {links : Nat} {current : Location} {part : Bytes} {rest : List Bytes}
      (hpart : IsWalkable part) (hnode : t.get? (current ++ [part]) = some .directory)
      (h : Way t follow l links (current ++ [part]) rest) :
      Way t follow l links current (part :: rest)
  | behind {links : Nat} {current : Location} {part : Bytes} {rest : List Bytes} {target : Path}
      (hpart : IsWalkable part) (hnode : t.get? (current ++ [part]) = some (.link target))
      (hon : (rest.isEmpty && !follow) = false)
      (h : Way t follow l links (if isAbsolute target then [] else current) (parts target ++ rest)) :
      Way t follow l (links + 1) current (part :: rest)

/-- A way is walked. -/
theorem Way.walk_eq {t : FileTree} {follow : Bool} {l : Location} {links : Nat}
    {current : Location} {steps : List Bytes} (h : Way t follow l links current steps) :
    walk t follow links current steps = .ok l := by
  induction h with
  | here => exact walk_nil t follow _ l
  | last hpart hl hnode hlink =>
      subst hl
      exact walk_last hpart hnode hlink
  | skip hpart _ ih => rw [walk_skip hpart, ih]
  | up _ ih => rw [walk_up, ih]
  | into hpart hnode _ ih => rw [walk_into hpart hnode, ih]
  | behind hpart hnode hon _ ih => rw [walk_behind hpart hnode hon, ih]

/-- A walk that leads to a location is a way there, if what is done at the links is one. -/
theorem walkWith_way {t : FileTree} {follow : Bool} {links : Nat}
    {onLink : Location → List Bytes → Except IoError Location} {l : Location}
    (hlinks : ∀ {current part rest target}, IsWalkable part →
      t.get? (current ++ [part]) = some (.link target) → (rest.isEmpty && !follow) = false →
      onLink (if isAbsolute target then [] else current) (parts target ++ rest) = .ok l →
      Way t follow l links current (part :: rest))
    {current : Location} {steps : List Bytes}
    (hwalk : walkWith t onLink follow current steps = .ok l) :
    Way t follow l links current steps := by
  induction steps generalizing current with
  | nil =>
      cases hwalk
      exact .here
  | cons part rest ih =>
      by_cases hskip : part = [] ∨ part = [dot]
      · rw [walkWith_skip hskip] at hwalk
        exact .skip hskip (ih hwalk)
      · by_cases hup : part = [dot, dot]
        · subst hup
          rw [walkWith_up] at hwalk
          exact .up (ih hwalk)
        · by_cases hlong : part.length > maxNameLength
          · rw [walkWith, if_neg (by simpa using hskip), if_neg (by simpa using hup),
              if_pos hlong] at hwalk
            cases hwalk
          · have hpart : IsWalkable part :=
              ⟨fun h => hskip (.inl h), fun h => hskip (.inr h), hup, by omega⟩
            have hlast : ∀ error : IoError, t.get? (current ++ [part]) ≠ some .directory →
                (∀ target, t.get? (current ++ [part]) = some (.link target) → follow = false) →
                (if rest.isEmpty then Except.ok (current ++ [part]) else .error error) = .ok l →
                Way t follow l links current (part :: rest) := by
              intro error hnode hlink h
              split at h
              · rename_i hempty
                cases h
                rw [List.isEmpty_iff.1 hempty]
                exact .last hpart rfl hnode hlink
              · cases h
            rw [walkWith_name hpart] at hwalk
            split at hwalk
            · rename_i hnode
              exact .into hpart hnode (ih hwalk)
            · rename_i target hnode
              cases hon : rest.isEmpty && !follow with
              | false =>
                  rw [hon, if_neg Bool.false_ne_true] at hwalk
                  exact hlinks hpart hnode hon hwalk
              | true =>
                  rw [hon, if_pos rfl] at hwalk
                  obtain ⟨hempty, hfollow⟩ := Bool.and_eq_true_iff.1 hon
                  refine hlast .notFound (by simp [hnode]) (fun _ _ => by simpa using hfollow) ?_
                  rw [if_pos hempty]
                  exact hwalk
            · rename_i mode data hnode
              exact hlast _ (by simp [hnode]) (by simp [hnode]) hwalk
            · rename_i hnode
              exact hlast _ (by simp [hnode]) (by simp [hnode]) hwalk

/-- A walk that leads to a location is a way there. -/
theorem walk_way {t : FileTree} {follow : Bool} {links : Nat} {current l : Location}
    {steps : List Bytes} (h : walk t follow links current steps = .ok l) :
    Way t follow l links current steps := by
  induction links generalizing current steps with
  | zero =>
      refine walkWith_way ?_ h
      intro current part rest target _ _ _ hlink
      cases hlink
  | succ links ih =>
      refine walkWith_way ?_ h
      intro current part rest target hpart hnode hon hlink
      exact .behind hpart hnode hon (ih hlink)

/-- A way to a directory stays one while the tree grows. -/
theorem Way.grows {t t' : FileTree} (hgrows : Grows t t') {follow : Bool} {d : Location}
    (hd : t.get? d = some .directory) {links : Nat} {current : Location} {steps : List Bytes}
    (h : Way t follow d links current steps) : Way t' follow d links current steps := by
  induction h with
  | here => exact .here
  | last _ _ hnode => exact absurd hd hnode
  | skip hpart _ ih => exact .skip hpart ih
  | up _ ih => exact .up ih
  | into hpart hnode _ ih => exact .into hpart (hgrows.directory _ hnode) ih
  | behind hpart hnode hon _ ih => exact .behind hpart ((hgrows.link _ _).2 hnode) hon ih

/-- A path that is found is one whose parts are walked. -/
theorem locate_ok {t : FileTree} {follow : Bool} {p : Path} {l : Location}
    (h : t.locate follow p = .ok l) :
    p.contains 0 = false ∧ p ≠ [] ∧ p.length ≤ maxPathLength ∧
      walk t follow maxLinks (if isAbsolute p then [] else t.workingDirectory) (parts p) =
        .ok l := by
  unfold locate at h
  split at h
  · cases h
  · rename_i hzero
    split at h
    · cases h
    · rename_i hempty
      split at h
      · cases h
      · rename_i hlength
        refine ⟨Bool.eq_false_iff.2 hzero, ?_, by omega, h⟩
        rintro rfl
        exact hempty rfl

theorem locate_of_walk {t : FileTree} {follow : Bool} {p : Path} {l : Location}
    (hzero : p.contains 0 = false) (hempty : p ≠ []) (hlength : p.length ≤ maxPathLength)
    (hwalk : walk t follow maxLinks (if isAbsolute p then [] else t.workingDirectory) (parts p) =
      .ok l) : t.locate follow p = .ok l := by
  unfold locate
  rw [if_neg (Bool.eq_false_iff.1 hzero), if_neg (by simpa using hempty), if_neg (by omega)]
  exact hwalk

theorem locate_grows {t t' : FileTree} (h : Grows t t') {follow : Bool} {d : Location}
    (hd : t.get? d = some .directory) {p : Path} (hp : t.locate follow p = .ok d) :
    t'.locate follow p = .ok d := by
  obtain ⟨hzero, hempty, hlength, hwalk⟩ := locate_ok hp
  refine locate_of_walk hzero hempty hlength ?_
  rw [h.workingDirectory]
  exact ((walk_way hwalk).grows h hd).walk_eq

/-! ## Walks that go on -/

/-- Behind a way to a directory, a walk goes on from there. -/
theorem Way.append {t : FileTree} {d : Location} (hd : t.get? d = some .directory) {links : Nat}
    {current : Location} {steps : List Bytes} (h : Way t true d links current steps)
    (follow : Bool) {more : List Bytes} (hmore : more ≠ []) :
    ∃ left, walk t follow links current (steps ++ more) = walk t follow left d more := by
  induction h with
  | here => exact ⟨_, rfl⟩
  | last _ _ hnode => exact absurd hd hnode
  | skip hpart _ ih =>
      rw [List.cons_append, walk_skip hpart]
      exact ih
  | up _ ih =>
      rw [List.cons_append, walk_up]
      exact ih
  | into hpart hnode _ ih =>
      rw [List.cons_append, walk_into hpart hnode]
      exact ih
  | behind hpart hnode _ _ ih =>
      rw [List.cons_append, walk_behind hpart hnode (by simp [hmore]), ← List.append_assoc]
      exact ih

/-- An empty part at the end can be left out. -/
theorem Way.dropEmpty {t : FileTree} {d : Location} {links : Nat} {current : Location}
    {steps : List Bytes} (h : Way t true d links current (steps ++ [[]])) :
    Way t true d links current steps := by
  generalize hall : steps ++ [[]] = all at h
  induction h generalizing steps with
  | here => simp at hall
  | last hpart _ _ _ =>
      cases steps with
      | nil => exact absurd (List.cons.inj hall).1.symm hpart.ne_nil
      | cons p ps => simp at hall
  | skip hpart hrest ih =>
      cases steps with
      | nil =>
          obtain ⟨-, rfl⟩ := List.cons.inj hall
          exact hrest
      | cons p ps =>
          obtain ⟨rfl, hps⟩ := List.cons.inj hall
          exact .skip hpart (ih hps)
  | up _ ih =>
      cases steps with
      | nil => cases hall
      | cons p ps =>
          obtain ⟨rfl, hps⟩ := List.cons.inj hall
          exact .up (ih hps)
  | into hpart hnode _ ih =>
      cases steps with
      | nil => exact absurd (List.cons.inj hall).1.symm hpart.ne_nil
      | cons p ps =>
          obtain ⟨rfl, hps⟩ := List.cons.inj hall
          exact .into hpart hnode (ih hps)
  | behind hpart hnode _ _ ih =>
      cases steps with
      | nil => exact absurd (List.cons.inj hall).1.symm hpart.ne_nil
      | cons p ps =>
          obtain ⟨rfl, hps⟩ := List.cons.inj hall
          refine .behind hpart hnode (by simp) (ih ?_)
          rw [List.append_assoc, ← hps]
          rfl

/-! ## Below a directory -/

/-- Neither the location nor anything below it is a link. -/
def NoLinkFrom (t : FileTree) (d : Location) : Prop :=
  ∀ l target, d <+: l → t.get? l ≠ some (.link target)

theorem NoLinkFrom.step {t : FileTree} {d : Location} (h : NoLinkFrom t d) (part : Bytes) :
    NoLinkFrom t (d ++ [part]) :=
  fun l target hl => h l target ((List.prefix_append d [part]).trans hl)

/-- Where no links are, steps that are names lead to the location that they spell. -/
theorem Way.names_eq {t : FileTree} {follow : Bool} {links : Nat} {current l : Location}
    {steps names : List Bytes} (h : Way t follow l links current steps)
    (hsteps : steps.filterMap componentOf = names.map .name) (hlinks : NoLinkFrom t current) :
    l = current ++ names := by
  have hwalked : ∀ {part : Bytes} {rest : List Bytes}, IsWalkable part →
      (part :: rest).filterMap componentOf = .name part :: rest.filterMap componentOf := by
    intro part rest hpart
    apply List.filterMap_cons_some
    exact componentOf_of_ne hpart.ne_nil hpart.ne_dot hpart.ne_dots
  induction h generalizing names with
  | here =>
      have hnames : names = [] := List.map_eq_nil_iff.1 hsteps.symm
      rw [hnames, List.append_nil]
  | last hpart hl _ _ =>
      rw [hwalked hpart] at hsteps
      obtain ⟨name, more, rfl, hname, hmore⟩ := List.map_eq_cons_iff.1 hsteps.symm
      cases hname
      have hnil : more = [] := List.map_eq_nil_iff.1 hmore
      rw [hl, hnil]
  | @skip _ _ part _ hpart _ ih =>
      have hskip : componentOf part = none := by
        unfold componentOf
        rw [if_pos (by simpa using hpart)]
      rw [List.filterMap_cons_none hskip] at hsteps
      exact ih hsteps hlinks
  | up _ _ =>
      have hup : componentOf [dot, dot] = some .up := by decide
      rw [List.filterMap_cons_some hup] at hsteps
      obtain ⟨name, more, rfl, hname, -⟩ := List.map_eq_cons_iff.1 hsteps.symm
      cases hname
  | into hpart _ _ ih =>
      rw [hwalked hpart] at hsteps
      obtain ⟨name, more, rfl, hname, hmore⟩ := List.map_eq_cons_iff.1 hsteps.symm
      cases hname
      rw [ih hmore.symm (hlinks.step _), List.append_assoc, List.singleton_append]
  | behind _ hnode _ _ _ => exact absurd hnode (hlinks _ _ (List.prefix_append _ _))

/-- What is put behind the path is put into this directory.  The empty path stands for the working
directory. -/
def OpensAt (t : FileTree) (p : Path) (d : Location) : Prop :=
  (p = [] ∧ d = t.workingDirectory) ∨
    (p ≠ [] ∧ t.locate true p = .ok d ∧ t.get? d = some .directory)

theorem OpensAt.grows {t t' : FileTree} {p : Path} {d : Location} (h : OpensAt t p d)
    (hgrows : Grows t t') : OpensAt t' p d := by
  rcases h with ⟨hp, hd⟩ | ⟨hp, hlocate, hd⟩
  · exact .inl ⟨hp, hd.trans hgrows.workingDirectory.symm⟩
  · exact .inr ⟨hp, locate_grows hgrows hd hlocate, hgrows.directory d hd⟩

theorem OpensAt.unique {t : FileTree} {p : Path} {d k : Location} (hd : OpensAt t p d)
    (hk : OpensAt t p k) : d = k := by
  rcases hd with ⟨hp, rfl⟩ | ⟨hp, hlocate, -⟩
  · rcases hk with ⟨-, rfl⟩ | ⟨hne, -, -⟩
    · rfl
    · exact absurd hp hne
  · rcases hk with ⟨hnil, -⟩ | ⟨-, hlocate', -⟩
    · exact absurd hnil hp
    · rw [hlocate] at hlocate'
      exact Except.ok.inj hlocate'

theorem NoLinkFrom.grows {t t' : FileTree} {d : Location} (h : NoLinkFrom t d)
    (hgrows : Grows t t') : NoLinkFrom t' d :=
  fun l target hl hnode => h l target hl ((hgrows.link l target).1 hnode)

/-- The name makes a path behind the path that is not too long to lead anywhere. -/
structure IsChild (p : Path) (part : Bytes) : Prop where
  name : IsName part
  length_le : part.length ≤ maxNameLength
  nonzero : (front p ++ part).contains 0 = false
  path_length_le : (front p ++ part).length ≤ maxPathLength

/-- A path behind a path that leads to a directory starts with the way there. -/
theorem way_front {t : FileTree} {p : Path} {d : Location} (hp : p ≠ [])
    (hlocate : t.locate true p = .ok d) (q : Path) :
    ∃ steps, Way t true d maxLinks (if isAbsolute p then [] else t.workingDirectory) steps ∧
      parts (front p ++ q) = steps ++ parts q ∧ isAbsolute (front p ++ q) = isAbsolute p := by
  obtain ⟨-, -, -, hinto⟩ := locate_ok hlocate
  obtain ⟨steps, -, hsteps, hparts, habsolute⟩ := parts_front hp q
  refine ⟨steps, ?_, hparts, habsolute⟩
  rcases hsteps with heq | heq
  · rw [heq] at hinto
    exact walk_way hinto
  · rw [heq] at hinto
    exact (walk_way hinto).dropEmpty

/-- A path behind a path that leads to a directory is walked from that directory. -/
theorem walk_front {t : FileTree} {p : Path} {d : Location} (hp : p ≠ [])
    (hlocate : t.locate true p = .ok d) (hd : t.get? d = some .directory) (q : Path)
    (follow : Bool) :
    ∃ links, walk t follow maxLinks
        (if isAbsolute (front p ++ q) then [] else t.workingDirectory) (parts (front p ++ q)) =
      walk t follow links d (parts q) := by
  obtain ⟨steps, hway, hparts, habsolute⟩ := way_front hp hlocate q
  rw [hparts, habsolute]
  exact hway.append hd follow (Text.splitOn_ne_nil slash q)

/-- A path of names behind a path leads to the location that the names spell, in the directory where
that path leads, if no links are there. -/
theorem locate_front {t : FileTree} {p q : Path} {d l : Location} (hopens : OpensAt t p d)
    (hlinks : NoLinkFrom t d) {names : List Bytes} (hnames : Spells q names) {follow : Bool}
    (h : t.locate follow (front p ++ q) = .ok l) : l = d ++ names := by
  obtain ⟨-, -, -, hwalk⟩ := locate_ok h
  rcases hopens with ⟨rfl, rfl⟩ | ⟨hp, hlocate, hd⟩
  · have hfront : front [] ++ q = q := rfl
    rw [hfront, hnames.relative] at hwalk
    exact (walk_way hwalk).names_eq hnames.steps hlinks
  · obtain ⟨links, hfrom⟩ := walk_front hp hlocate hd q follow
    rw [hfrom] at hwalk
    exact (walk_way hwalk).names_eq hnames.steps hlinks

theorem locate_front_ofNames {t : FileTree} {p : Path} {d l : Location} (hopens : OpensAt t p d)
    (hlinks : NoLinkFrom t d) {names : List Bytes} (hne : names ≠ []) (hnames : AreNames names)
    {follow : Bool} (h : t.locate follow (front p ++ ofNames names) = .ok l) : l = d ++ names :=
  locate_front hopens hlinks (spells_ofNames hne hnames) h

end FileTree

end PluginHost

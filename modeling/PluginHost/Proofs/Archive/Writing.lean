import PluginHost.Proofs.Archive.Cleaning
import PluginHost.Proofs.Archive.Containment
import PluginHost.Proofs.Files.Reading

/-!
# Writing out entries

Unpacking entries succeeds exactly if all their paths are safe and they can be written out one after
the other (`unpackEntries_eq_ok_iff`).  `Writes` says what writing out one entry does to the tree,
and `WritesAll` chains these steps.

What a file entry writes stays until another file entry of the same place comes: a file stands at its
path (`FileAt`), and no entry of another place touches it (`Writes.keeps`).  So in the end every path
holds what its last entry has written (`WritesAll.last`).
-/

namespace PluginHost.Archive

open FileTree PluginHost.Path FileAction

/-- Where an entry is put. -/
def Entry.placeIn (target : Path) (e : Entry) : Path := join target (ofNames (namesOf e.path))

/-! ## Writing out entries -/

/-- Writing out an entry leads from the first tree to the second one. -/
inductive Writes (target : Path) (e : Entry) (t t' : FileTree) : Prop where
  | directory (hkind : e.kind = .directory)
      (hmade : t.makeDirectories (e.placeIn target) = (.ok (), t'))
  | file {above : Path} {s : FileTree} (hkind : e.kind = .file)
      (habove : Path.parent (e.placeIn target) = some above)
      (hmade : t.makeDirectories above = (.ok (), s))
      (hwrite : s.write (e.placeIn target) e.data = .ok t')
  | other (hkind : e.kind = .other) (hsame : t' = t)

/-- Writing out entries in order leads from the first tree to the last one. -/
inductive WritesAll (target : Path) : FileTree → List Entry → FileTree → Prop where
  | nil {t : FileTree} : WritesAll target t [] t
  | cons {t s t' : FileTree} {e : Entry} {rest : List Entry} (he : Writes target e t s)
      (hrest : WritesAll target s rest t') : WritesAll target t (e :: rest) t'

/-- What is told of an entry that has been written out. -/
def Entry.unpacked (target : Path) (e : Entry) : List UnpackedFile :=
  if e.kind = .file then [(e.placeIn target, e.mode)] else []

theorem makeDirectories_eq_ok_iff {p : Path} {t t' : FileTree} :
    makeDirectories p t = (.ok (), t') ↔ t.makeDirectories p = (.ok (), t') :=
  changeAll_eq_ok_iff

/-- Every safe path stands in some directory. -/
theorem exists_parent_placeIn (target : Path) {e : Entry} (h : IsSafePath e.path) :
    ∃ above, Path.parent (e.placeIn target) = some above := by
  obtain ⟨before, last, hlast⟩ := (List.eq_nil_or_concat' (namesOf e.path)).resolve_left h.nonempty
  have hnames := h.areNames
  rw [Entry.placeIn, join_ofNames target hnames]
  rw [hlast] at hnames ⊢
  exact ⟨_, parent_front_ofNames target hnames⟩

variable {target : Path}

theorem unpackEntry_of_safe {e : Entry} (h : IsSafePath e.path) :
    unpackEntry target e =
      match e.kind with
      | .directory => do
          makeDirectories (e.placeIn target)
          pure []
      | .file => do
          makeParent (e.placeIn target)
          change .io fun t => t.write (e.placeIn target) e.data
          pure [(e.placeIn target, e.mode)]
      | .other => pure [] := by
  unfold unpackEntry
  rw [h.clean]
  rfl

theorem unpackEntry_of_error {e : Entry} {error : ArchiveError} (h : cleanPath e.path = .error error) :
    unpackEntry target e = throw error := by
  unfold unpackEntry
  rw [h]
  rfl

/-- Unpacking an entry succeeds exactly if its path is safe and it can be written out. -/
theorem unpackEntry_eq_ok_iff {e : Entry} {t t' : FileTree} {files : List UnpackedFile} :
    unpackEntry target e t = (.ok files, t') ↔
      IsSafePath e.path ∧ Writes target e t t' ∧ files = e.unpacked target := by
  by_cases hsafe : IsSafePath e.path
  · obtain ⟨above, habove⟩ := exists_parent_placeIn target hsafe
    have hparent : makeParent (e.placeIn target) = makeDirectories above := by
      rw [makeParent, habove]
    rw [unpackEntry_of_safe hsafe, Entry.unpacked]
    constructor
    · intro h
      refine ⟨hsafe, ?_⟩
      cases hkind : e.kind with
      | directory =>
          rw [hkind] at h
          obtain ⟨_, s, hmade, hend⟩ := bind_ok h
          cases hend
          exact ⟨.directory hkind (makeDirectories_eq_ok_iff.1 hmade), rfl⟩
      | file =>
          rw [hkind] at h
          obtain ⟨_, s, hmade, hrest⟩ := bind_ok h
          obtain ⟨_, s', hwrite, hend⟩ := bind_ok hrest
          cases hend
          rw [hparent] at hmade
          exact ⟨.file hkind habove (makeDirectories_eq_ok_iff.1 hmade) (change_eq_ok_iff.1 hwrite), rfl⟩
      | other =>
          rw [hkind] at h
          cases h
          exact ⟨.other hkind rfl, rfl⟩
    · rintro ⟨-, hwrites, rfl⟩
      cases hwrites with
      | directory hkind hmade =>
          rw [hkind]
          exact bind_of_ok (makeDirectories_eq_ok_iff.2 hmade)
      | @file above' s hkind habove' hmade hwrite =>
          rw [habove] at habove'
          cases habove'
          have hwritten : change ArchiveError.io (fun t => t.write (e.placeIn target) e.data) s =
              (.ok (), t') := change_eq_ok_iff.2 hwrite
          rw [hkind]
          dsimp only
          rw [hparent, bind_of_ok (makeDirectories_eq_ok_iff.2 hmade), bind_of_ok hwritten]
          rfl
      | other hkind hsame =>
          rw [hkind, hsame]
          rfl
  · cases hclean : cleanPath e.path with
    | ok p => exact absurd (cleanPath_eq_ok_iff.1 hclean).1 hsafe
    | error error =>
        rw [unpackEntry_of_error hclean]
        exact ⟨nofun, fun h => absurd h.1 hsafe⟩

/-- Unpacking entries succeeds exactly if all their paths are safe and they can be written out one
after the other. -/
theorem unpackEntries_eq_ok_iff {entries : List Entry} {t t' : FileTree} {files : List UnpackedFile} :
    unpackEntries target entries t = (.ok files, t') ↔
      (∀ e ∈ entries, IsSafePath e.path) ∧ WritesAll target t entries t' ∧
        files = entries.flatMap (·.unpacked target) := by
  induction entries generalizing t files with
  | nil =>
      constructor
      · intro h
        cases h
        exact ⟨by simp, .nil, rfl⟩
      · rintro ⟨-, hwrites, rfl⟩
        cases hwrites
        rfl
  | cons e rest ih =>
      constructor
      · intro h
        obtain ⟨first, s, hfirst, hrest⟩ := bind_ok h
        obtain ⟨more, s', hmore, hend⟩ := bind_ok hrest
        cases hend
        obtain ⟨hsafe, hwrites, rfl⟩ := unpackEntry_eq_ok_iff.1 hfirst
        obtain ⟨hsafes, hwritesAll, rfl⟩ := ih.1 hmore
        exact ⟨List.forall_mem_cons.2 ⟨hsafe, hsafes⟩, .cons hwrites hwritesAll, rfl⟩
      · rintro ⟨hsafes, hwrites, rfl⟩
        obtain ⟨hsafe, hsafes⟩ := List.forall_mem_cons.1 hsafes
        cases hwrites with
        | cons hfirst hrest =>
            rw [unpackEntries, bind_of_ok (unpackEntry_eq_ok_iff.2 ⟨hsafe, hfirst, rfl⟩),
              bind_of_ok (ih.2 ⟨hsafes, hrest, rfl⟩)]
            rfl

/-! ## What was written last -/

/-- The path leads to this location, and a file with the data stands there. -/
structure FileAt (t : FileTree) (p : Path) (l : Location) (data : Bytes) : Prop where
  locate : t.locate true p = .ok l
  file : ∃ mode, t.get? l = some (.file mode data)

theorem FileAt.addsDirectories {t t' : FileTree} {p : Path} {l : Location} {data : Bytes}
    (h : FileAt t p l data) (hadds : AddsDirectories t t') : FileAt t' p l data := by
  obtain ⟨hlocate, mode, hfile⟩ := h
  exact ⟨hadds.locate hlocate hfile, mode, hadds.kept l _ hfile⟩

/-- A file that is put elsewhere changes nothing. -/
theorem FileAt.put {t : FileTree} {p : Path} {l k : Location} {data other : Bytes} {mode : Nat}
    (h : FileAt t p l data) (hk : k ≠ l)
    (hold : t.get? k = none ∨ ∃ mode data, t.get? k = some (.file mode data)) :
    FileAt (t.put k (.file mode other)) p l data := by
  obtain ⟨hlocate, old, hfile⟩ := h
  exact ⟨locate_putFile hold hlocate, old, (get?_put_of_ne hk.symm _).trans hfile⟩

section Steps

variable {t t' : FileTree} {e : Entry}

theorem Writes.grows (h : Writes target e t t') : Grows t t' := by
  cases h with
  | directory hkind hmade =>
      exact (makes_of_makeDirectories hmade).grows
  | @file above s hkind habove hmade hwrite =>
      exact (makes_of_makeDirectories hmade).grows.trans (writeWithMode_puts hwrite).grows
  | other hkind hsame =>
      rw [hsame]
      exact .refl t

/-- An entry whose path is safe is written in the directory of the target. -/
theorem located_placeIn (h : Safe target t) (hsafe : IsSafePath e.path) {l : Location}
    (hl : t.locate true (e.placeIn target) = .ok l) :
    ∃ d, OpensAt t target d ∧ l = d ++ namesOf e.path := by
  rw [Entry.placeIn, join_ofNames target hsafe.areNames] at hl
  exact h.located hsafe.nonempty hsafe.areNames hl

/-- What a file entry has written stands at its place. -/
theorem Writes.stands (h : Writes target e t t') (hkind : e.kind = .file) (hfree : Safe target t)
    (hsafe : IsSafePath e.path) :
    ∃ d, OpensAt t' target d ∧ FileAt t' (e.placeIn target) (d ++ namesOf e.path) e.data := by
  have hgrows := h.grows
  cases h with
  | directory hdirectory _ =>
      rw [hkind] at hdirectory
      cases hdirectory
  | other hother _ =>
      rw [hkind] at hother
      cases hother
  | @file above s _ habove hmade hwrite =>
      have hmakes := makes_of_makeDirectories hmade
      obtain ⟨l, mode, hlocate, rfl, hold⟩ := write_ok hwrite
      obtain ⟨d, hd, rfl⟩ := located_placeIn (hfree.grows hmakes.grows) hsafe hlocate
      exact ⟨d, hd.grows (writeWithMode_puts hwrite).grows, locate_putFile hold hlocate, mode,
        get?_put_self (ne_nil_of_free hold) _⟩

/-- A file in the directory of the target stays when no file is written over it. -/
theorem Writes.keeps (h : Writes target e t t') (hfree : Safe target t) (hsafe : IsSafePath e.path)
    {d : Location} (hd : OpensAt t target d) {p : Path} {names : List Bytes} {data : Bytes}
    (hfile : FileAt t p (d ++ names) data) (hother : e.kind = .file → namesOf e.path ≠ names) :
    FileAt t' p (d ++ names) data := by
  cases h with
  | directory hkind hmade =>
      exact hfile.addsDirectories (makes_of_makeDirectories hmade).addsDirectories
  | @file above s hkind habove hmade hwrite =>
      have hmakes := makes_of_makeDirectories hmade
      obtain ⟨l, mode, hlocate, rfl, hold⟩ := write_ok hwrite
      obtain ⟨k, hk, rfl⟩ := located_placeIn (hfree.grows hmakes.grows) hsafe hlocate
      obtain rfl := hk.unique (hd.grows hmakes.grows)
      refine (hfile.addsDirectories hmakes.addsDirectories).put ?_ hold
      exact fun heq => hother hkind (List.append_cancel_left heq)
  | other hkind hsame =>
      rw [hsame]
      exact hfile

end Steps

section Runs

variable {t t' : FileTree} {entries : List Entry}

theorem WritesAll.grows (h : WritesAll target t entries t') : Grows t t' := by
  induction h with
  | nil => exact .refl _
  | cons he _ ih => exact he.grows.trans ih

theorem WritesAll.split {before behind : List Entry} (h : WritesAll target t (before ++ behind) t') :
    ∃ s, WritesAll target t before s ∧ WritesAll target s behind t' := by
  induction before generalizing t with
  | nil => exact ⟨t, .nil, h⟩
  | cons e before ih =>
      cases h with
      | cons he hrest =>
          obtain ⟨s, hbefore, hbehind⟩ := ih hrest
          exact ⟨s, .cons he hbefore, hbehind⟩

theorem WritesAll.keeps (h : WritesAll target t entries t') (hfree : Safe target t)
    (hsafe : ∀ e ∈ entries, IsSafePath e.path) {d : Location} (hd : OpensAt t target d) {p : Path}
    {names : List Bytes} {data : Bytes} (hfile : FileAt t p (d ++ names) data)
    (hother : ∀ e ∈ entries, e.kind = .file → namesOf e.path ≠ names) :
    FileAt t' p (d ++ names) data := by
  induction h with
  | nil => exact hfile
  | @cons t s t' e rest he _ ih =>
      obtain ⟨hsafe₁, hsafe⟩ := List.forall_mem_cons.1 hsafe
      obtain ⟨hother₁, hother⟩ := List.forall_mem_cons.1 hother
      exact ih (hfree.grows he.grows) hsafe (hd.grows he.grows)
        (he.keeps hfree hsafe₁ hd hfile hother₁) hother

/-- The entry is the last file entry of its place. -/
structure IsLastAt (target : Path) (entries : List Entry) (p : Path) (last : Entry) : Prop where
  file : last.kind = .file
  place : last.placeIn target = p
  last : ∃ before behind, entries = before ++ last :: behind ∧
    ∀ e ∈ behind, e.kind = .file → e.placeIn target ≠ p

theorem exists_isLastAt {e : Entry} (he : e ∈ entries) (hkind : e.kind = .file) :
    ∃ last, IsLastAt target entries (e.placeIn target) last := by
  induction entries generalizing e with
  | nil => cases he
  | cons first rest ih =>
      by_cases hlater : ∃ e' ∈ rest, e'.kind = .file ∧ e'.placeIn target = e.placeIn target
      · obtain ⟨e', he', hkind', hplace⟩ := hlater
        obtain ⟨last, hfile, hlast, before, behind, rfl, hother⟩ := ih he' hkind'
        rw [hplace] at hlast hother
        exact ⟨last, hfile, hlast, first :: before, behind, rfl, hother⟩
      · have hother : ∀ e' ∈ rest, e'.kind = .file → e'.placeIn target ≠ e.placeIn target :=
          fun e' he' hkind' hplace => hlater ⟨e', he', hkind', hplace⟩
        rcases List.mem_cons.1 he with rfl | he
        · exact ⟨e, hkind, rfl, [], rest, rfl, hother⟩
        · exact absurd rfl (hother e he hkind)

/-- In the end, every path of a file entry holds what the last one of that path has written. -/
theorem WritesAll.last (h : WritesAll target t entries t') (hfree : Safe target t)
    (hsafe : ∀ e ∈ entries, IsSafePath e.path) {p : Path} {last : Entry}
    (hlast : IsLastAt target entries p last) :
    ∃ d, OpensAt t' target d ∧ FileAt t' p (d ++ namesOf last.path) last.data := by
  obtain ⟨hkind, rfl, before, behind, rfl, hother⟩ := hlast
  obtain ⟨s, hbefore, hrest⟩ := h.split
  obtain ⟨-, hsafes⟩ := List.forall_mem_append.1 hsafe
  obtain ⟨hsafeLast, hsafes⟩ := List.forall_mem_cons.1 hsafes
  have hfreeBefore := hfree.grows hbefore.grows
  cases hrest with
  | cons hwrite hbehind =>
      obtain ⟨d, hd, hfile⟩ := hwrite.stands hkind hfreeBefore hsafeLast
      refine ⟨d, hd.grows hbehind.grows, hbehind.keeps (hfreeBefore.grows hwrite.grows) hsafes hd hfile
        fun e he hfileKind heq => hother e he hfileKind ?_⟩
      rw [Entry.placeIn, Entry.placeIn, heq]

end Runs

end PluginHost.Archive

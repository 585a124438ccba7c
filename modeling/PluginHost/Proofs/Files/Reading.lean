import PluginHost.Proofs.Files.Changing

/-!
# Reading what was written

A file that has been written can be read at the same path, and it holds what was written
(`read_write`): where the path led, there is a file now, and the path still leads there
(`locate_putFile`), whether links are followed to its end or not (`locate_followed`).  Where only
directories were made, every file is still read as it was (`AddsDirectories.read`).
-/

namespace PluginHost

namespace FileTree

open PluginHost.Path

/-- A file can be put in the place of nothing or of a file; every path still leads where it led. -/
theorem Way.putFile {t : FileTree} {k l : Location} {mode : Nat} {data : Bytes}
    (hold : t.get? k = none ∨ ∃ mode data, t.get? k = some (.file mode data)) {follow : Bool}
    {links : Nat} {current : Location} {steps : List Bytes}
    (h : Way t follow l links current steps) :
    Way (t.put k (.file mode data)) follow l links current steps := by
  have hput : (t.put k (.file mode data)).get? k = some (.file mode data) :=
    get?_put_self (ne_nil_of_free hold) _
  induction h with
  | here => exact .here
  | last hpart heq hnode hlink =>
      by_cases hk : l = k
      · subst hk
        exact .last hpart heq (by simp [hput]) (by simp [hput])
      · rw [← get?_put_of_ne hk (.file mode data)] at hnode hlink
        exact .last hpart heq hnode hlink
  | skip hpart _ ih => exact .skip hpart ih
  | up _ ih => exact .up ih
  | into hpart hnode _ ih =>
      apply Way.into hpart _ ih
      rw [get?_put_of_ne _ _, hnode]
      rintro rfl
      exact ne_directory_of_free hold hnode
  | behind hpart hnode hon _ ih =>
      apply Way.behind hpart _ hon ih
      rw [get?_put_of_ne _ _, hnode]
      rintro rfl
      exact ne_link_of_free hold _ hnode

theorem locate_putFile {t : FileTree} {k l : Location} {mode : Nat} {data : Bytes}
    (hold : t.get? k = none ∨ ∃ mode data, t.get? k = some (.file mode data)) {follow : Bool}
    {p : Path} (hp : t.locate follow p = .ok l) :
    (t.put k (.file mode data)).locate follow p = .ok l := by
  obtain ⟨hzero, hempty, hlength, hwalk⟩ := locate_ok hp
  apply locate_of_walk hzero hempty hlength
  exact ((walk_way hwalk).putFile hold).walk_eq

/-- A way that does not end at a link may follow links to its end. -/
theorem Way.followed {t : FileTree} {l : Location} (hl : ∀ target, t.get? l ≠ some (.link target))
    {follow : Bool} {links : Nat} {current : Location} {steps : List Bytes}
    (h : Way t follow l links current steps) : Way t true l links current steps := by
  induction h with
  | here => exact .here
  | last hpart heq hnode _ => exact .last hpart heq hnode fun target hlink => absurd hlink (hl target)
  | skip hpart _ ih => exact .skip hpart ih
  | up _ ih => exact .up ih
  | into hpart hnode _ ih => exact .into hpart hnode ih
  | behind hpart hnode _ _ ih => exact .behind hpart hnode (by simp) ih

theorem locate_followed {t : FileTree} {l : Location} (hl : ∀ target, t.get? l ≠ some (.link target))
    {follow : Bool} {p : Path} (hp : t.locate follow p = .ok l) : t.locate true p = .ok l := by
  obtain ⟨hzero, hempty, hlength, hwalk⟩ := locate_ok hp
  exact locate_of_walk hzero hempty hlength ((walk_way hwalk).followed hl).walk_eq

/-- A path that leads to a file is read there. -/
theorem read_of_locate {t : FileTree} {p : Path} {l : Location} {mode : Nat} {data : Bytes}
    (hp : t.locate true p = .ok l) (hl : t.get? l = some (.file mode data)) :
    t.read p = .ok data := by
  simp only [read, node, hp, hl, bind, Except.bind, pure, Except.pure]

theorem isFile_of_locate {t : FileTree} {p : Path} {l : Location} {mode : Nat} {data : Bytes}
    (hp : t.locate true p = .ok l) (hl : t.get? l = some (.file mode data)) :
    t.isFile p = true := by
  simp only [isFile, node, hp, hl, bind, Except.bind, pure, Except.pure]

/-- Writing puts a file where the path leads. -/
theorem write_ok {t t' : FileTree} {p : Path} {data : Bytes} (h : t.write p data = .ok t') :
    ∃ l mode, t.locate true p = .ok l ∧ t' = t.put l (.file mode data) ∧
      (t.get? l = none ∨ ∃ mode data, t.get? l = some (.file mode data)) := by
  simp only [write, writeWithMode, bind, Except.bind, pure, Except.pure] at h
  split at h
  · cases h
  · rename_i l hl
    split at h
    · cases h
    · rename_i hslash
      rw [withoutSlashes_of_getLast? (by simpa using hslash)] at hl
      split at h
      · rename_i old before hfile
        cases h
        exact ⟨l, old, hl, rfl, .inr ⟨old, before, hfile⟩⟩
      · rename_i hnone
        cases h
        exact ⟨l, newFileMode, hl, rfl, .inl hnone⟩
      · cases h

/-- What was written can be read. -/
theorem read_write {t t' : FileTree} {p : Path} {data : Bytes} (h : t.write p data = .ok t') :
    t'.read p = .ok data := by
  obtain ⟨l, mode, hl, rfl, hold⟩ := write_ok h
  apply read_of_locate (locate_putFile hold hl)
  exact get?_put_self (ne_nil_of_free hold) _

/-- A file that is read is at the end of its path. -/
theorem read_ok {t : FileTree} {p : Path} {data : Bytes} (h : t.read p = .ok data) :
    ∃ l mode, t.locate true p = .ok l ∧ t.get? l = some (.file mode data) := by
  simp only [read, node, bind, Except.bind, pure, Except.pure] at h
  cases hl : t.locate true p with
  | error e =>
      rw [hl] at h
      cases h
  | ok l =>
      rw [hl] at h
      dsimp only at h
      cases hnode : t.get? l with
      | none =>
          rw [hnode] at h
          cases h
      | some n =>
          rw [hnode] at h
          cases n with
          | directory => cases h
          | link target => cases h
          | file mode old =>
              cases h
              exact ⟨l, mode, rfl, hnode⟩

/-- A file that has been put at a path can be read there. -/
theorem Puts.read {t t' : FileTree} {p : Path} (h : Puts p t t') : ∃ data, t'.read p = .ok data := by
  obtain ⟨l, mode, data, hl, rfl, hold⟩ := h.place
  exact ⟨data, read_of_locate (locate_putFile hold hl) (get?_put_self (ne_nil_of_free hold) _)⟩

/-- What was copied can be read. -/
theorem read_copy {t t' : FileTree} {source p : Path} (hslash : p.getLast? ≠ some slash)
    (h : t.copy source p = .ok t') : ∃ data, t'.read p = .ok data := by
  obtain ⟨s, hputs, hmode⟩ := copy_puts h
  rw [withoutSlashes_of_getLast? hslash] at hputs
  rcases hmode with rfl | hmode
  · exact hputs.read
  · exact hmode.read

theorem isThere_of_read {t : FileTree} {p : Path} {data : Bytes} (h : t.read p = .ok data) :
    t.isThere p = true := by
  obtain ⟨l, mode, hl, hnode⟩ := read_ok h
  simp only [isThere, node, hl, hnode, bind, Except.bind, pure, Except.pure]

/-! ## Trees to which directories are added -/

/-- The second tree holds all that the first one holds, and at most directories beside it. -/
structure AddsDirectories (t t' : FileTree) : Prop where
  workingDirectory : t'.workingDirectory = t.workingDirectory
  kept : ∀ l n, t.get? l = some n → t'.get? l = some n
  added : ∀ l n, t'.get? l = some n → t.get? l = some n ∨ t.get? l = none ∧ n = .directory

namespace AddsDirectories

theorem refl (t : FileTree) : AddsDirectories t t := ⟨rfl, fun _ _ h => h, fun _ _ h => .inl h⟩

theorem trans {t₁ t₂ t₃ : FileTree} (h₁ : AddsDirectories t₁ t₂) (h₂ : AddsDirectories t₂ t₃) :
    AddsDirectories t₁ t₃ := by
  refine ⟨h₂.workingDirectory.trans h₁.workingDirectory, fun l n h => h₂.kept l n (h₁.kept l n h),
    fun l n h => ?_⟩
  rcases h₂.added l n h with hsecond | ⟨hnone, rfl⟩
  · exact h₁.added l n hsecond
  · cases hfirst : t₁.get? l with
    | none => exact .inr ⟨rfl, rfl⟩
    | some m =>
        rw [h₁.kept l m hfirst] at hnone
        cases hnone

end AddsDirectories

theorem Makes.addsDirectories {p : Path} {t t' : FileTree} (h : Makes p t t') :
    AddsDirectories t t' := by
  refine ⟨h.grows.workingDirectory, fun l n hn => ?_, fun l n hn => ?_⟩
  · by_contra hother
    have hnone := (h.made l fun heq => hother (heq.trans hn)).1
    rw [hn] at hnone
    cases hnone
  · by_cases hsame : t'.get? l = t.get? l
    · exact .inl (hsame.symm.trans hn)
    · obtain ⟨hnone, hdirectory, -⟩ := h.made l hsame
      rw [hn] at hdirectory
      exact .inr ⟨hnone, Option.some.inj hdirectory⟩

/-- The way to something that is there is still its way. -/
theorem Way.addsDirectories {t t' : FileTree} (hadds : AddsDirectories t t') {l : Location}
    {n : FileNode} (hl : t.get? l = some n) {follow : Bool} {links : Nat} {current : Location}
    {steps : List Bytes} (h : Way t follow l links current steps) :
    Way t' follow l links current steps := by
  have hl' : t'.get? l = t.get? l := (hadds.kept l n hl).trans hl.symm
  induction h with
  | here => exact .here
  | last hpart heq hnode hlink =>
      apply Way.last hpart heq
      · rwa [hl']
      · rwa [hl']
  | skip hpart _ ih => exact .skip hpart ih
  | up _ ih => exact .up ih
  | into hpart hnode _ ih => exact .into hpart (hadds.kept _ _ hnode) ih
  | behind hpart hnode hon _ ih => exact .behind hpart (hadds.kept _ _ hnode) hon ih

/-- A path to something that is there still leads to it. -/
theorem AddsDirectories.locate {t t' : FileTree} (h : AddsDirectories t t') {follow : Bool} {p : Path}
    {l : Location} {n : FileNode} (hp : t.locate follow p = .ok l) (hl : t.get? l = some n) :
    t'.locate follow p = .ok l := by
  obtain ⟨hzero, hempty, hlength, hwalk⟩ := locate_ok hp
  have hway := ((walk_way hwalk).addsDirectories h hl).walk_eq
  rw [← h.workingDirectory] at hway
  exact locate_of_walk hzero hempty hlength hway

/-- A file is read as it was. -/
theorem AddsDirectories.read {t t' : FileTree} (h : AddsDirectories t t') {p : Path} {data : Bytes}
    (hread : t.read p = .ok data) : t'.read p = .ok data := by
  obtain ⟨l, mode, hl, hnode⟩ := read_ok hread
  exact read_of_locate (h.locate hl hnode) (h.kept l _ hnode)

end FileTree

end PluginHost

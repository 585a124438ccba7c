import PluginHost.Proofs.Files.Filling
import PluginHost.Proofs.Files.Reading
import PluginHost.Proofs.Files.Tidy

/-!
# Files that come and go

A file is made where nothing is (`makeNew_ok`), moved to another place (`moveOf_ok`) or taken away
(`discard_of_locate`).  A new file can be written and given a mode, and when it is discarded, the tree
is as it was (`write_new`, `setMode_new`, `discard_new`).  There are two groups of lemmas behind these.

* Putting and erasing at different locations can be done in any order (`erase_put_of_ne`,
  `erase_comm`), and what is put and erased again where nothing had been leaves the tree as it was
  (`erase_put_self`, `erase_of_none`).
* A tree has grown from what is left of it without a file (`grows_erase`), and it has filled from
  there (`fills_erase`).  So where a path leads to a directory does not depend on the files that come
  and go.
-/

namespace PluginHost

namespace FileTree

open PluginHost.Path

variable {t t' : FileTree} {k l : Location}

/-! ## Erasing -/

/-- What is filtered by its location is found where it is kept. -/
theorem entryAt_filter {keep : Location → Bool} (hl : keep l = true)
    (entries : List (Location × FileNode)) :
    entryAt l (entries.filter fun (k, _) => keep k) = entryAt l entries := by
  induction entries with
  | nil => rfl
  | cons head rest ih =>
      obtain ⟨k, n⟩ := head
      rw [List.filter_cons]
      by_cases hk : keep k = true
      · rw [if_pos hk, entryAt, entryAt, ih]
      · have hne : ¬(k == l) = true := by
          rw [beq_iff_eq]
          rintro rfl
          exact hk hl
        rw [if_neg hk, ih, entryAt, if_neg hne]

/-- Filtering makes nothing. -/
theorem entryAt_of_filter {keep : Location → Bool} {entries : List (Location × FileNode)}
    {n : FileNode} (h : entryAt l (entries.filter fun (k, _) => keep k) = some n) :
    entryAt l entries = some n := by
  by_cases hl : keep l = true
  · rwa [entryAt_filter hl] at h
  · have hnone : entryAt l (entries.filter fun (k, _) => keep k) = none := by
      rw [entryAt_eq_none_iff, List.mem_map]
      rintro ⟨e, he, rfl⟩
      exact hl (List.mem_filter.1 he).2
    rw [hnone] at h
    cases h

theorem get?_erase_of_ne (hkl : k ≠ l) (t : FileTree) : (t.erase l).get? k = t.get? k := by
  unfold get?
  split
  · rfl
  · exact @entryAt_filter k (· != l) (by simpa using hkl) t.entries

theorem get?_erase_self (hl : l ≠ []) (t : FileTree) : (t.erase l).get? l = none := by
  have hroot : ¬l.isEmpty = true := by simpa using hl
  unfold get?
  rw [if_neg hroot, entryAt_eq_none_iff]
  simp [erase]

theorem erase_of_none (hl : t.get? l = none) : t.erase l = t := by
  have hroot : ¬l.isEmpty = true := by
    rw [List.isEmpty_iff]
    rintro rfl
    cases hl
  unfold get? at hl
  rw [if_neg hroot, entryAt_eq_none_iff] at hl
  have hkept : t.entries.filter (·.1 != l) = t.entries := by
    rw [List.filter_eq_self]
    intro e he
    rw [bne_iff_ne]
    rintro rfl
    exact hl (List.mem_map_of_mem he)
  unfold erase
  rw [hkept]

theorem erase_comm (t : FileTree) (k l : Location) : (t.erase k).erase l = (t.erase l).erase k := by
  unfold erase
  simp only [List.filter_filter, Bool.and_comm]

theorem filter_putEntry_of_ne (hkl : k ≠ l) (n : FileNode) (entries : List (Location × FileNode)) :
    (putEntry l n entries).filter (·.1 != k) = putEntry l n (entries.filter (·.1 != k)) := by
  induction entries with
  | nil => simp [putEntry, Ne.symm hkl]
  | cons head rest ih =>
      obtain ⟨j, m⟩ := head
      by_cases hjl : j = l
      · subst hjl
        simp [putEntry, Ne.symm hkl]
      · by_cases hjk : j = k
        · subst hjk
          simp [putEntry, hjl, ih]
        · simp [putEntry, hjl, hjk, ih]

theorem erase_put_of_ne (hkl : k ≠ l) (t : FileTree) (n : FileNode) :
    (t.put l n).erase k = (t.erase k).put l n := by
  unfold erase put
  rw [filter_putEntry_of_ne hkl]

theorem filter_putEntry_self (n : FileNode) (entries : List (Location × FileNode)) :
    (putEntry l n entries).filter (·.1 != l) = entries.filter (·.1 != l) := by
  induction entries with
  | nil => simp [putEntry]
  | cons head rest ih =>
      obtain ⟨j, m⟩ := head
      by_cases hj : j = l
      · subst hj
        simp [putEntry]
      · simp [putEntry, hj, ih]

theorem erase_put_self (t : FileTree) (l : Location) (n : FileNode) :
    (t.put l n).erase l = t.erase l := by
  unfold erase put
  rw [filter_putEntry_self]

theorem putEntry_putEntry (n m : FileNode) (entries : List (Location × FileNode)) :
    putEntry l n (putEntry l m entries) = putEntry l n entries := by
  induction entries with
  | nil => simp [putEntry]
  | cons head rest ih =>
      obtain ⟨j, m'⟩ := head
      by_cases hj : j = l
      · simp [putEntry, hj]
      · simp [putEntry, hj, ih]

/-- What is put last at a location stands there. -/
theorem put_put (t : FileTree) (l : Location) (n m : FileNode) :
    (t.put l m).put l n = t.put l n := by
  unfold put
  dsimp only
  rw [putEntry_putEntry]

/-! ## Trees without a file -/

section WithoutFile

variable {mode : Nat} {data : Bytes} (hfile : t.get? l = some (.file mode data))

include hfile

theorem ne_nil_of_file : l ≠ [] := ne_nil_of_free (.inr ⟨mode, data, hfile⟩)

/-- A tree has grown from what is left of it without a file. -/
theorem grows_erase : Grows (t.erase l) t := by
  have hgone := get?_erase_self (ne_nil_of_file hfile) t
  refine ⟨rfl, fun k hk => ?_, fun k target => ?_, fun k hk => ?_⟩
  · by_cases hkl : k = l
    · rw [hkl, hgone] at hk
      cases hk
    · rwa [get?_erase_of_ne hkl] at hk
  · by_cases hkl : k = l
    · simp [hkl, hgone, hfile]
    · rw [get?_erase_of_ne hkl]
  · by_cases hkl : k = l
    · rw [hkl]
      exact hgone
    · rwa [get?_erase_of_ne hkl]

/-- A tree has filled from what is left of it without a file. -/
theorem fills_erase : Fills (t.erase l) t := by
  refine ⟨rfl, fun k => ?_⟩
  by_cases hkl : k = l
  · subst hkl
    exact .inr ⟨by simp [get?_erase_self (ne_nil_of_file hfile)], mode, data, hfile⟩
  · exact .inl (get?_erase_of_ne hkl t).symm

/-- A path that leads to a file takes it away when it is discarded. -/
theorem discard_of_locate {p : Path} (hp : t.locate false p = .ok l) : t.discard p = t.erase l := by
  simp only [discard, removeFile, hp, hfile, bind, Except.bind, pure, Except.pure]

end WithoutFile

/-! ## New files -/

theorem makeNew_ok {p : Path} {mode : Nat} (h : t.makeNew p mode = .ok t') :
    ∃ l, t.locate false p = .ok l ∧ t.get? l = none ∧ t' = t.put l (.file mode []) := by
  simp only [makeNew, bind, Except.bind, pure, Except.pure] at h
  split at h
  · cases h
  · rename_i l hl
    split at h
    · cases h
    · rename_i hnone
      cases h
      exact ⟨l, hl, hnone, rfl⟩

theorem removeFile_ok {p : Path} (h : t.removeFile p = .ok t') : ∃ l, t' = t.erase l := by
  simp only [removeFile, bind, Except.bind, pure, Except.pure] at h
  split at h
  · cases h
  · rename_i l hl
    split at h
    · cases h
    · cases h
    · cases h
      exact ⟨l, rfl⟩

section NewFile

variable {p : Path} (hp : t.locate false p = .ok l) (hnone : t.get? l = none)

include hp hnone

theorem locate_new (mode : Nat) (data : Bytes) :
    (t.put l (.file mode data)).locate true p = .ok l := by
  apply locate_followed _ (locate_putFile (.inl hnone) hp)
  simp [get?_put_self (ne_nil_of_free (.inl hnone))]

theorem write_new (hslash : p.getLast? ≠ some slash) (mode : Nat) (old data : Bytes) :
    (t.put l (.file mode old)).write p data = .ok (t.put l (.file mode data)) := by
  have hfile : (t.put l (.file mode old)).get? l = some (.file mode old) :=
    get?_put_self (ne_nil_of_free (.inl hnone)) _
  have hclosed : ¬(p.getLast? == some slash) = true := by simpa using hslash
  simp only [write, writeWithMode, withoutSlashes_of_getLast? hslash, locate_new hp hnone, hfile,
    bind, Except.bind, pure, Except.pure]
  rw [if_neg hclosed, put_put]

theorem setMode_new (mode mode' : Nat) (data : Bytes) :
    (t.put l (.file mode data)).setMode p mode' = .ok (t.put l (.file mode' data)) := by
  have hfile : (t.put l (.file mode data)).get? l = some (.file mode data) :=
    get?_put_self (ne_nil_of_free (.inl hnone)) _
  simp only [setMode, locate_new hp hnone, hfile, bind, Except.bind, pure, Except.pure]
  rw [put_put]

/-- When a new file is discarded, the tree is as it was. -/
theorem discard_new (mode : Nat) (data : Bytes) : (t.put l (.file mode data)).discard p = t := by
  have hfile : (t.put l (.file mode data)).get? l = some (.file mode data) :=
    get?_put_self (ne_nil_of_free (.inl hnone)) _
  rw [discard_of_locate hfile (locate_putFile (.inl hnone) hp), erase_put_self, erase_of_none hnone]

end NewFile

/-- A file that is read does not change when another one is made. -/
theorem read_put {p : Path} {data : Bytes} (hread : t.read p = .ok data) (hnone : t.get? l = none)
    (mode : Nat) (other : Bytes) : (t.put l (.file mode other)).read p = .ok data := by
  obtain ⟨k, mode', hk, hfile⟩ := read_ok hread
  have hkl : k ≠ l := by
    rintro rfl
    rw [hnone] at hfile
    cases hfile
  apply read_of_locate (locate_putFile (.inl hnone) hk)
  rw [get?_put_of_ne hkl, hfile]

/-! ## Moves -/

theorem moveOf_ok {source target : Path} {m : Move} (h : t.moveOf source target = .ok m) :
    t.locate false source = .ok m.old ∧ t.locate false target = .ok m.new ∧
      t.get? m.old = some m.node ∧ t.get? m.new ≠ some .directory := by
  simp only [moveOf, bind, Except.bind, pure, Except.pure] at h
  split at h
  · cases h
  · rename_i old hold
    split at h
    · cases h
    · rename_i new hnew
      split at h
      · cases h
      · rename_i n hnode
        split at h
        · cases h
        · rename_i hdirectory
          cases h
          exact ⟨hold, hnew, hnode, by simpa using hdirectory⟩

theorem rename_eq (t : FileTree) (source target : Path) :
    t.rename source target = (t.moveOf source target).map (·.made t) := by
  unfold rename
  cases t.moveOf source target <;> rfl

end FileTree

end PluginHost

import PluginHost.Proofs.Archive.Writing
import PluginHost.Proofs.Archive.Formats

/-!
# Archives that are packed from a dot

An archiver that packs the directory `.` writes `./` in front of every path, and an entry for the
directory itself.  What is in front of the paths makes no difference; but the entry of the directory
has no path left when it is cleaned, and unpacking ends there (`extract_packedFromDot`).
-/

namespace PluginHost.Archive

open FileTree PluginHost.Path FileAction

/-- The entry with a dot and a slash in front of its path. -/
def Entry.dotted (e : Entry) : Entry := { e with path := dot :: slash :: e.path }

/-- The entry is for the root of the archive: its path does not lead out, and nothing is left of
it. -/
structure Entry.IsRoot (e : Entry) : Prop where
  inside : ¬LeadsOut e.path
  empty : namesOf e.path = []

/-- The second list has the entries of the first one, with a dot and a slash in front of their paths,
and entries for the root anywhere between them. -/
inductive PackedFromDot : List Entry → List Entry → Prop where
  | nil : PackedFromDot [] []
  | entry {e : Entry} {entries packed : List Entry} (hrest : PackedFromDot entries packed) :
      PackedFromDot (e :: entries) (e.dotted :: packed)
  | root {r : Entry} {entries packed : List Entry} (hroot : r.IsRoot)
      (hrest : PackedFromDot entries packed) : PackedFromDot entries (r :: packed)

/-- A dot and a slash are the paths of the root. -/
theorem isRoot_of_path {e : Entry} (h : e.path = utf8 "." ∨ e.path = utf8 "./") : e.IsRoot := by
  rcases h with hpath | hpath <;>
    exact ⟨by rw [hpath]; unfold LeadsOut; decide, by rw [hpath]; decide⟩

/-- Up to the first entry for the root, the entries are those of the first list. -/
theorem PackedFromDot.split {entries packed : List Entry} (h : PackedFromDot entries packed) :
    packed = entries.map Entry.dotted ∨
      ∃ before behind root rest, entries = before ++ behind ∧ root.IsRoot ∧
        packed = before.map Entry.dotted ++ root :: rest := by
  induction h with
  | nil => exact .inl rfl
  | @entry e entries packed hrest ih =>
      rcases ih with rfl | ⟨before, behind, root, rest, rfl, hroot, rfl⟩
      · exact .inl rfl
      · exact .inr ⟨e :: before, behind, root, rest, rfl, hroot, rfl⟩
  | @root r entries packed hroot hrest _ =>
      exact .inr ⟨[], entries, r, packed, rfl, hroot, rfl⟩

/-! ## Paths -/

theorem parts_dotted (p : Path) : parts (dot :: slash :: p) = [dot] :: parts p :=
  Text.splitOn_append_cons slash [dot] p

theorem namesOf_dotted (p : Path) : namesOf (dot :: slash :: p) = namesOf p := by
  rw [namesOf, parts_dotted, List.filter_cons_of_neg (by decide)]
  rfl

theorem leadsOut_dotted {p : Path} (h : isAbsolute p = false) :
    LeadsOut (dot :: slash :: p) ↔ LeadsOut p := by
  have hdotted : isAbsolute (dot :: slash :: p) = false := rfl
  rw [LeadsOut, LeadsOut, parts_dotted, h, hdotted]
  simp

theorem IsSafePath.dotted {p : Path} (h : IsSafePath p) : IsSafePath (dot :: slash :: p) := by
  have hrelative : isAbsolute p = false := by
    simpa using mt Or.inl h.inside
  refine ⟨mt (leadsOut_dotted hrelative).1 h.inside, ?_⟩
  rw [namesOf_dotted]
  exact h.nonempty

theorem cleanPath_dotted {p : Path} (h : IsSafePath p) : cleanPath (dot :: slash :: p) = cleanPath p := by
  rw [h.clean, h.dotted.clean, namesOf_dotted]

/-- What has a name is not for the root. -/
theorem not_isRoot_dotted {e : Entry} (h : IsSafePath e.path) : ¬e.dotted.IsRoot :=
  fun hroot => h.dotted.nonempty hroot.empty

/-! ## Unpacking -/

variable {target : Path}

theorem unpackEntry_dotted {e : Entry} (h : IsSafePath e.path) :
    unpackEntry target e.dotted = unpackEntry target e := by
  unfold unpackEntry Entry.dotted
  rw [cleanPath_dotted h]

theorem unpackEntry_root {e : Entry} (h : e.IsRoot) : unpackEntry target e = throw .emptyPath := by
  apply unpackEntry_of_error
  rw [cleanPath_of_not_leadsOut h.inside, if_pos h.empty]

theorem unpackEntries_dotted {entries : List Entry} (h : ∀ e ∈ entries, IsSafePath e.path) :
    unpackEntries target (entries.map Entry.dotted) = unpackEntries target entries := by
  induction entries with
  | nil => rfl
  | cons e rest ih =>
      obtain ⟨hsafe, hsafes⟩ := List.forall_mem_cons.1 h
      rw [List.map_cons, unpackEntries, unpackEntries, unpackEntry_dotted hsafe, ih hsafes]

theorem unpackEntries_append (before behind : List Entry) :
    unpackEntries target (before ++ behind) = (do
      let files ← unpackEntries target before
      let more ← unpackEntries target behind
      pure (files ++ more)) := by
  induction before with
  | nil => simp [unpackEntries]
  | cons e before ih =>
      rw [List.cons_append, unpackEntries, unpackEntries, ih]
      simp only [bind_assoc, pure_bind, List.append_assoc]

/-- Makes the target and unpacks entries into it. -/
def unpackInto (target : Path) (entries : List Entry) :
    FileAction ArchiveError (List UnpackedFile) := do
  makeDirectories target
  unpackEntries target entries

theorem unpackInto_dotted {entries : List Entry} (h : ∀ e ∈ entries, IsSafePath e.path) :
    unpackInto target (entries.map Entry.dotted) = unpackInto target entries := by
  rw [unpackInto, unpackInto, unpackEntries_dotted h]

/-- Unpacking an archive unpacks its first entries, and then goes on. -/
theorem unpackListing_append (artifact : Path) (before behind : List Entry)
    (fault : Option ArchiveError) :
    unpackListing artifact target ⟨before ++ behind, fault⟩ = (do
      let files ← unpackInto target before
      let more ← unpackEntries target behind
      let all ← (match fault with
        | some e => throw e
        | none => pure (files ++ more))
      programsOf artifact all) := by
  cases fault <;>
    simp only [unpackListing, unpack, unpackInto, unpackEntries_append, bind_assoc, pure_bind]

/-- Only what stands in front of an entry for the root is unpacked. -/
theorem unpackListing_root (artifact : Path) {root : Entry} (h : root.IsRoot)
    (before rest : List Entry) (fault : Option ArchiveError) :
    unpackListing artifact target ⟨before ++ root :: rest, fault⟩ = (do
      let _ ← unpackInto target before
      throw .emptyPath) := by
  rw [unpackListing_append, unpackEntries, unpackEntry_root h]
  rfl

/-- An archive of safe paths can be packed from a dot.  A dot and a slash in front of all paths make
no difference to what is unpacked and returned.  But with an entry for the root, unpacking ends at
the first one: there the path is empty, unless something in front of it could not be unpacked, which
fails for the first archive in the same way. -/
theorem extract_packedFromDot {artifact dotted : Path} (target : Path) {t : FileTree}
    {data data' : Bytes} {entries packed : List Entry} {fault : Option ArchiveError}
    (hformat : Format.ofPath artifact ≠ .binary) (hformat' : Format.ofPath dotted ≠ .binary)
    (hread : t.read artifact = .ok data) (hread' : t.read dotted = .ok data')
    (hlisting : (Format.ofPath artifact).listing data = ⟨entries, fault⟩)
    (hlisting' : (Format.ofPath dotted).listing data' = ⟨packed, fault⟩)
    (hsafe : ∀ e ∈ entries, IsSafePath e.path) (hpacked : PackedFromDot entries packed) :
    ((∀ e ∈ packed, ¬e.IsRoot) →
        outcome (extract dotted target t) = outcome (extract artifact target t)) ∧
      ((∃ e ∈ packed, e.IsRoot) → ∃ before behind root rest,
        entries = before ++ behind ∧ root.IsRoot ∧
          packed = before.map Entry.dotted ++ root :: rest ∧
          (∀ files s, unpackInto target before t = (.ok files, s) →
            extract dotted target t = (.error .emptyPath, s)) ∧
          ∀ e s, unpackInto target before t = (.error e, s) →
            extract dotted target t = (.error e, s) ∧ extract artifact target t = (.error e, s)) := by
  rw [extract_of_read rfl hformat hread, extract_of_read rfl hformat' hread', hlisting, hlisting']
  constructor
  · intro hnone
    rcases hpacked.split with rfl | ⟨before, behind, root, rest, -, hroot, rfl⟩
    · have hunpack : unpack target ⟨entries.map Entry.dotted, fault⟩ =
          unpack target ⟨entries, fault⟩ := by
        rw [unpack, unpack, unpackEntries_dotted hsafe]
      rw [outcome_unpackListing artifact dotted, unpackListing, unpackListing, hunpack]
    · exact absurd hroot (hnone root (by simp))
  · rintro ⟨r, hr, hroot⟩
    rcases hpacked.split with rfl | ⟨before, behind, root, rest, rfl, hroot, rfl⟩
    · obtain ⟨e, he, rfl⟩ := List.mem_map.1 hr
      exact absurd hroot (not_isRoot_dotted (hsafe e he))
    · have hbefore : unpackInto target (before.map Entry.dotted) = unpackInto target before :=
        unpackInto_dotted fun e he => hsafe e (List.mem_append_left behind he)
      refine ⟨before, behind, root, rest, rfl, hroot, rfl, fun files s h => ?_, fun e s h => ⟨?_, ?_⟩⟩
      · rw [unpackListing_root dotted hroot, hbefore, bind_run, h]
        rfl
      · rw [unpackListing_root dotted hroot, hbefore, bind_run, h]
      · rw [unpackListing_append, bind_run, h]

/-- A tree with an archive of one program, and the same archive packed from a dot, without and with
the entry of the directory. -/
def dottedTree : FileTree where
  entries := [([utf8 "a.tar"], .file newFileMode (Tar.pack [⟨utf8 "foo", utf8 "x", some 0o755, 48, []⟩])),
    ([utf8 "b.tar"], .file newFileMode (Tar.pack [⟨utf8 "./foo", utf8 "x", some 0o755, 48, []⟩])),
    ([utf8 "c.tar"], .file newFileMode (Tar.pack [⟨utf8 "./", [], some 0o755, 53, []⟩,
      ⟨utf8 "./foo", utf8 "x", some 0o755, 48, []⟩]))]
  workingDirectory := []

/-- The entries of the archives. -/
def fooEntry : Entry := ⟨utf8 "foo", .file, some 0o755, utf8 "x"⟩
@[inherit_doc fooEntry] def rootEntry : Entry := ⟨utf8 "./", .directory, some 0o755, []⟩

theorem isSafePath_fooEntry : IsSafePath fooEntry.path :=
  ⟨by unfold LeadsOut; decide, by decide⟩

theorem listing_dottedTree :
    Tar.listing ⟨Tar.pack [⟨utf8 "foo", utf8 "x", some 0o755, 48, []⟩], true⟩ = ⟨[fooEntry], none⟩ ∧
      Tar.listing ⟨Tar.pack [⟨utf8 "./foo", utf8 "x", some 0o755, 48, []⟩], true⟩ =
        ⟨[fooEntry.dotted], none⟩ ∧
      Tar.listing ⟨Tar.pack [⟨utf8 "./", [], some 0o755, 53, []⟩,
        ⟨utf8 "./foo", utf8 "x", some 0o755, 48, []⟩], true⟩ = ⟨[rootEntry, fooEntry.dotted], none⟩ := by
  decide +kernel

theorem extract_packedFromDot_dottedTree :
    (extract (utf8 "/b.tar") (utf8 "/d") dottedTree).1 = .ok [utf8 "/d/foo"] ∧
      ∀ programs, (extract (utf8 "/c.tar") (utf8 "/d") dottedTree).1 ≠ .ok programs := by
  have hformat : Format.ofPath (utf8 "/a.tar") = .tar ∧ Format.ofPath (utf8 "/b.tar") = .tar ∧
      Format.ofPath (utf8 "/c.tar") = .tar := by
    decide +kernel
  obtain ⟨ha, hb, hc⟩ := hformat
  have hne : Format.tar ≠ .binary := by decide
  obtain ⟨hlistingA, hlistingB, hlistingC⟩ := listing_dottedTree
  have hsafe : ∀ e ∈ [fooEntry], IsSafePath e.path := by
    simpa using isSafePath_fooEntry
  have hroot : rootEntry.IsRoot := isRoot_of_path (.inr rfl)
  constructor
  · have hnone : ∀ e ∈ [fooEntry.dotted], ¬e.IsRoot := by
      simpa using not_isRoot_dotted isSafePath_fooEntry
    have hplain : (extract (utf8 "/a.tar") (utf8 "/d") dottedTree).1 = .ok [utf8 "/d/foo"] := by
      decide +kernel
    have hsame := (extract_packedFromDot (utf8 "/d") (t := dottedTree) (ha ▸ hne) (hb ▸ hne) rfl rfl
      (by rw [ha]; exact hlistingA) (by rw [hb]; exact hlistingB) hsafe (.entry .nil)).1 hnone
    apply ok_of_outcome
    rw [hsame, outcome, hplain]
    rfl
  · obtain ⟨before, behind, root, rest, -, -, -, hok, hfail⟩ :=
      (extract_packedFromDot (utf8 "/d") (t := dottedTree) (ha ▸ hne) (hc ▸ hne) rfl rfl
        (by rw [ha]; exact hlistingA) (by rw [hc]; exact hlistingC) hsafe (.root hroot (.entry .nil))).2
        ⟨rootEntry, by simp, hroot⟩
    intro programs
    cases hbefore : unpackInto (utf8 "/d") before dottedTree with
    | mk result s =>
        cases result with
        | ok files => simp [hok files s hbefore]
        | error e => simp [(hfail e s hbefore).1]

/-- With an entry for the root in front, an archive of safe paths is no longer unpacked. -/
theorem packedFromDot_root_fails :
    PackedFromDot [fooEntry] [rootEntry, fooEntry.dotted] ∧ IsSafePath fooEntry.path ∧
      Tar.listing ⟨Tar.pack [⟨utf8 "foo", utf8 "x", some 0o755, 48, []⟩], true⟩ = ⟨[fooEntry], none⟩ ∧
      Tar.listing ⟨Tar.pack [⟨utf8 "./", [], some 0o755, 53, []⟩,
        ⟨utf8 "./foo", utf8 "x", some 0o755, 48, []⟩], true⟩ = ⟨[rootEntry, fooEntry.dotted], none⟩ ∧
      (extract (utf8 "/a.tar") (utf8 "/d") dottedTree).1 = .ok [utf8 "/d/foo"] ∧
      (extract (utf8 "/c.tar") (utf8 "/d") dottedTree).1 = .error .emptyPath := by
  obtain ⟨hlistingA, -, hlistingC⟩ := listing_dottedTree
  refine ⟨.root (isRoot_of_path (.inr rfl)) (.entry .nil), isSafePath_fooEntry, hlistingA, hlistingC, ?_⟩
  decide +kernel

end PluginHost.Archive

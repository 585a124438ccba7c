import PluginHost.Proofs.Archive.Formats
import PluginHost.Proofs.Archive.Writing
import PluginHost.Proofs.Text.SmallLetters

/-!
# Which files are returned

Unpacking an archive returns the programs in it (`extract_returns`): it succeeds exactly if all that
the archive holds can be unpacked and one of its entries is a program.

`Entry.IsProgram` says which entries are, by the name and the mode that the archive gives, and
`isProgram_placeIn` that these are the ones taken for programs after they have been written out.
`Unpacks` is the whole way from the archive to the tree in which all has been written out; what the
result is then is said by `Unpacks.run`, and that a result comes from such a way by `exists_unpacks`.
-/

namespace PluginHost

namespace Path

/-- A name that does not start with a dot has no extension exactly if no dot is in it. -/
theorem extension_isNone_iff {p : Path} {name : Bytes} (hname : fileName p = some name)
    (hvisible : name.head? ≠ some dot) : (extension p).isNone = true ↔ dot ∉ name := by
  have hextension : extension p =
      if (name.reverse.takeWhile (· != dot)).length + 1 < name.length then
        some (name.reverse.takeWhile (· != dot)).reverse
      else none := by
    simp only [extension, hname, bind, Option.bind]
  rw [hextension]
  by_cases hdot : dot ∈ name
  · -- From its end, the name is read up to its last dot, and that is not its first byte.
    obtain ⟨after, more, hsplit, hafter⟩ := List.eq_append_cons_of_mem (List.mem_reverse.2 hdot)
    have hall : ∀ b ∈ after, (b != dot) = true := fun b hb =>
      bne_iff_ne.2 fun heq => hafter (heq ▸ hb)
    have hmore : more ≠ [] := by
      rintro rfl
      have hstart := congrArg List.reverse hsplit
      rw [List.reverse_reverse, List.reverse_concat] at hstart
      rw [hstart] at hvisible
      exact hvisible rfl
    have hlength : after.length + 1 < name.length := by
      have hsum := congrArg List.length hsplit
      have hpos := List.length_pos_of_ne_nil hmore
      rw [List.length_reverse, List.length_append, List.length_cons] at hsum
      omega
    rw [hsplit, List.takeWhile_append_of_pos hall, List.takeWhile_cons_of_neg (by simp),
      List.append_nil, if_pos hlength]
    simp [hdot]
  · have hall : ∀ b ∈ name.reverse, (b != dot) = true := by
      intro b hb
      rw [bne_iff_ne]
      rintro rfl
      exact hdot (List.mem_reverse.1 hb)
    rw [List.takeWhile_eq_self_iff.2 hall, if_neg (by simp)]
    simp [hdot]

/-- A path of names behind a path ends with its last name. -/
theorem fileName_join_ofNames (p : Path) {names : List Bytes} (hne : names ≠ []) (h : AreNames names) :
    fileName (join p (ofNames names)) = names.getLast? := by
  obtain ⟨before, last, rfl⟩ := (List.eq_nil_or_concat' names).resolve_left hne
  obtain ⟨x, hx, hbytes⟩ := front_ofNames_concat p before last
  rw [join_ofNames p h, hbytes, fileName, getLast?_components_concat hx (h last (by simp))]
  simp

end Path

namespace Archive

open FileTree PluginHost.Path FileAction

/-! ## Programs by their names and modes -/

/-- The bits that let somebody execute a file. -/
theorem testBit_executable {i : Nat} : Nat.testBit 0o111 i = true ↔ i = 0 ∨ i = 3 ∨ i = 6 := by
  constructor
  · intro hi
    by_cases hlow : i < 7
    · revert hi
      revert i
      decide
    · have hhigh : Nat.testBit 0o111 i = false :=
        Nat.testBit_lt_two_pow (Nat.lt_of_lt_of_le (by decide : 0o111 < 2 ^ 7)
          (Nat.pow_le_pow_right (by decide) (by omega)))
      rw [hhigh] at hi
      cases hi
  · rintro (rfl | rfl | rfl) <;> decide

theorem and_ne_zero_iff {m n : Nat} :
    m &&& n ≠ 0 ↔ ∃ i, m.testBit i = true ∧ n.testBit i = true := by
  simp only [← Bool.and_eq_true, ← Nat.testBit_and]
  constructor
  · exact Nat.exists_testBit_of_ne_zero
  · rintro ⟨i, hi⟩ hzero
    rw [hzero, Nat.zero_testBit] at hi
    cases hi

/-- Somebody may execute a file if one of three bits of its mode says so. -/
theorem isExecutableMode_iff {mode : Option Nat} :
    isExecutableMode mode = true ↔
      (mode.any fun m => m.testBit 0 || m.testBit 3 || m.testBit 6) = true := by
  cases mode with
  | none => simp [isExecutableMode]
  | some m =>
      simp only [isExecutableMode, Option.any_some, bne_iff_ne, and_ne_zero_iff, testBit_executable,
        and_or_left, exists_or, exists_eq_right, Bool.or_eq_true, or_assoc]

/-- The name that the path of an entry ends with. -/
def Entry.baseName (e : Entry) : Bytes := (namesOf e.path).getLast?.getD []

/-- The characters of a name in small letters. -/
def smallChars (name : Bytes) : List Char := (Text.lowercase (lossyText name)).toList

/-- The entry is a file that is taken for a program: its name does not start with a dot and is not,
up to its first dot, that of a document; and its mode lets somebody execute it, or its name has no
extension or the one of programs. -/
structure Entry.IsProgram (e : Entry) : Prop where
  file : e.kind = .file
  visible : e.baseName.head? ≠ some dot
  noDocument : String.ofList ((smallChars e.baseName).takeWhile (· != '.')) ∉ documentNames
  runs : (e.mode.any fun m => m.testBit 0 || m.testBit 3 || m.testBit 6) = true ∨
    dot ∉ e.baseName ∨ ".exe".toList <:+ smallChars e.baseName

instance (e : Entry) : Decidable e.IsProgram :=
  decidable_of_iff (e.kind = .file ∧ e.baseName.head? ≠ some dot ∧
      String.ofList ((smallChars e.baseName).takeWhile (· != '.')) ∉ documentNames ∧
      ((e.mode.any fun m => m.testBit 0 || m.testBit 3 || m.testBit 6) = true ∨
        dot ∉ e.baseName ∨ ".exe".toList <:+ smallChars e.baseName))
    ⟨fun ⟨hfile, hvisible, hdocument, hruns⟩ => ⟨hfile, hvisible, hdocument, hruns⟩,
      fun h => ⟨h.file, h.visible, h.noDocument, h.runs⟩⟩

theorem endsWith_iff {text tail : String} : endsWith text tail = true ↔ tail.toList <:+ text.toList := by
  rw [endsWith, List.isPrefixOf_iff_prefix, List.reverse_prefix]

theorem fileName_placeIn (target : Path) {e : Entry} (h : IsSafePath e.path) :
    fileName (e.placeIn target) = some e.baseName := by
  rw [Entry.placeIn, fileName_join_ofNames target h.nonempty h.areNames, Entry.baseName,
    List.getLast?_eq_some_getLast h.nonempty, Option.getD_some]

/-- Whether an unpacked file is taken for a program is told by its entry. -/
theorem isProgram_placeIn (target : Path) {e : Entry} (h : IsSafePath e.path) (hfile : e.kind = .file) :
    isProgram (e.placeIn target, e.mode) = true ↔ e.IsProgram := by
  have hname := fileName_placeIn target h
  have hsmall : lowercaseName (e.placeIn target) = Text.lowercase (lossyText e.baseName) := by
    rw [lowercaseName, hname]
  have hvisible : (Text.lowercase (lossyText e.baseName)).toList.head? = some '.' ↔
      e.baseName.head? = some dot :=
    (Text.head?_lowercase _).trans (head?_lossyText _)
  simp only [isProgram, isHiddenOrDocument, hsmall, Bool.and_eq_true, Bool.not_eq_true',
    Bool.or_eq_false_iff, beq_eq_false_iff_ne, ne_eq, hvisible, List.contains_eq_mem,
    decide_eq_false_iff_not, Bool.or_eq_true, isExecutableMode_iff, endsWith_iff]
  constructor
  · rintro ⟨⟨hhead, hdocument⟩, hruns⟩
    rw [extension_isNone_iff hname hhead, or_assoc] at hruns
    exact ⟨hfile, hhead, hdocument, hruns⟩
  · intro hprogram
    refine ⟨⟨hprogram.visible, hprogram.noDocument⟩, ?_⟩
    rw [extension_isNone_iff hname hprogram.visible, or_assoc]
    exact hprogram.runs

/-! ## Unpacking -/

variable {artifact target : Path} {t t' : FileTree} {entries : List Entry}

/-- The programs among the files that have been unpacked are those of the entries. -/
theorem programs_unpacked (hsafe : ∀ e ∈ entries, IsSafePath e.path) :
    ((entries.flatMap (·.unpacked target)).filter isProgram).map (·.1) =
      (entries.filter (·.IsProgram)).map (·.placeIn target) := by
  induction entries with
  | nil => rfl
  | cons e rest ih =>
      obtain ⟨hsafe, hsafes⟩ := List.forall_mem_cons.1 hsafe
      rw [List.flatMap_cons, List.filter_append, List.map_append, ih hsafes, Entry.unpacked]
      by_cases hfile : e.kind = .file
      · rw [if_pos hfile]
        by_cases hprogram : e.IsProgram
        · rw [List.filter_cons_of_pos ((isProgram_placeIn target hsafe hfile).2 hprogram),
            List.filter_cons_of_pos (by simpa using hprogram)]
          rfl
        · rw [List.filter_cons_of_neg (mt (isProgram_placeIn target hsafe hfile).1 hprogram),
            List.filter_cons_of_neg (by simpa using hprogram)]
          rfl
      · have hprogram : ¬e.IsProgram := fun h => hfile h.file
        rw [if_neg hfile, List.filter_cons_of_neg (by simpa using hprogram)]
        rfl

/-- What the archive holds can all be unpacked into the target: that can be made and the archive be
read to its end, the paths of its entries are safe, and they can be written out one after the
other. -/
inductive Unpacks (artifact target : Path) (t : FileTree) (entries : List Entry) (t' : FileTree) :
    Prop where
  | intro {s : FileTree} {data : Bytes} (hmade : t.makeDirectories target = (.ok (), s))
      (hread : s.read artifact = .ok data)
      (hlisting : (Format.ofPath artifact).listing data = ⟨entries, none⟩)
      (hsafe : ∀ e ∈ entries, IsSafePath e.path)
      (hwrites : WritesAll target s entries t')

theorem programsOf_run (artifact : Path) (files : List UnpackedFile) (t : FileTree) :
    programsOf artifact files t =
      (if (files.filter isProgram).map (·.1) = [] then .error (.noExecutables artifact)
        else .ok ((files.filter isProgram).map (·.1)), t) := by
  rw [programsOf]
  cases (files.filter isProgram).map (·.1) with
  | nil => rfl
  | cons p more => rfl

/-- When all has been unpacked, the programs among the entries are returned if there are any. -/
theorem Unpacks.run (h : Unpacks artifact target t entries t')
    (hformat : Format.ofPath artifact ≠ .binary) :
    extract artifact target t =
      (if (entries.filter (·.IsProgram)).map (·.placeIn target) = [] then
          .error (.noExecutables artifact)
        else .ok ((entries.filter (·.IsProgram)).map (·.placeIn target)), t') := by
  obtain ⟨hmade, hread, hlisting, hsafe, hwrites⟩ := h
  have hfiles : unpack target ⟨entries, none⟩ _ = _ :=
    unpack_eq_ok_iff.2 ⟨rfl, unpackEntries_eq_ok_iff.2 ⟨hsafe, hwrites, rfl⟩⟩
  rw [extract_of_archive target hformat, bind_of_ok (makeDirectories_eq_ok_iff.2 hmade),
    bind_of_ok (readArchive_eq_ok_iff.2 ⟨hread, rfl⟩), hlisting, bind_of_ok hfiles, programsOf_run,
    programs_unpacked hsafe]

/-- When programs are returned, all has been unpacked. -/
theorem exists_unpacks {programs : List Path} (hformat : Format.ofPath artifact ≠ .binary)
    (h : extract artifact target t = (.ok programs, t')) :
    ∃ entries, Unpacks artifact target t entries t' := by
  rw [extract_of_archive target hformat] at h
  obtain ⟨_, s, hmade, h⟩ := bind_ok h
  obtain ⟨data, s', hread, h⟩ := bind_ok h
  obtain ⟨files, s'', hunpack, hend⟩ := bind_ok h
  obtain ⟨hread, rfl⟩ := readArchive_eq_ok_iff.1 hread
  obtain ⟨hfault, hfiles⟩ := unpack_eq_ok_iff.1 hunpack
  obtain ⟨hsafe, hwrites, -⟩ := unpackEntries_eq_ok_iff.1 hfiles
  rw [programsOf_run] at hend
  obtain rfl := congrArg Prod.snd hend
  refine ⟨_, makeDirectories_eq_ok_iff.1 hmade, hread, ?_, hsafe, hwrites⟩
  rw [← hfault]

/-- The programs that are returned are those of the entries. -/
theorem exists_unpacks_programs {programs : List Path} (hformat : Format.ofPath artifact ≠ .binary)
    (h : extract artifact target t = (.ok programs, t')) :
    ∃ entries, Unpacks artifact target t entries t' ∧
      programs = (entries.filter (·.IsProgram)).map (·.placeIn target) ∧ programs ≠ [] := by
  obtain ⟨entries, hunpacks⟩ := exists_unpacks hformat h
  have hresult := (hunpacks.run hformat).symm.trans h
  refine ⟨entries, hunpacks, ?_⟩
  by_cases hnil : (entries.filter (·.IsProgram)).map (·.placeIn target) = []
  · rw [if_pos hnil] at hresult
    cases hresult
  · rw [if_neg hnil] at hresult
    cases hresult
    exact ⟨rfl, hnil⟩

/-- Each path of a file entry leads into the directory of the target, to what the last entry of that
path holds. -/
theorem Unpacks.last (h : Unpacks artifact target t entries t')
    (hlinks : ∀ d, OpensAt (t.makeDirectories target).2 target d → NoLinkFrom t d) {e : Entry}
    (he : e ∈ entries) (hkind : e.kind = .file) :
    ∃ last d, IsLastAt target entries (e.placeIn target) last ∧ OpensAt t' target d ∧
      FileAt t' (e.placeIn target) (d ++ namesOf last.path) last.data := by
  obtain @⟨s, -, hmade, -, -, hsafe, hwrites⟩ := h
  have hmakes := makes_of_makeDirectories hmade
  rw [hmade] at hlinks
  have hfree : Safe target s :=
    ⟨makeDirectories_ready hmade, fun d hd => (hlinks d hd).grows hmakes.grows⟩
  obtain ⟨last, hlast⟩ := exists_isLastAt he hkind
  obtain ⟨d, hd, hfile⟩ := hwrites.last hfree hsafe hlast
  exact ⟨last, d, hlast, hd, hfile⟩

/-- A program that is an artifact of its own is copied. -/
theorem extract_binary {programs : List Path} (hformat : Format.ofPath artifact = .binary)
    (h : extract artifact target t = (.ok programs, t')) :
    ∃ name data, programs = [join target name] ∧ t'.read (join target name) = .ok data := by
  unfold extract at h
  rw [hformat] at h
  obtain ⟨_, s, -, h⟩ := bind_ok h
  dsimp only at h
  cases hname : fileName artifact with
  | none =>
      rw [hname] at h
      cases h
  | some name =>
      rw [hname] at h
      obtain ⟨_, s', hcopy, hend⟩ := bind_ok h
      cases hend
      have hisName := isName_of_fileName hname
      have hslash : (join target name).getLast? ≠ some slash := by
        rw [join_name target hisName]
        exact getLast?_concat_ne _ hisName
      obtain ⟨data, hread⟩ := read_copy hslash (change_ok hcopy)
      exact ⟨name, data, rfl, hread⟩

/-- Every program that is returned stands where its path leads. -/
theorem extract_stands {programs : List Path}
    (hlinks : ∀ d, OpensAt (t.makeDirectories target).2 target d → NoLinkFrom t d)
    (h : extract artifact target t = (.ok programs, t')) :
    ∀ p ∈ programs, ∃ data, t'.read p = .ok data := by
  by_cases hformat : Format.ofPath artifact = .binary
  · obtain ⟨name, data, rfl, hread⟩ := extract_binary hformat h
    intro p hp
    rw [List.mem_singleton.1 hp]
    exact ⟨data, hread⟩
  · obtain ⟨entries, hunpacks, rfl, -⟩ := exists_unpacks_programs hformat h
    intro p hp
    obtain ⟨e, he, rfl⟩ := List.mem_map.1 hp
    obtain ⟨hmem, hprogram⟩ := List.mem_filter.1 he
    obtain ⟨last, d, -, -, hfile⟩ := hunpacks.last hlinks hmem (of_decide_eq_true hprogram).file
    obtain ⟨mode, hnode⟩ := hfile.file
    exact ⟨last.data, read_of_locate hfile.locate hnode⟩

/-- Several programs are never hidden files. -/
theorem extract_visible {programs : List Path} (h : extract artifact target t = (.ok programs, t')) :
    (∃ p, programs = [p]) ∨
      ∀ p ∈ programs, ∀ name, fileName p = some name → name.head? ≠ some dot := by
  by_cases hformat : Format.ofPath artifact = .binary
  · obtain ⟨name, -, rfl, -⟩ := extract_binary hformat h
    exact .inl ⟨_, rfl⟩
  · obtain ⟨entries, hunpacks, rfl, -⟩ := exists_unpacks_programs hformat h
    cases hunpacks with
    | intro _ _ _ hsafe _ =>
        refine .inr fun p hp name hname => ?_
        obtain ⟨e, he, rfl⟩ := List.mem_map.1 hp
        obtain ⟨hmem, hprogram⟩ := List.mem_filter.1 he
        rw [fileName_placeIn target (hsafe e hmem)] at hname
        cases hname
        exact (of_decide_eq_true hprogram).visible

/-- Unpacking an archive, if no links are where the target leads, returns programs exactly if all that
the archive holds can be unpacked and there is a program among its entries.  Then it returns the
paths of all the programs, in the order of the entries, and the path of every file leads into the
directory of the target, to a file that holds what the last file entry of that path does.  When all
can be unpacked and there is no program, that is the error. -/
theorem extract_returns (hformat : Format.ofPath artifact ≠ .binary)
    (hlinks : ∀ d, OpensAt (t.makeDirectories target).2 target d → NoLinkFrom t d)
    (programs : List Path) (t' : FileTree) :
    (extract artifact target t = (.ok programs, t') ↔
        ∃ entries, Unpacks artifact target t entries t' ∧
          programs = (entries.filter (·.IsProgram)).map (·.placeIn target) ∧ programs ≠ []) ∧
      ∀ entries, Unpacks artifact target t entries t' →
        ((∀ e ∈ entries, ¬e.IsProgram) →
            extract artifact target t = (.error (.noExecutables artifact), t')) ∧
          ∀ e ∈ entries, e.kind = .file →
            ∃ last d, IsLastAt target entries (e.placeIn target) last ∧ OpensAt t' target d ∧
              FileAt t' (e.placeIn target) (d ++ namesOf last.path) last.data := by
  refine ⟨⟨fun h => ?_, ?_⟩, fun entries hunpacks => ⟨fun hnone => ?_, fun e he hkind =>
    hunpacks.last hlinks he hkind⟩⟩
  · exact exists_unpacks_programs hformat h
  · rintro ⟨entries, hunpacks, rfl, hne⟩
    rw [hunpacks.run hformat, if_neg hne]
  · have hnil : (entries.filter (·.IsProgram)).map (·.placeIn target) = [] := by
      rw [List.map_eq_nil_iff, List.filter_eq_nil_iff]
      simpa using hnone
    rw [hunpacks.run hformat, if_pos hnil]

/-- A tree with an archive in which a program stands twice, beside a document and a link. -/
def doubledTree : FileTree where
  entries := [([utf8 "a.tar"], .file newFileMode
    (Tar.pack [⟨utf8 "bin/foo", utf8 "x", some 0o644, 48, []⟩, ⟨utf8 "README.md", [], some 0o644, 48, []⟩,
      ⟨utf8 "run", [], some 0o777, 50, utf8 "foo"⟩, ⟨utf8 "./bin/foo", utf8 "y", none, 48, []⟩]))]
  workingDirectory := []

theorem extract_returns_doubledTree :
    ∃ entries t', extract (utf8 "/a.tar") (utf8 "/d") doubledTree =
        (.ok [utf8 "/d/bin/foo", utf8 "/d/bin/foo"], t') ∧
      Unpacks (utf8 "/a.tar") (utf8 "/d") doubledTree entries t' ∧
        [utf8 "/d/bin/foo", utf8 "/d/bin/foo"] =
          (entries.filter (·.IsProgram)).map (·.placeIn (utf8 "/d")) := by
  have hresult : (extract (utf8 "/a.tar") (utf8 "/d") doubledTree).1 =
      .ok [utf8 "/d/bin/foo", utf8 "/d/bin/foo"] := by
    decide +kernel
  have hformat : Format.ofPath (utf8 "/a.tar") ≠ .binary := by decide +kernel
  have hlinks : ∀ d, OpensAt (doubledTree.makeDirectories (utf8 "/d")).2 (utf8 "/d") d →
      NoLinkFrom doubledTree d := by
    intro d _ l target _ hlink
    simp only [FileTree.get?, doubledTree, entryAt] at hlink
    split at hlink
    · cases hlink
    · split at hlink <;> cases hlink
  generalize hrun : extract (utf8 "/a.tar") (utf8 "/d") doubledTree = r at hresult
  obtain ⟨result, t'⟩ := r
  cases hresult
  obtain ⟨entries, hunpacks, hprograms, -⟩ := (extract_returns hformat hlinks _ t').1.1 hrun
  exact ⟨entries, t', rfl, hunpacks, hprograms⟩

end Archive

end PluginHost

import Mathlib.Data.List.Forall2
import PluginHost.Proofs.Archive.Containment
import PluginHost.Proofs.Archive.TarPacking
import PluginHost.Proofs.Archive.ZipPacking
import PluginHost.Proofs.Files.Reading

/-!
# The same items in two formats

Items can be packed as a tar archive (`tarOf`) and as a zip archive (`zipOf`).  Unpacking the one
archive or the other makes the same files and directories and returns the same programs, but for
links (`extract_formats`): a tar archive is unpacked without them, and a zip archive is unpacked as if
they were files with their targets in them.

What comes of an archive depends only on what is read of it (`extract_of_read`, `unpackListing`).

`Carried` says what both formats can carry.  What is read of an archive of such items is
`Carried.tar_listing` and `Carried.zip_listing`.  Both are compared with unpacking the items
themselves (`unpackItems`): entries that are alike are unpacked alike (`unpackEntries_alike`), and the
programs are found by what counts of the unpacked files (`programsOf_seen`).
-/

namespace PluginHost.Archive

open FileTree FileAction

/-! ## Items -/

/-- What is packed under a name. -/
inductive Content where
  | file (data : Bytes)
  | directory
  | link (target : Bytes)
  deriving DecidableEq, Repr

/-- A name, what is packed under it, and its permissions. -/
structure Item where
  name : String
  mode : Nat
  content : Content
  deriving DecidableEq, Repr

/-- Links that have no room in a header stand in front of it. -/
def longLink (target : Bytes) : List Tar.Member :=
  if target.length > 100 then [⟨Tar.longNameEntry, target ++ [0], some 0o644, Tar.longLinkType, []⟩]
  else []

/-- The members of a tar archive for an item. -/
def Item.tarMembers (i : Item) : List Tar.Member :=
  match i.content with
  | .file data => [⟨utf8 i.name, data, some i.mode, 48, []⟩]
  | .directory => [⟨utf8 i.name, [], some i.mode, 53, []⟩]
  | .link target => longLink target ++ [⟨utf8 i.name, [], some i.mode, 50, target⟩]

/-- The items as a tar archive. -/
def tarOf (items : List Item) : Bytes := Tar.pack (items.flatMap Item.tarMembers)

/-- The bits of a mode that tell a regular file, a directory and a link. -/
def Content.type : Content → Nat
  | .file _ => 0o100000
  | .directory => 0o040000
  | .link _ => 0o120000

/-- What a zip archive holds for an item: the data of a file, the target of a link. -/
def Content.data : Content → Bytes
  | .file data => data
  | .directory => []
  | .link target => target

/-- The member of a zip archive for an item, made on Unix. -/
def Item.zipMember (deflated : Item → Bool) (i : Item) : Zip.Member where
  name := utf8 i.name
  data := i.content.data
  mode := some (i.content.type + i.mode)
  isDeflated := deflated i

/-- The items as a zip archive. -/
def zipOf (deflated : Item → Bool) (items : List Item) : Bytes :=
  Zip.pack (items.map (Item.zipMember deflated))

/-- Both formats can carry the item.  Its name has no backslash and no zero in it, and a slash at its
end if it is a directory. -/
structure Item.IsCarried (i : Item) : Prop where
  mode : i.mode < 0o10000
  noBackslash : '\\' ∉ i.name.toList
  noZero : '\x00' ∉ i.name.toList
  length : (utf8 i.name).length < 65536
  slash : i.name.toList.getLast? = some '/' ↔ i.content = .directory

/-- Both formats can carry the items: their names are different, and they are not too many and not
too large. -/
structure Carried (deflated : Item → Bool) (items : List Item) : Prop where
  each : ∀ i ∈ items, i.IsCarried
  distinct : (items.map Item.name).Nodup
  count : items.length < 65535
  length : (zipOf deflated items).length < 2 ^ 32 - 1

/-! ## What is read of them -/

/-- What an item makes.  A link makes nothing. -/
def Item.entry (i : Item) : Entry :=
  match i.content with
  | .file data => ⟨utf8 i.name, .file, some i.mode, data⟩
  | .directory => ⟨utf8 i.name, .directory, some i.mode, []⟩
  | .link _ => ⟨utf8 i.name, .other, some i.mode, []⟩

/-- What a zip archive says of it: a link is a file with the target in it. -/
def Item.zipEntry (i : Item) : Entry where
  path := utf8 i.name
  kind := if i.content = .directory then .directory else .file
  mode := some (i.content.type + i.mode)
  data := i.content.data

theorem Item.IsCarried.member {i : Item} (h : i.IsCarried) {type : UInt8} {data link : Bytes}
    (hdata : data.length < 2 ^ 32) :
    (⟨utf8 i.name, data, some i.mode, type, link⟩ : Tar.Member).Fits i.mode := by
  have hmode := h.mode
  exact ⟨rfl, by omega, Nat.lt_trans hdata (by decide)⟩

theorem Item.IsCarried.plain {i : Item} (h : i.IsCarried) {type : UInt8} {data link : Bytes}
    (htype : Tar.isAnnouncing type = false ∧ (type == Tar.sparseType) = false) :
    (⟨utf8 i.name, data, some i.mode, type, link⟩ : Tar.Member).IsPlain := by
  have hlength := h.length
  exact ⟨htype, fun hzero => h.noZero (mem_of_mem_utf8OfChars (by decide) hzero),
    Nat.lt_trans (Nat.succ_lt_succ hlength) (by decide)⟩

/-- An item is read back from the members that it is packed as. -/
theorem yields_tarMembers {i : Item} (h : i.IsCarried) (hsize : i.content.data.length < 2 ^ 32) :
    Tar.Yields (i.tarMembers.flatMap Tar.packMember) [i.entry] := by
  obtain ⟨name, mode, content⟩ := i
  cases content with
  | file data =>
      rw [Item.tarMembers, List.flatMap_singleton]
      exact .packMember (h.member hsize) (h.plain (by decide))
  | directory =>
      rw [Item.tarMembers, List.flatMap_singleton]
      exact .packMember (h.member (by decide)) (h.plain (by decide))
  | link target =>
      simp only [Item.tarMembers, longLink]
      split
      · rw [List.singleton_append, List.flatMap_cons, List.flatMap_singleton]
        exact .longLink (h.member (by decide)) (h.plain (by decide))
          (Nat.lt_trans (Nat.succ_lt_succ hsize) (by decide))
      · rw [List.nil_append, List.flatMap_singleton]
        exact .packMember (h.member (by decide)) (h.plain (by decide))

section Listings

variable {deflated : Item → Bool} {items : List Item}

/-- What is packed in an archive is smaller than it. -/
theorem Carried.length_data (h : Carried deflated items) {i : Item} (hi : i ∈ items) :
    i.content.data.length < 2 ^ 32 := by
  have hlength := h.length
  have hpacked : i.content.data.length ≤ (i.zipMember deflated).packed.length := by
    unfold Zip.Member.packed
    split
    · exact length_le_deflateStored _
    · exact Nat.le_refl _
  obtain ⟨before, behind, rfl⟩ := List.append_of_mem hi
  rw [zipOf, Zip.pack_eq] at hlength
  simp only [List.map_append, List.map_cons, List.flatMap_append, List.flatMap_cons,
    List.length_append, Zip.length_local] at hlength
  omega

/-- A tar archive of the items is read as them. -/
theorem Carried.tar_listing (h : Carried deflated items) :
    Tar.listing ⟨tarOf items, true⟩ = ⟨items.map Item.entry, none⟩ := by
  have hyields : Tar.Yields (items.flatMap fun i => i.tarMembers.flatMap Tar.packMember)
      (items.map Item.entry) :=
    .flatMap fun i hi => yields_tarMembers (h.each i hi) (h.length_data hi)
  rw [← List.flatMap_assoc] at hyields
  exact hyields.listing true

theorem Item.IsCarried.zipFits {i : Item} (h : i.IsCarried) :
    (i.zipMember deflated).Fits := by
  have hmode := h.mode
  have htext : (i.zipMember deflated).text = i.name := lossyText_utf8 i.name
  refine ⟨⟨_, rfl, ?_, ?_⟩, rfl, rfl, ?_, ?_, h.length⟩
  · cases i.content <;> simp only [Content.type] <;> omega
  · cases i.content <;> simp only [Content.type] <;> omega
  · rw [htext]
    rfl
  · rw [htext]
    exact h.noBackslash

theorem Item.IsCarried.zipMember_entry {i : Item} (h : i.IsCarried) :
    (i.zipMember deflated).entry = i.zipEntry := by
  have htext : (i.zipMember deflated).text = i.name := lossyText_utf8 i.name
  rw [Zip.Member.entry, htext, Item.zipEntry]
  simp only [h.slash]
  split
  · rename_i hdirectory
    simp [Item.zipMember, hdirectory, Content.data]
  · rfl

/-- A zip archive of the items is read as them, but links are read as files. -/
theorem Carried.zip_listing (h : Carried deflated items) :
    Zip.listing (zipOf deflated items) = ⟨items.map Item.zipEntry, none⟩ := by
  have htogether : Zip.FitTogether (items.map (Item.zipMember deflated)) := by
    refine ⟨?_, ?_, ?_, Nat.lt_trans h.length (by decide)⟩
    · intro m hm
      obtain ⟨i, hi, rfl⟩ := List.mem_map.1 hm
      exact (h.each i hi).zipFits
    · have htext : (items.map (Item.zipMember deflated)).map Zip.Member.text =
          items.map Item.name := by
        rw [List.map_map]
        exact List.map_congr_left fun i _ => lossyText_utf8 i.name
      rw [htext]
      exact h.distinct
    · rw [List.length_map]
      exact Nat.lt_trans h.count (by decide)
  have hentries : (items.map (Item.zipMember deflated)).map Zip.Member.entry =
      items.map Item.zipEntry := by
    rw [List.map_map]
    refine List.map_congr_left fun i hi => ?_
    rw [Function.comp_apply, (h.each i hi).zipMember_entry]
  rw [zipOf, Zip.listing_pack htogether, hentries]

end Listings

/-! ## Unpacking -/

/-- What counts of an error: not which artifact holds no programs. -/
def ArchiveError.unnamed : ArchiveError → ArchiveError
  | .noExecutables _ => .noExecutables []
  | e => e

/-- What counts of an unpacked file: its path, and whether it can be executed. -/
def UnpackedFile.seen (file : UnpackedFile) : Path × Bool := (file.1, isExecutableMode file.2)

/-- Entries that differ at most in bits of the mode that do not let a file be executed. -/
structure Alike (e e' : Entry) : Prop where
  path : e.path = e'.path
  kind : e.kind = e'.kind
  data : e.data = e'.data
  mode : isExecutableMode e.mode = isExecutableMode e'.mode

theorem unpackEntry_alike (target : Path) {e e' : Entry} (h : Alike e e') :
    Resembles ArchiveError.unnamed (List.map UnpackedFile.seen) (unpackEntry target e)
      (unpackEntry target e') := by
  obtain ⟨path, kind, mode, data⟩ := e
  obtain ⟨path', kind', mode', data'⟩ := e'
  obtain ⟨rfl, rfl, rfl, hmode⟩ := h
  unfold unpackEntry
  refine resembles_bind (f := id) (.refl _) ?_
  rintro p _ rfl
  cases kind with
  | directory => exact .refl _
  | other => exact .refl _
  | file =>
      refine resembles_bind (f := id) (.refl _) fun _ _ _ => ?_
      refine resembles_bind (f := id) (.refl _) fun _ _ _ => resembles_pure ?_
      simpa [UnpackedFile.seen] using hmode

theorem unpackEntries_alike (target : Path) {es es' : List Entry} (h : List.Forall₂ Alike es es') :
    Resembles ArchiveError.unnamed (List.map UnpackedFile.seen) (unpackEntries target es)
      (unpackEntries target es') := by
  induction h with
  | nil => exact .refl _
  | cons he _ ih =>
      refine resembles_bind (unpackEntry_alike target he) fun files files' hfiles => ?_
      refine resembles_bind ih fun more more' hmore => resembles_pure ?_
      rw [List.map_append, List.map_append, hfiles, hmore]

/-- Whether a file is taken for a program is seen from what counts of it. -/
theorem programs_of_seen {files files' : List UnpackedFile}
    (h : files.map UnpackedFile.seen = files'.map UnpackedFile.seen) :
    (files.filter isProgram).map (·.1) = (files'.filter isProgram).map (·.1) := by
  have hprograms : ∀ files : List UnpackedFile, (files.filter isProgram).map (·.1) =
      ((files.map UnpackedFile.seen).filter fun file =>
        isProgram (file.1, if file.2 then some 0o111 else none)).map (·.1) := by
    intro files
    rw [List.filter_map, List.map_map]
    congr 1
    refine List.filter_congr fun file _ => ?_
    have hmode : isExecutableMode (if isExecutableMode file.2 then some 0o111 else none) =
        isExecutableMode file.2 := by
      cases isExecutableMode file.2 <;> decide
    rw [Function.comp_apply, isProgram, isProgram, UnpackedFile.seen, hmode]
  rw [hprograms files, h, ← hprograms files']

/-- The programs among unpacked files, of which there has to be one. -/
def programsOf (artifact : Path) (files : List UnpackedFile) : FileAction ArchiveError (List Path) :=
  match (files.filter isProgram).map (·.1) with
  | [] => throw (.noExecutables artifact)
  | programs => pure programs

theorem programsOf_seen (artifact artifact' : Path) {files files' : List UnpackedFile}
    (h : files.map UnpackedFile.seen = files'.map UnpackedFile.seen) :
    Resembles ArchiveError.unnamed id (programsOf artifact files) (programsOf artifact' files') := by
  unfold programsOf
  rw [programs_of_seen h]
  cases (files'.filter isProgram).map (·.1) with
  | nil => exact resembles_throw rfl
  | cons p more => exact .refl _

/-- Unpacks items: directories and files, and nothing for links. -/
def unpackItems (target : Path) (items : List Item) : FileAction ArchiveError (List Path) := do
  makeDirectories target
  let files ← unpackEntries target (items.map Item.entry)
  programsOf [] files

/-- What counts of the unpacking of an artifact: the programs or the error, and the tree. -/
def outcome (r : Except ArchiveError (List Path) × FileTree) :
    Except ArchiveError (List Path) × FileTree :=
  (r.1.mapError ArchiveError.unnamed, r.2)

theorem outcome_of_resembles {x y : FileAction ArchiveError (List Path)}
    (h : Resembles ArchiveError.unnamed id x y) (t : FileTree) : outcome (x t) = outcome (y t) := by
  obtain ⟨hresult, hstate⟩ := h t
  rw [Except.map_id] at hresult
  exact Prod.ext hresult hstate

theorem ok_of_outcome {r : Except ArchiveError (List Path) × FileTree} {programs : List Path}
    (h : (outcome r).1 = .ok programs) : r.1 = .ok programs := by
  obtain ⟨result, t⟩ := r
  cases result with
  | error e => cases h
  | ok found => exact h

/-- An archive file is read and unpacked after its target has been made. -/
theorem extract_of_archive {artifact : Path} (target : Path)
    (hformat : Format.ofPath artifact ≠ .binary) :
    extract artifact target = (do
      makeDirectories target
      let data ← readArchive (Format.ofPath artifact) artifact
      let files ← unpack target ((Format.ofPath artifact).listing data)
      programsOf artifact files) := by
  have hinto : extractInto artifact target =
      extractArchive (Format.ofPath artifact) artifact target := by
    rw [extractInto]
    cases hof : Format.ofPath artifact <;> first | rfl | contradiction
  rw [extract_eq, hinto]
  rfl

theorem readArchive_eq_ok_iff {format : Format} {artifact : Path} {data : Bytes} {t t' : FileTree} :
    readArchive format artifact t = (.ok data, t') ↔ t.read artifact = .ok data ∧ t' = t :=
  ask_eq_ok_iff

/-- Unpacks what an archive holds into a target that is made first, and returns the programs. -/
def unpackListing (artifact target : Path) (l : Listing) : FileAction ArchiveError (List Path) := do
  makeDirectories target
  let files ← unpack target l
  programsOf artifact files

/-- What an archive holds does not depend on what is made for the target before it is read. -/
theorem extract_of_read {artifact target : Path} {t : FileTree} {format : Format} {data : Bytes}
    (hformat : Format.ofPath artifact = format) (harchive : format ≠ .binary)
    (hread : t.read artifact = .ok data) :
    extract artifact target t = unpackListing artifact target (format.listing data) t := by
  subst hformat
  rw [extract_of_archive target harchive, unpackListing, bind_run, bind_run]
  cases hmake : makeDirectories target t with
  | mk r s =>
      cases r with
      | error e => rfl
      | ok u =>
          have hstate : s = (t.makeDirectories target).2 := by
            rw [makeDirectories, changeAll_eq] at hmake
            exact (congrArg Prod.snd hmake).symm
          have hkept : s.read artifact = .ok data := by
            rw [hstate]
            exact (makeDirectories_makes t target).addsDirectories.read hread
          exact bind_of_ok (readArchive_eq_ok_iff.2 ⟨hkept, rfl⟩)

/-- It does not count in which artifact the archive is. -/
theorem outcome_unpackListing (artifact artifact' target : Path) (l : Listing) (t : FileTree) :
    outcome (unpackListing artifact target l t) = outcome (unpackListing artifact' target l t) :=
  outcome_of_resembles (resembles_bind (f := id) (.refl _) fun _ _ _ =>
    resembles_bind (f := List.map UnpackedFile.seen) (.refl _) fun _ _ hfiles =>
      programsOf_seen artifact artifact' hfiles) t

/-- Without a fault, unpacking an archive is unpacking its entries. -/
theorem unpack_entries (target : Path) (entries : List Entry) :
    unpack target ⟨entries, none⟩ = unpackEntries target entries :=
  bind_pure _

/-- Unpacking an archive succeeds exactly if it is read to its end and its entries are unpacked. -/
theorem unpack_eq_ok_iff {target : Path} {l : Listing} {t t' : FileTree} {files : List UnpackedFile} :
    unpack target l t = (.ok files, t') ↔
      l.fault = none ∧ unpackEntries target l.entries t = (.ok files, t') := by
  obtain ⟨entries, fault⟩ := l
  cases fault with
  | none => simp [unpack_entries]
  | some e =>
      simp only [reduceCtorEq, false_and, iff_false]
      intro h
      obtain ⟨files, s, -, hend⟩ := bind_ok h
      cases hend

/-- An archive with a fault is not unpacked without an error. -/
theorem unpackListing_of_fault {l : Listing} (h : l.fault ≠ none) (artifact target : Path)
    (t : FileTree) : ∃ e, (unpackListing artifact target l t).1 = .error e := by
  cases hrun : unpackListing artifact target l t with
  | mk r t' =>
      cases r with
      | error e => exact ⟨e, rfl⟩
      | ok programs =>
          obtain ⟨-, s, -, hrest⟩ := bind_ok hrun
          obtain ⟨files, s', hfiles, -⟩ := bind_ok hrest
          exact absurd (unpack_eq_ok_iff.1 hfiles).1 h

/-! ## Items in the formats -/

/-- The item is a link. -/
def Item.isLink (i : Item) : Bool :=
  match i.content with
  | .link _ => true
  | _ => false

/-- The item, with a file in the place of a link. -/
def Item.asFile (i : Item) : Item :=
  match i.content with
  | .link target => { i with content := .file target }
  | _ => i

theorem asFile_of_not_link {i : Item} (h : i.isLink = false) : i.asFile = i := by
  obtain ⟨name, mode, content⟩ := i
  cases content with
  | file data => rfl
  | directory => rfl
  | link target => cases h

theorem asFile_of_link {i : Item} (h : i.isLink = true) :
    i.asFile.entry.kind = .file ∧ i.asFile.name = i.name ∧ i.asFile.mode = i.mode := by
  obtain ⟨name, mode, content⟩ := i
  cases content with
  | file data => cases h
  | directory => cases h
  | link target => exact ⟨rfl, rfl, rfl⟩

@[simp] theorem Item.entry_path (i : Item) : i.entry.path = utf8 i.name := by
  obtain ⟨name, mode, content⟩ := i
  cases content <;> rfl

@[simp] theorem Item.entry_mode (i : Item) : i.entry.mode = some i.mode := by
  obtain ⟨name, mode, content⟩ := i
  cases content <;> rfl

/-- The name stays below the directory that the item is unpacked to. -/
def Item.IsSafe (i : Item) : Prop := ∃ p, cleanPath (utf8 i.name) = .ok p

/-- The bits that tell what an item is do not let a file be executed. -/
theorem isExecutableMode_type (content : Content) {mode : Nat} (h : mode < 0o10000) :
    isExecutableMode (some (content.type + mode)) = isExecutableMode (some mode) := by
  have hbits : ∀ k, (2 ^ 12 * k + mode) &&& 0o111 = mode &&& 0o111 := by
    intro k
    refine Nat.eq_of_testBit_eq fun j => ?_
    rw [Nat.testBit_and, Nat.testBit_and, Nat.testBit_two_pow_mul_add _ h]
    split
    · rfl
    · rename_i hj
      have hhigh : (0o111).testBit j = false := by
        refine Nat.testBit_lt_two_pow (Nat.lt_of_lt_of_le (by decide : 0o111 < 2 ^ 12) ?_)
        exact Nat.pow_le_pow_right (by decide) (by omega)
      rw [hhigh, Bool.and_false, Bool.and_false]
  have htype : ∃ k, content.type = 2 ^ 12 * k := by
    cases content with
    | file _ => exact ⟨8, rfl⟩
    | directory => exact ⟨4, rfl⟩
    | link _ => exact ⟨10, rfl⟩
  obtain ⟨k, hk⟩ := htype
  rw [isExecutableMode, isExecutableMode, hk, hbits]

theorem Item.IsCarried.alike {i : Item} (h : i.IsCarried) : Alike i.zipEntry i.asFile.entry := by
  have hmode := isExecutableMode_type i.content h.mode
  obtain ⟨name, mode, content⟩ := i
  cases content <;> exact ⟨rfl, rfl, rfl, hmode⟩

section Formats

variable {deflated : Item → Bool} {items : List Item} {t : FileTree} {artifact : Path} (target : Path)

/-- Unpacking a tar archive unpacks its items. -/
theorem extract_tarOf (h : Carried deflated items) (hformat : Format.ofPath artifact = .tar)
    (hread : t.read artifact = .ok (tarOf items)) :
    outcome (extract artifact target t) = outcome (unpackItems target items t) := by
  have hlisting : Format.tar.listing (tarOf items) = ⟨items.map Item.entry, none⟩ :=
    h.tar_listing
  rw [extract_of_read hformat (by decide) hread, hlisting, unpackListing, unpack_entries]
  exact outcome_of_resembles (resembles_bind (f := id) (.refl _) fun _ _ _ =>
    resembles_bind (f := List.map UnpackedFile.seen) (.refl _) fun _ _ hfiles =>
      programsOf_seen artifact [] hfiles) t

/-- Unpacking a zip archive unpacks its items, with files in the place of links. -/
theorem extract_zipOf (h : Carried deflated items) (hformat : Format.ofPath artifact = .zip)
    (hread : t.read artifact = .ok (zipOf deflated items)) :
    outcome (extract artifact target t) = outcome (unpackItems target (items.map Item.asFile) t) := by
  have hlisting : Format.zip.listing (zipOf deflated items) = ⟨items.map Item.zipEntry, none⟩ :=
    h.zip_listing
  have halike : List.Forall₂ Alike (items.map Item.zipEntry)
      ((items.map Item.asFile).map Item.entry) := by
    rw [List.map_map, List.forall₂_map_left_iff, List.forall₂_map_right_iff, List.forall₂_same]
    exact fun i hi => (h.each i hi).alike
  rw [extract_of_read hformat (by decide) hread, hlisting, unpackListing, unpack_entries]
  exact outcome_of_resembles (resembles_bind (f := id) (.refl _) fun _ _ _ =>
    resembles_bind (unpackEntries_alike target halike) fun _ _ hfiles =>
      programsOf_seen artifact [] hfiles) t

/-- A link under a safe name makes nothing. -/
theorem unpackEntry_link {i : Item} (hlink : i.isLink = true) {p : Path}
    (hp : cleanPath (utf8 i.name) = .ok p) : unpackEntry target i.entry = pure [] := by
  obtain ⟨name, mode, content⟩ := i
  cases content with
  | file data => cases hlink
  | directory => cases hlink
  | link link =>
      unfold unpackEntry Item.entry
      dsimp only at hp ⊢
      rw [hp]
      rfl

/-- Links under safe names might as well be missing. -/
theorem unpackItems_without_links (hsafe : ∀ i ∈ items, i.IsSafe) :
    unpackItems target items = unpackItems target (items.filter fun i => !i.isLink) := by
  have hentries : unpackEntries target (items.map Item.entry) =
      unpackEntries target ((items.filter fun i => !i.isLink).map Item.entry) := by
    induction items with
    | nil => rfl
    | cons i items ih =>
        have hmore := ih fun i' hi' => hsafe i' (by simp [hi'])
        rw [List.map_cons, unpackEntries, hmore]
        cases hlink : i.isLink with
        | false =>
            rw [List.filter_cons_of_pos (by simp [hlink])]
            rfl
        | true =>
            obtain ⟨p, hp⟩ := hsafe i (by simp)
            rw [List.filter_cons_of_neg (by simp [hlink]), unpackEntry_link target hlink hp]
            simp only [pure_bind, List.nil_append, bind_pure]
  rw [unpackItems, unpackItems, hentries]

/-- Every file has been unpacked when unpacking succeeds. -/
theorem mem_of_unpackEntries_ok {entries : List Entry} {t t' : FileTree} {files : List UnpackedFile}
    (h : unpackEntries target entries t = (.ok files, t')) {e : Entry} (he : e ∈ entries)
    (hkind : e.kind = .file) :
    ∃ p, cleanPath e.path = .ok p ∧ (Path.join target p, e.mode) ∈ files := by
  induction entries generalizing t t' files with
  | nil => cases he
  | cons e' rest ih =>
      obtain ⟨first, s, hfirst, hrest⟩ := bind_ok h
      obtain ⟨more, s', hmore, hend⟩ := bind_ok hrest
      cases hend
      rcases List.mem_cons.1 he with rfl | he
      · unfold unpackEntry at hfirst
        rw [mk_bind_run] at hfirst
        cases hclean : cleanPath e.path with
        | error error =>
            rw [hclean] at hfirst
            cases hfirst
        | ok p =>
            rw [hclean] at hfirst
            dsimp only at hfirst
            rw [hkind] at hfirst
            obtain ⟨-, s₁, -, hwrite⟩ := bind_ok hfirst
            obtain ⟨-, s₂, -, hfile⟩ := bind_ok hwrite
            cases hfile
            exact ⟨p, rfl, by simp⟩
      · obtain ⟨p, hclean, hmem⟩ := ih hmore he
        exact ⟨p, hclean, List.mem_append_right first hmem⟩

/-- All programs among the items are returned. -/
theorem mem_of_unpackItems_ok {programs : List Path} {t' : FileTree}
    (h : unpackItems target items t = (.ok programs, t')) {i : Item} (hi : i ∈ items)
    (hkind : i.entry.kind = .file) :
    ∃ p, cleanPath (utf8 i.name) = .ok p ∧
      (isProgram (Path.join target p, some i.mode) = true → Path.join target p ∈ programs) := by
  obtain ⟨-, s, -, hrest⟩ := bind_ok h
  obtain ⟨files, s', hfiles, hend⟩ := bind_ok hrest
  obtain ⟨p, hclean, hmem⟩ :=
    mem_of_unpackEntries_ok target hfiles (List.mem_map_of_mem hi) hkind
  rw [Item.entry_path] at hclean
  rw [Item.entry_mode] at hmem
  refine ⟨p, hclean, fun hprogram => ?_⟩
  have hreturned : Path.join target p ∈ (files.filter isProgram).map (·.1) :=
    List.mem_map.2 ⟨_, List.mem_filter.2 ⟨hmem, hprogram⟩, rfl⟩
  unfold programsOf at hend
  cases hprograms : (files.filter isProgram).map (·.1) with
  | nil =>
      rw [hprograms] at hreturned
      cases hreturned
  | cons first more =>
      rw [hprograms] at hend hreturned
      cases hend
      exact hreturned

end Formats

/-- The two formats differ in links.  Whatever items they carry, a tar archive is unpacked to the
items themselves, and as if there were no links if the names are safe; a zip archive is unpacked as if
files with the targets in them stood in the place of the links.  So the archives of items without
links are unpacked to the same tree and the same programs, or fail in the same way; and whenever a
zip archive is unpacked, its links are among the programs under the same condition as files. -/
theorem extract_formats {deflated : Item → Bool} {items : List Item} (h : Carried deflated items)
    {tar zip : Path} (target : Path) {t : FileTree} (htar : Format.ofPath tar = .tar)
    (hzip : Format.ofPath zip = .zip) (hreadTar : t.read tar = .ok (tarOf items))
    (hreadZip : t.read zip = .ok (zipOf deflated items)) :
    outcome (extract tar target t) = outcome (unpackItems target items t) ∧
      ((∀ i ∈ items, i.IsSafe) → outcome (extract tar target t) =
        outcome (unpackItems target (items.filter fun i => !i.isLink) t)) ∧
      outcome (extract zip target t) = outcome (unpackItems target (items.map Item.asFile) t) ∧
      ((∀ i ∈ items, i.isLink = false) →
        outcome (extract tar target t) = outcome (extract zip target t)) ∧
      ∀ programs, (extract zip target t).1 = .ok programs → ∀ i ∈ items, i.isLink = true →
        ∃ p, cleanPath (utf8 i.name) = .ok p ∧
          (isProgram (Path.join target p, some i.mode) = true → Path.join target p ∈ programs) := by
  have htarItems := extract_tarOf target h htar hreadTar
  have hzipItems := extract_zipOf target h hzip hreadZip
  refine ⟨htarItems, fun hsafe => ?_, hzipItems, fun hlinks => ?_, ?_⟩
  · rw [htarItems, unpackItems_without_links target hsafe]
  · have hfiles : items.map Item.asFile = items := by
      rw [List.map_congr_left (g := id), List.map_id]
      exact fun i hi => asFile_of_not_link (hlinks i hi)
    rw [htarItems, hzipItems, hfiles]
  · intro programs hprograms i hi hlink
    have hok : unpackItems target (items.map Item.asFile) t =
        (.ok programs, (unpackItems target (items.map Item.asFile) t).2) := by
      have hresult : (outcome (unpackItems target (items.map Item.asFile) t)).1 = .ok programs := by
        rw [← hzipItems, outcome, hprograms]
        rfl
      exact Prod.ext (ok_of_outcome hresult) rfl
    have hasFile := asFile_of_link hlink
    have hfile := mem_of_unpackItems_ok target hok (List.mem_map_of_mem hi) hasFile.1
    rw [hasFile.2.1, hasFile.2.2] at hfile
    exact hfile

/-- A program and a link to it. -/
def linkedItems : List Item :=
  [⟨"foo", 0o755, .file (utf8 "x")⟩, ⟨"bar", 0o777, .link (utf8 "foo")⟩]

/-- A tree with both archives of them. -/
def packedTree : FileTree where
  entries := [([utf8 "a.tar"], .file newFileMode (tarOf linkedItems)),
    ([utf8 "a.zip"], .file newFileMode (zipOf (fun _ => false) linkedItems))]
  workingDirectory := []

/-- The link is left out of one archive, and is a program in the other. -/
theorem extract_formats_linkedItems :
    (extract (utf8 "/a.tar") (utf8 "/d") packedTree).1 = .ok [utf8 "/d/foo"] ∧
      (extract (utf8 "/a.zip") (utf8 "/d") packedTree).1 = .ok [utf8 "/d/foo", utf8 "/d/bar"] := by
  have hcarried : Carried (fun _ => false) linkedItems := by
    refine ⟨fun i hi => ?_, by decide, by decide, by decide +kernel⟩
    simp only [linkedItems, List.mem_cons, List.not_mem_nil, or_false] at hi
    rcases hi with rfl | rfl <;>
      exact ⟨by decide, by decide, by decide, by decide, by decide⟩
  have htarFormat : Format.ofPath (utf8 "/a.tar") = .tar := by decide +kernel
  have hzipFormat : Format.ofPath (utf8 "/a.zip") = .zip := by decide +kernel
  have htarRead : packedTree.read (utf8 "/a.tar") = .ok (tarOf linkedItems) := rfl
  have hzipRead : packedTree.read (utf8 "/a.zip") = .ok (zipOf (fun _ => false) linkedItems) := rfl
  obtain ⟨htar, -, hzip, -, -⟩ :=
    extract_formats hcarried (utf8 "/d") htarFormat hzipFormat htarRead hzipRead
  have htarResult : (outcome (unpackItems (utf8 "/d") linkedItems packedTree)).1 =
      .ok [utf8 "/d/foo"] := by
    decide +kernel
  have hzipResult : (outcome (unpackItems (utf8 "/d") (linkedItems.map Item.asFile) packedTree)).1 =
      .ok [utf8 "/d/foo", utf8 "/d/bar"] := by
    decide +kernel
  rw [← htar] at htarResult
  rw [← hzip] at hzipResult
  exact ⟨ok_of_outcome htarResult, ok_of_outcome hzipResult⟩

end PluginHost.Archive

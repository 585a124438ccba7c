import Mathlib.Algebra.Group.Nat.Defs
import PluginHost.Archive.Zip
import PluginHost.Proofs.Archive.Stored
import PluginHost.Proofs.Encoding

/-!
# Zip archives read back

Reading an archive that has been packed gives what its members make (`listing_pack`), as long as
their names are different and the numbers have room in their fields (`FitTogether`).

Every number stands at a fixed place behind the mark of its record, so it is read back by looking at
that place (`Member.Fits.recordOf_record`, `Member.Fits.packed_local`).  The last record is found from
behind (`endPlace?_append`); it tells where the directory is, whose records are read one behind the
other (`recordsOf_recordsFrom`), and each of them leads to the entry that it describes
(`entriesOf_recordsAt`).
-/

namespace PluginHost.Archive.Zip

open Checksum

/-! ## Records -/

/-- The name of a member as a text. -/
def Member.text (m : Member) : String := lossyText m.name

/-- A member that the system of its mode has made, with numbers that fit their fields. -/
structure Member.Fits (m : Member) : Prop where
  mode : ∃ mode, m.mode = some mode ∧ 0 < mode ∧ mode < 65536
  unix : m.isUnix = true
  undamaged : m.isDamaged = false
  isText : utf8 m.text = m.name
  noBackslash : '\\' ∉ m.text.toList
  nameLength : m.name.length < 65536

/-- The record of a member at a place. -/
def Member.recordAt (m : Member) (place : Nat) : Record where
  system := 3
  flags := 2048
  method := if m.isDeflated then 8 else 0
  check := (crc32 m.data).toNat
  packedSize := m.packed.length
  attributes := m.mode.getD 0 * 65536
  place := place
  name := m.text

section Fits

variable {m : Member}

/-- A number that has been written in four bytes is read back. -/
theorem ofLittleEndian_four {n : Nat} (h : n < 2 ^ 32) : ofLittleEndian (littleEndian 4 n) = n :=
  ofLittleEndian_littleEndian 4 n h

theorem ofLittleEndian_two {n : Nat} (h : n < 65536) : ofLittleEndian (littleEndian 2 n) = n :=
  ofLittleEndian_littleEndian 2 n h

/-- The check that a member is written with. -/
theorem Member.Fits.check_eq (h : m.Fits) :
    ofLittleEndian (littleEndian 4 (if m.isDamaged then (crc32 m.data).toNat ^^^ 1
      else (crc32 m.data).toNat)) = (crc32 m.data).toNat := by
  rw [h.undamaged, if_neg Bool.false_ne_true]
  exact ofLittleEndian_four (UInt32.toNat_lt _)

theorem length_common (m : Member) (packed : Bytes) : (m.common packed).length = 26 := by
  simp only [Member.common, List.length_append, littleEndian_length]
  rfl

theorem length_record (m : Member) (place : Nat) :
    (m.record place).length = recordLength + m.name.length := by
  simp only [Member.record, List.length_append, littleEndian_length, length_common,
    List.length_replicate, recordLength]
  rfl

theorem length_local (m : Member) :
    m.local.length = entryLength + m.name.length + m.packed.length := by
  simp only [Member.local, List.length_append, length_common, entryLength]
  rfl

/-- The record of a member, in front of anything else. -/
theorem Member.Fits.recordOf_record (h : m.Fits) {place : Nat} (hplace : place < 2 ^ 32)
    (hsize : m.packed.length < 2 ^ 32) (rest : Bytes) :
    recordOf (m.record place ++ rest) = some (m.recordAt place, (m.record place).length) := by
  have hmark : (m.record place ++ rest).take 4 = recordMark := rfl
  have hname : (m.record place ++ rest).drop recordLength = m.name ++ rest := rfl
  have hsystem : numberAt (m.record place ++ rest) 5 1 =
      ofLittleEndian [if m.isUnix then 3 else 0] := rfl
  have hflags : numberAt (m.record place ++ rest) 8 2 = 2048 := rfl
  have hmethod : numberAt (m.record place ++ rest) 10 2 =
      ofLittleEndian [if m.isDeflated then 8 else 0, 0] := rfl
  have hcheck : numberAt (m.record place ++ rest) 16 4 =
      ofLittleEndian (littleEndian 4 (if m.isDamaged then (crc32 m.data).toNat ^^^ 1
        else (crc32 m.data).toNat)) := rfl
  have hpacked : numberAt (m.record place ++ rest) 20 4 =
      ofLittleEndian (littleEndian 4 m.packed.length) := rfl
  have hlength : numberAt (m.record place ++ rest) 28 2 =
      ofLittleEndian (littleEndian 2 m.name.length) := rfl
  have hextra : numberAt (m.record place ++ rest) 30 2 = 0 := rfl
  have hcomment : numberAt (m.record place ++ rest) 32 2 = 0 := rfl
  have hattributes : numberAt (m.record place ++ rest) 38 4 =
      ofLittleEndian (littleEndian 4 (m.mode.getD 0 * 65536)) := rfl
  have hstart : numberAt (m.record place ++ rest) 42 4 = ofLittleEndian (littleEndian 4 place) := rfl
  obtain ⟨mode, hmode, -, hmodeBound⟩ := h.mode
  rw [h.check_eq] at hcheck
  rw [ofLittleEndian_four hsize] at hpacked
  rw [ofLittleEndian_two h.nameLength] at hlength
  rw [ofLittleEndian_four (by rw [hmode, Option.getD_some]; omega)] at hattributes
  rw [ofLittleEndian_four hplace] at hstart
  rw [h.unix] at hsystem
  have hmethod' : numberAt (m.record place ++ rest) 10 2 = if m.isDeflated then 8 else 0 := by
    rw [hmethod]
    cases m.isDeflated <;> rfl
  have hroom : ¬(m.record place ++ rest).length < recordLength + m.name.length := by
    rw [List.length_append, length_record]
    omega
  have hutf8 : (2048).testBit 11 = true := by decide
  unfold recordOf
  simp only [hmark, hlength, hextra, hcomment, hsystem, hflags, hmethod', hcheck, hpacked,
    hattributes, hstart, hname, hutf8, List.take_left, Nat.add_zero, bne_self_eq_false,
    Bool.false_or, hroom, decide_false, Bool.false_eq_true, if_false, length_record]
  rfl

/-! ## Members -/

/-- What a member makes.  A name with a slash at its end is that of a directory. -/
def Member.entry (m : Member) : Entry :=
  if m.text.toList.getLast? = some '/' then ⟨m.name, .directory, m.mode, []⟩
  else ⟨m.name, .file, m.mode, m.data⟩

/-- The data of a member, where it is packed in an archive. -/
theorem Member.Fits.packed_local (h : m.Fits) (before behind : Bytes) :
    (m.recordAt before.length).packed (before ++ (m.local ++ behind)) = some m.packed := by
  have hheader : (before ++ (m.local ++ behind)).drop before.length = m.local ++ behind :=
    List.drop_left
  have hmark : (m.local ++ behind).take 4 = entryMark := rfl
  have hname : numberAt (m.local ++ behind) 26 2 = m.name.length := by
    have hread : numberAt (m.local ++ behind) 26 2 = ofLittleEndian (littleEndian 2 m.name.length) :=
      rfl
    rw [hread, ofLittleEndian_two h.nameLength]
  have hextra : numberAt (m.local ++ behind) 28 2 = 0 := rfl
  have hdata : (m.local ++ behind).drop entryLength = m.name ++ m.packed ++ behind := rfl
  have hroom : ¬(m.local ++ behind).length < entryLength := by
    rw [List.length_append, length_local]
    omega
  have hskip : (m.local ++ behind).drop (entryLength + m.name.length + 0) = m.packed ++ behind := by
    rw [Nat.add_zero, ← List.drop_drop, hdata, List.append_assoc, List.drop_left]
  unfold Record.packed
  simp only [Member.recordAt, hheader, hmark, hname, hextra, hskip, hroom, bne_self_eq_false,
    decide_false, Bool.or_self, Bool.false_eq_true, if_false, List.take_left]

/-- The data of a member is unpacked as it was. -/
theorem unpacked_packed (m : Member) (place : Nat) :
    (m.recordAt place).unpacked m.packed = (m.data, true) := by
  unfold Record.unpacked Member.packed
  cases hmethod : m.isDeflated with
  | false => simp [Member.recordAt, hmethod]
  | true =>
      have hinflate := inflate_deflateStored m.data []
      rw [List.append_nil] at hinflate
      simp [Member.recordAt, hmethod, hinflate]

theorem Member.Fits.mode_recordAt (h : m.Fits) (place : Nat) :
    (m.recordAt place).mode = m.mode := by
  obtain ⟨mode, hmode, hpos, -⟩ := h.mode
  have hgiven : (mode * 65536 == 0) = false := by
    rw [beq_eq_false_iff_ne]
    omega
  simp [Record.mode, Member.recordAt, hmode, hgiven]

theorem Member.Fits.path_recordAt (h : m.Fits) (place : Nat) :
    (m.recordAt place).path = m.name := by
  have hchars : m.text.toList.map (fun c => if c == '\\' then '/' else c) = m.text.toList := by
    rw [List.map_congr_left (g := id), List.map_id]
    intro c hc
    have hne : c ≠ '\\' := fun heq => h.noBackslash (heq ▸ hc)
    simp [hne]
  rw [Record.path, Member.recordAt, hchars]
  exact h.isText

theorem Member.Fits.isDirectory_recordAt (h : m.Fits) (place : Nat) :
    (m.recordAt place).isDirectory = decide (m.text.toList.getLast? = some '/') := by
  unfold Record.isDirectory Member.recordAt
  dsimp only
  cases hlast : m.text.toList.getLast? with
  | none => rfl
  | some c =>
      have hne : (c == '\\') = false :=
        beq_eq_false_iff_ne.2 fun heq => h.noBackslash (heq ▸ List.mem_of_getLast? hlast)
      simp only [hne, Bool.or_false, Option.some.injEq]
      rfl

/-- The entry of a member, where it is packed in an archive. -/
theorem Member.Fits.entriesOf_cons (h : m.Fits) (before behind : Bytes)
    (records : List Record) :
    entriesOf (before ++ (m.local ++ behind)) (m.recordAt before.length :: records) =
      .cons m.entry (entriesOf (before ++ (m.local ++ behind)) records) := by
  have hflags : (m.recordAt before.length).flags.testBit 0 = false := by
    show (2048).testBit 0 = false
    decide
  have hmethod : ((m.recordAt before.length).method == 0
      || (m.recordAt before.length).method == 8) = true := by
    unfold Member.recordAt
    cases m.isDeflated <;> rfl
  rw [entriesOf, h.packed_local]
  dsimp only
  rw [hflags, hmethod, if_neg (by decide), h.isDirectory_recordAt, h.path_recordAt,
    h.mode_recordAt, unpacked_packed, Member.entry]
  by_cases hdirectory : m.text.toList.getLast? = some '/'
  · rw [if_pos hdirectory, if_pos (by simpa using hdirectory)]
  · rw [if_neg hdirectory, if_neg (by simpa using hdirectory)]
    rfl

end Fits

/-! ## Archives -/

/-- The records of members that stand one behind the other. -/
def recordsAt (place : Nat) : List Member → List Record
  | [] => []
  | m :: rest => m.recordAt place :: recordsAt (place + m.local.length) rest

theorem map_name_recordsAt (place : Nat) (members : List Member) :
    (recordsAt place members).map Record.name = members.map Member.text := by
  induction members generalizing place with
  | nil => rfl
  | cons m members ih => simp only [recordsAt, List.map_cons, ih, Member.recordAt]

/-- Where the records have room in the archive, they are read one behind the other. -/
theorem recordsOf_recordsFrom {members : List Member} (hfits : ∀ m ∈ members, m.Fits) {place : Nat}
    (hroom : place + (members.flatMap Member.local).length < 2 ^ 32) (rest : Bytes) :
    recordsOf members.length (recordsFrom place members ++ rest) =
      some (recordsAt place members) := by
  induction members generalizing place with
  | nil => rfl
  | cons m members ih =>
      rw [List.flatMap_cons, List.length_append] at hroom
      have hlocal := length_local m
      have hrecord := (hfits m (by simp)).recordOf_record (show place < 2 ^ 32 by omega) (by omega)
        (recordsFrom (place + m.local.length) members ++ rest)
      have hmore : recordsOf members.length (recordsFrom (place + m.local.length) members ++ rest) =
          some (recordsAt (place + m.local.length) members) :=
        ih (fun m' hm' => hfits m' (by simp [hm'])) (by omega)
      rw [recordsFrom, List.append_assoc, List.length_cons, recordsOf, hrecord]
      show (do let more ← recordsOf members.length _; pure (m.recordAt place :: more)) = _
      rw [List.drop_left, hmore]
      rfl

/-- The entries are read where they are packed. -/
theorem entriesOf_recordsAt {members : List Member} (hfits : ∀ m ∈ members, m.Fits)
    (before behind : Bytes) :
    entriesOf (before ++ (members.flatMap Member.local ++ behind))
      (recordsAt before.length members) = ⟨members.map Member.entry, none⟩ := by
  induction members generalizing before with
  | nil => rfl
  | cons m members ih =>
      have hmore := ih (fun m' hm' => hfits m' (by simp [hm'])) (before ++ m.local)
      rw [List.length_append, List.append_assoc, ← List.append_assoc m.local] at hmore
      rw [List.flatMap_cons, recordsAt, List.append_assoc,
        (hfits m (by simp)).entriesOf_cons before _ _]
      rw [← List.append_assoc m.local, hmore]
      rfl

/-- A record with another name than those in the directory is put behind them. -/
theorem enter_of_notMem {r : Record} {all : List Record} (h : r.name ∉ all.map Record.name) :
    enter r all = all ++ [r] := by
  induction all with
  | nil => rfl
  | cons s all ih =>
      rw [List.map_cons, List.mem_cons, not_or] at h
      have hname : (s.name == r.name) = false := beq_eq_false_iff_ne.2 fun heq => h.1 heq.symm
      rw [enter, hname, if_neg Bool.false_ne_true, ih h.2]
      rfl

theorem foldl_enter {records all : List Record}
    (h : ((all ++ records).map Record.name).Nodup) :
    records.foldl (fun all r => enter r all) all = all ++ records := by
  induction records generalizing all with
  | nil => rw [List.foldl_nil, List.append_nil]
  | cons r records ih =>
      have hsplit : all ++ r :: records = (all ++ [r]) ++ records := by simp
      have hnew : r.name ∉ all.map Record.name := by
        rw [List.map_append, List.map_cons, List.nodup_append] at h
        exact fun hmem => h.2.2 _ hmem _ (by simp) rfl
      rw [hsplit] at h ⊢
      rw [List.foldl_cons, enter_of_notMem hnew]
      exact ih h

/-- Too few bytes are left for the last record. -/
theorem endPlace?_of_short {bytes : Bytes} (h : bytes.length < endLength) (i : Nat) :
    endPlace? i bytes = none := by
  induction bytes generalizing i with
  | nil => rfl
  | cons b bytes ih =>
      rw [List.length_cons] at h
      have hshort : ¬endLength ≤ bytes.length + 1 := by omega
      rw [endPlace?, ih (by omega)]
      simp [hshort]

/-- The last record is found where it stands, whatever stands before it. -/
theorem endPlace?_append {last : Bytes} (hlast : last.length = endLength)
    (hmark : endMark.isPrefixOf last = true) (before : Bytes) (i : Nat) :
    endPlace? i (before ++ last) = some (i + before.length) := by
  induction before generalizing i with
  | nil =>
      cases last with
      | nil => cases hlast
      | cons b last =>
          rw [List.length_cons] at hlast
          rw [List.nil_append, endPlace?, endPlace?_of_short (by omega)]
          simp [hmark, hlast]
  | cons b before ih =>
      rw [List.cons_append, endPlace?, ih, List.length_cons]
      simp only [Option.some.injEq]
      omega

/-- Members of different names, few and small enough for the numbers in an archive. -/
structure FitTogether (members : List Member) : Prop where
  fits : ∀ m ∈ members, m.Fits
  distinct : (members.map Member.text).Nodup
  count : members.length < 65536
  length : (pack members).length < 2 ^ 32

/-- What stands at the end of an archive. -/
def lastRecord (members : List Member) : Bytes :=
  endMark ++ [0, 0, 0, 0] ++ littleEndian 2 members.length ++ littleEndian 2 members.length
    ++ littleEndian 4 (recordsFrom 0 members).length
    ++ littleEndian 4 (members.flatMap Member.local).length ++ [0, 0]

theorem pack_eq (members : List Member) :
    pack members = members.flatMap Member.local ++ (recordsFrom 0 members ++ lastRecord members) := by
  simp only [pack, lastRecord, List.append_assoc]

/-- The directory is read as it was written. -/
theorem directory?_pack {members : List Member} (h : FitTogether members) :
    directory? (pack members) = some (recordsAt 0 members, 0) := by
  have hbound := h.length
  have hcount : numberAt (lastRecord members) 10 2 =
      ofLittleEndian (littleEndian 2 members.length) := rfl
  have hsize : numberAt (lastRecord members) 12 4 =
      ofLittleEndian (littleEndian 4 (recordsFrom 0 members).length) := rfl
  have hplace : numberAt (lastRecord members) 16 4 =
      ofLittleEndian (littleEndian 4 (members.flatMap Member.local).length) := rfl
  have hlength : (lastRecord members).length = endLength := rfl
  rw [pack_eq, List.length_append, List.length_append] at hbound
  rw [ofLittleEndian_two h.count] at hcount
  rw [ofLittleEndian_four (by omega)] at hsize
  rw [ofLittleEndian_four (by omega)] at hplace
  have hlast : endPlace? 0 (pack members) = some (members.flatMap Member.local
      ++ recordsFrom 0 members).length := by
    rw [pack_eq, ← List.append_assoc, endPlace?_append hlength rfl, Nat.zero_add]
  have hrecord : (pack members).drop (members.flatMap Member.local
      ++ recordsFrom 0 members).length = lastRecord members := by
    rw [pack_eq, ← List.append_assoc, List.drop_left]
  have hrecords : (pack members).drop (members.flatMap Member.local).length =
      recordsFrom 0 members ++ lastRecord members := by
    rw [pack_eq, List.drop_left]
  have hread := recordsOf_recordsFrom h.fits (show 0 + _ < 2 ^ 32 by omega) (lastRecord members)
  have hdistinct : (([] ++ recordsAt 0 members).map Record.name).Nodup := by
    rw [List.nil_append, map_name_recordsAt]
    exact h.distinct
  have hshift : (members.flatMap Member.local ++ recordsFrom 0 members).length
      - (recordsFrom 0 members).length - (members.flatMap Member.local).length = 0 := by
    rw [List.length_append]
    omega
  have henough : ¬(members.flatMap Member.local ++ recordsFrom 0 members).length <
      (recordsFrom 0 members).length + (members.flatMap Member.local).length := by
    rw [List.length_append]
    omega
  unfold directory?
  simp only [hlast, bind, Option.bind, hrecord, hcount, hsize, hplace, henough, if_false, hshift,
    Nat.zero_add, hrecords, hread, pure, foldl_enter hdistinct, List.nil_append]

/-- Reading an archive that has been packed gives its members. -/
theorem listing_pack {members : List Member} (h : FitTogether members) :
    listing (pack members) = ⟨members.map Member.entry, none⟩ := by
  have hentries := entriesOf_recordsAt h.fits [] (recordsFrom 0 members ++ lastRecord members)
  rw [List.nil_append, ← pack_eq] at hentries
  rw [listing, directory?_pack h]
  exact hentries

end PluginHost.Archive.Zip

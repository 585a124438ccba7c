import Mathlib.Algebra.Group.Nat.Defs
import PluginHost.Proofs.Archive.TarReading
import PluginHost.Proofs.Encoding
import PluginHost.Proofs.Text.Trimming

/-!
# Tar archives read back

Reading an archive that has been packed gives what its members make (`Yields.listing`).

* Numbers in base eight are read back from their fields (`number?_octalField`).
* A header is read back field by field.  It is its check between two parts (`Member.Fits.headerOf_eq`),
  so a field has its place in front of the check or behind it, and the check is that of the header
  itself (`Member.Fits.sound`).
* `Member.Fits.entriesFrom_memberBlocks` is one step of reading.  A member yields its entry, also with
  a long name or a long link in front of it, and so do many members one behind the other
  (`Yields.flatMap`).
-/

namespace PluginHost.Archive.Tar

open Text

/-! ## Numbers in fields -/

/-- A digit of base eight. -/
def IsOctal (c : Char) : Prop := '0' ≤ c ∧ c ≤ '7'

instance (c : Char) : Decidable (IsOctal c) := inferInstanceAs (Decidable (_ ∧ _))

theorem IsOctal.toNat {c : Char} (h : IsOctal c) : 48 ≤ c.toNat ∧ c.toNat ≤ 55 := h

/-- The digits of a number with zeros in front. -/
def octalChars (width n : Nat) : List Char :=
  List.replicate (width - (Nat.toDigits 8 n).length) '0' ++ Nat.toDigits 8 n

theorem isOctal_digitChar : ∀ d < 8, IsOctal (Nat.digitChar d) := by decide

theorem isOctal_of_mem_toDigits {n : Nat} {c : Char} (h : c ∈ Nat.toDigits 8 n) : IsOctal c := by
  induction n using Nat.strongRecOn with
  | ind n ih =>
      by_cases hsmall : n < 8
      · rw [Nat.toDigits_of_lt_base hsmall, List.mem_singleton] at h
        rw [h]
        exact isOctal_digitChar n hsmall
      · rw [Nat.toDigits_of_base_le (by decide) (by omega), List.mem_append,
          List.mem_singleton] at h
        rcases h with h | rfl
        · exact ih (n / 8) (by omega) h
        · exact isOctal_digitChar (n % 8) (Nat.mod_lt _ (by decide))

theorem isOctal_of_mem_octalChars {width n : Nat} {c : Char} (h : c ∈ octalChars width n) :
    IsOctal c := by
  rcases List.mem_append.1 h with h | h
  · rw [List.eq_of_mem_replicate h]
    exact ⟨by decide, by decide⟩
  · exact isOctal_of_mem_toDigits h

theorem octalChars_ne_nil (width n : Nat) : octalChars width n ≠ [] :=
  List.append_ne_nil_of_right_ne_nil _ Nat.toDigits_ne_nil

theorem length_octalChars {width n : Nat} (hwidth : 0 < width) (h : n < 8 ^ width) :
    (octalChars width n).length = width := by
  have hdigits := (Nat.length_toDigits_le_iff (by decide : 1 < 8) hwidth).2 h
  rw [octalChars, List.length_append, List.length_replicate]
  omega

theorem ofDigitChars_octalChars (width n : Nat) : Nat.ofDigitChars 8 (octalChars width n) 0 = n := by
  rw [octalChars, Nat.ofDigitChars_append, Nat.ofDigitChars_replicate_zero, Nat.mul_zero,
    Nat.ofDigitChars_toDigits (by decide) (by decide)]

/-- The digits are written as one byte each. -/
theorem utf8OfChars_octal {cs : List Char} (h : ∀ c ∈ cs, IsOctal c) :
    utf8OfChars cs = cs.map fun c => UInt8.ofNat c.toNat := by
  induction cs with
  | nil => rfl
  | cons c cs ih =>
      have hc : c.val.toNat ≤ 55 := (h c (by simp)).toNat.2
      rw [utf8OfChars_cons, ih fun d hd => h d (by simp [hd]), String.utf8EncodeChar, List.map_cons]
      rw [if_pos (by omega)]
      rfl

theorem octalField_eq (width n : Nat) : octalField width n = utf8OfChars (octalChars width n) := by
  rw [utf8OfChars_octal fun c hc => isOctal_of_mem_octalChars hc, octalChars, List.map_append,
    List.map_replicate]
  simp [octalField]

theorem length_octalField {width n : Nat} (hwidth : 0 < width) (h : n < 8 ^ width) :
    (octalField width n).length = width := by
  rw [octalField_eq, utf8OfChars_octal fun c hc => isOctal_of_mem_octalChars hc, List.length_map,
    length_octalChars hwidth h]

theorem octal?_of_octal {cs : List Char} (hne : cs ≠ []) (h : ∀ c ∈ cs, IsOctal c)
    (hbound : Nat.ofDigitChars 8 cs 0 ≤ maxUInt64) : octal? cs = some (Nat.ofDigitChars 8 cs 0) := by
  have hplus : ∀ rest, cs ≠ '+' :: rest := by
    rintro rest rfl
    exact absurd (h '+' (by simp)).1 (by decide)
  have hdigits : cs.any (fun c => !(decide ('0' ≤ c) && decide (c ≤ '7'))) = false := by
    rw [List.any_eq_false]
    intro c hc
    simp [(h c hc).1, (h c hc).2]
  have hempty : cs.isEmpty = false := by simpa using hne
  unfold octal?
  split
  · rename_i rest
    exact absurd rfl (hplus rest)
  · dsimp only
    rw [hempty, hdigits, Bool.or_self, if_neg Bool.false_ne_true, ← Nat.ofDigitChars_eq_foldl,
      if_pos hbound]

theorem isBlank_of_isOctal {c : Char} (h : IsOctal c) : isBlank c = false := by
  have hdigit : isDigit c = true := by
    rw [isDigit, Bool.and_eq_true, decide_eq_true_eq, decide_eq_true_eq]
    exact ⟨h.1, Char.le_trans h.2 (by decide)⟩
  exact isBlank_of_isDigit hdigit

/-- A number that is written in a field, with a zero behind it, is read back. -/
theorem number?_octalField {width n : Nat} (hbound : n ≤ maxUInt64) (behind : Bytes) :
    number? (octalField width n ++ 0 :: behind) = some n := by
  have hoctal : ∀ c ∈ octalChars width n, IsOctal c := fun c hc => isOctal_of_mem_octalChars hc
  have hfield : upToZero (octalField width n ++ 0 :: behind) = octalField width n := by
    rw [upToZero, List.takeWhile_append_of_pos, List.takeWhile_cons_of_neg (by simp),
      List.append_nil]
    intro b hb
    rw [octalField_eq, utf8OfChars_octal hoctal] at hb
    obtain ⟨c, hc, rfl⟩ := List.mem_map.1 hb
    have hbounds := (hoctal c hc).toNat
    simp only [bne_iff_ne, ne_eq, ← UInt8.toNat_inj, UInt8.toNat_ofNat']
    simp
    omega
  have htrim : trimChars (octalChars width n) = octalChars width n := by
    refine TrimsTo.trimChars_eq ⟨⟨[], [], by simp, by simp, by simp⟩, fun c hc => ?_, fun c hc => ?_⟩
    · exact isBlank_of_isOctal (hoctal c (List.mem_of_mem_head? hc))
    · exact isBlank_of_isOctal (hoctal c (List.mem_of_getLast? hc))
  have hvalue := ofDigitChars_octalChars width n
  have hread := octal?_of_octal (octalChars_ne_nil width n) hoctal (hvalue.symm ▸ hbound)
  rw [number?, hfield, octalField_eq, chars?_utf8OfChars]
  show octal? (trimChars (octalChars width n)) = some n
  rw [htrim, hread, hvalue]

/-! ## Headers -/

/-- The sum of bytes. -/
def byteSum (bytes : Bytes) : Nat := (bytes.map UInt8.toNat).foldl (· + ·) 0

theorem byteSum_le (bytes : Bytes) : byteSum bytes ≤ 255 * bytes.length := by
  have hfold : ∀ acc, (bytes.map UInt8.toNat).foldl (· + ·) acc ≤ acc + 255 * bytes.length := by
    induction bytes with
    | nil => simp
    | cons b bytes ih =>
        intro acc
        have hb := b.toNat_lt
        rw [List.map_cons, List.foldl_cons, List.length_cons]
        exact Nat.le_trans (ih _) (by omega)
  have hle := hfold 0
  rwa [Nat.zero_add] at hle

/-- The field of the mode. -/
def modeField (m : Member) : Bytes :=
  match m.mode with
  | some mode => octalField 7 mode ++ [0]
  | none => List.replicate 7 120 ++ [0]

/-- The fields in front of the check: name, mode, owner and group, size and time. -/
def frontOf (m : Member) : Bytes :=
  fieldOfLength 100 m.name ++ modeField m ++ (octalField 7 0 ++ [0]) ++ (octalField 7 0 ++ [0])
    ++ octalField 11 m.data.length ++ [0] ++ octalField 11 0 ++ [0]

/-- The fields behind the check: type, link and mark, and what fills up the block. -/
def backOf (m : Member) : Bytes :=
  let back := m.type :: fieldOfLength 100 m.link ++ oldMark
  back ++ List.replicate (blockSize - checkEnd - back.length) 0

/-- What the check of a header says. -/
def checkOf (m : Member) : Nat := byteSum (frontOf m ++ (List.replicate 8 32 ++ backOf m))

theorem length_fieldOfLength (length : Nat) (bytes : Bytes) :
    (fieldOfLength length bytes).length = length := by
  rw [fieldOfLength, List.length_append, List.length_take, List.length_replicate]
  omega

theorem length_backOf (m : Member) : (backOf m).length = 356 := by
  have hmark : oldMark.length = 8 := by decide
  simp only [backOf, List.length_append, List.length_replicate, List.length_cons,
    length_fieldOfLength, hmark, blockSize, checkEnd]

/-- The sum of a header does not depend on its check. -/
theorem headerSum_parts {front check back : Bytes} (hfront : front.length = 148)
    (hcheck : check.length = 8) :
    headerSum (front ++ (check ++ back)) = byteSum (front ++ (List.replicate 8 32 ++ back)) := by
  have htake : (front ++ (check ++ back)).take checkStart = front := List.take_left' hfront
  have hdrop : (front ++ (check ++ back)).drop checkEnd = back := by
    rw [← List.append_assoc]
    exact List.drop_left' (by rw [List.length_append, hfront, hcheck]; rfl)
  rw [headerSum, htake, hdrop, List.append_assoc]
  rfl

/-- The numbers of a member fit their fields. -/
structure Member.Fits (m : Member) (mode : Nat) : Prop where
  hasMode : m.mode = some mode
  modeBound : mode < 8 ^ 7
  size : m.data.length < 8 ^ 11

section Fits

variable {m : Member} {mode : Nat}

theorem Member.Fits.modeField_eq (h : m.Fits mode) : modeField m = octalField 7 mode ++ [0] := by
  rw [modeField, h.hasMode]

theorem Member.Fits.length_frontOf (h : m.Fits mode) : (frontOf m).length = 148 := by
  simp only [frontOf, h.modeField_eq, List.length_append, length_fieldOfLength,
    List.length_singleton, length_octalField (by decide : 0 < 7) h.modeBound,
    length_octalField (by decide : 0 < 7) (by decide : 0 < 8 ^ 7),
    length_octalField (by decide : 0 < 11) h.size,
    length_octalField (by decide : 0 < 11) (by decide : 0 < 8 ^ 11)]

/-- The check fits its field. -/
theorem Member.Fits.checkOf_lt (h : m.Fits mode) : checkOf m < 8 ^ 6 := by
  have hsum := byteSum_le (frontOf m ++ (List.replicate 8 32 ++ backOf m))
  rw [List.length_append, List.length_append, h.length_frontOf, List.length_replicate,
    length_backOf] at hsum
  exact Nat.lt_of_le_of_lt hsum (by decide)

theorem Member.Fits.length_checkField (h : m.Fits mode) :
    (octalField 6 (checkOf m) ++ [0, 32]).length = 8 := by
  rw [List.length_append, length_octalField (by decide) h.checkOf_lt]
  rfl

/-- A header is its check between what stands in front of it and what stands behind it. -/
theorem Member.Fits.headerOf_eq (h : m.Fits mode) :
    headerOf m = frontOf m ++ ((octalField 6 (checkOf m) ++ [0, 32]) ++ backOf m) := by
  have hsum : headerSum (frontOf m ++ (List.replicate 8 32 ++ backOf m)) = checkOf m :=
    headerSum_parts h.length_frontOf (by rfl)
  have hunfold : headerOf m = frontOf m
      ++ octalField 6 (headerSum (frontOf m ++ List.replicate 8 32
        ++ (m.type :: fieldOfLength 100 m.link ++ oldMark)
        ++ List.replicate (blockSize - checkEnd
          - (m.type :: fieldOfLength 100 m.link ++ oldMark).length) 0)) ++ [0, 32]
      ++ (m.type :: fieldOfLength 100 m.link ++ oldMark)
      ++ List.replicate (blockSize - checkEnd
          - (m.type :: fieldOfLength 100 m.link ++ oldMark).length) 0 := rfl
  rw [hunfold, ← hsum]
  simp only [backOf, List.append_assoc]

theorem Member.Fits.length_headerOf (h : m.Fits mode) : (headerOf m).length = blockSize := by
  rw [h.headerOf_eq, List.length_append, List.length_append, h.length_frontOf,
    h.length_checkField, length_backOf]
  rfl

/-- A header carries its own sum. -/
theorem Member.Fits.sound (h : m.Fits mode) : isSound (headerOf m) = true := by
  have hcheck : slice checkStart 8 (headerOf m) = octalField 6 (checkOf m) ++ [0, 32] := by
    rw [h.headerOf_eq]
    exact take_drop_field h.length_frontOf h.length_checkField _
  have hbound := h.checkOf_lt
  have hnumber : number? (octalField 6 (checkOf m) ++ [0, 32]) = some (checkOf m) :=
    number?_octalField (by simp only [maxUInt64]; omega) [32]
  have hsum : headerSum (headerOf m) = checkOf m := by
    rw [h.headerOf_eq]
    exact headerSum_parts h.length_frontOf h.length_checkField
  rw [isSound, hcheck, hnumber]
  dsimp only
  rw [hsum, Nat.mod_eq_of_lt (Nat.lt_trans hbound (by decide)), beq_self_eq_true]

/-! ## Fields read back -/

/-- What has its place in front of the check. -/
theorem Member.Fits.slice_front (h : m.Fits mode) {start length : Nat}
    (before field behind : Bytes) (hfront : frontOf m = before ++ (field ++ behind))
    (hstart : before.length = start) (hlength : field.length = length) :
    slice start length (headerOf m) = field := by
  rw [h.headerOf_eq, hfront, List.append_assoc, List.append_assoc]
  exact take_drop_field hstart hlength _

/-- What has its place behind the check. -/
theorem Member.Fits.slice_back (h : m.Fits mode) {start length : Nat}
    (before field behind : Bytes) (hback : backOf m = before ++ (field ++ behind))
    (hstart : checkEnd + before.length = start) (hlength : field.length = length) :
    slice start length (headerOf m) = field := by
  have hparts : headerOf m =
      (frontOf m ++ (octalField 6 (checkOf m) ++ [0, 32]) ++ before) ++ (field ++ behind) := by
    rw [h.headerOf_eq, hback]
    simp only [List.append_assoc]
  rw [hparts]
  refine take_drop_field ?_ hlength _
  rw [List.length_append, List.length_append, h.length_frontOf, h.length_checkField, ← hstart]
  rfl

theorem Member.Fits.slice_name (h : m.Fits mode) :
    slice 0 100 (headerOf m) = fieldOfLength 100 m.name := by
  refine h.slice_front [] _ (modeField m ++ (octalField 7 0 ++ [0]) ++ (octalField 7 0 ++ [0])
    ++ octalField 11 m.data.length ++ [0] ++ octalField 11 0 ++ [0]) ?_ rfl
    (length_fieldOfLength 100 m.name)
  simp only [frontOf, List.nil_append, List.append_assoc]

theorem Member.Fits.number_mode (h : m.Fits mode) :
    number? (slice 100 8 (headerOf m)) = some mode := by
  have hslice : slice 100 8 (headerOf m) = octalField 7 mode ++ [0] := by
    refine h.slice_front (fieldOfLength 100 m.name) _ ((octalField 7 0 ++ [0])
      ++ (octalField 7 0 ++ [0]) ++ octalField 11 m.data.length ++ [0] ++ octalField 11 0 ++ [0])
      ?_ (length_fieldOfLength 100 m.name) ?_
    · simp only [frontOf, h.modeField_eq, List.append_assoc]
    · rw [List.length_append, length_octalField (by decide) h.modeBound]
      rfl
  have hbound := h.modeBound
  rw [hslice]
  exact number?_octalField (by simp only [maxUInt64]; omega) []

theorem Member.Fits.size_data (h : m.Fits mode) :
    size? (slice 124 12 (headerOf m)) = some m.data.length := by
  have hslice : slice 124 12 (headerOf m) = octalField 11 m.data.length ++ [0] := by
    refine h.slice_front (fieldOfLength 100 m.name ++ modeField m ++ (octalField 7 0 ++ [0])
      ++ (octalField 7 0 ++ [0])) _ (octalField 11 0 ++ [0]) ?_ ?_ ?_
    · simp only [frontOf, List.append_assoc]
    · simp only [h.modeField_eq, List.length_append, length_fieldOfLength, List.length_singleton,
        length_octalField (by decide : 0 < 7) h.modeBound,
        length_octalField (by decide : 0 < 7) (by decide : 0 < 8 ^ 7)]
    · rw [List.length_append, length_octalField (by decide) h.size]
      rfl
  have hbound := h.size
  have hnumber : number? (octalField 11 m.data.length ++ [0]) = some m.data.length :=
    number?_octalField (by simp only [maxUInt64]; omega) []
  have hoctal : ∀ c ∈ octalChars 11 m.data.length, IsOctal c :=
    fun c hc => isOctal_of_mem_octalChars hc
  rw [hslice]
  -- a size in binary starts with a byte from 128 on, which no digit is
  cases hchars : octalChars 11 m.data.length with
  | nil => exact absurd hchars (octalChars_ne_nil _ _)
  | cons c cs =>
      rw [octalField_eq, utf8OfChars_octal hoctal, hchars, List.map_cons, List.cons_append] at hnumber ⊢
      have hdigit := (hoctal c (by simp [hchars])).toNat
      have hsmall : UInt8.ofNat c.toNat < 128 := by
        rw [UInt8.lt_iff_toNat_lt, UInt8.toNat_ofNat']
        simp
        omega
      rw [size?, if_pos hsmall, hnumber]

theorem Member.Fits.typeOf_eq (h : m.Fits mode) : typeOf (headerOf m) = m.type := by
  have hslice : slice 156 1 (headerOf m) = [m.type] := by
    refine h.slice_back [] [m.type] (fieldOfLength 100 m.link ++ oldMark
      ++ List.replicate (blockSize - checkEnd
        - (m.type :: fieldOfLength 100 m.link ++ oldMark).length) 0) ?_ rfl rfl
    simp only [backOf, List.nil_append, List.cons_append, List.append_assoc]
  rw [slice, List.take_one, List.head?_drop] at hslice
  rw [typeOf, List.getD_eq_getElem?_getD]
  cases hget : (headerOf m)[156]? with
  | none =>
      rw [hget] at hslice
      cases hslice
  | some b =>
      rw [hget] at hslice
      cases hslice
      rfl

theorem Member.Fits.markOf_eq (h : m.Fits mode) : markOf (headerOf m) = oldMark := by
  refine h.slice_back (m.type :: fieldOfLength 100 m.link) oldMark
    (List.replicate (blockSize - checkEnd
      - (m.type :: fieldOfLength 100 m.link ++ oldMark).length) 0) ?_ ?_ (by decide)
  · simp only [backOf, List.append_assoc]
  · rw [List.length_cons, length_fieldOfLength]
    rfl

/-- A name that has room in the header, and no zero in it, is read back. -/
theorem Member.Fits.nameOf_eq (h : m.Fits mode) (hroom : m.name.length ≤ 100) (hzero : 0 ∉ m.name) :
    nameOf (headerOf m) = m.name := by
  have hname : upToZero (fieldOfLength 100 m.name) = m.name := by
    have hpos : ∀ b ∈ m.name, (b != 0) = true := fun b hb =>
      bne_iff_ne.2 fun heq => hzero (heq ▸ hb)
    rw [upToZero, fieldOfLength, List.take_of_length_le hroom, List.takeWhile_append_of_pos hpos]
    cases 100 - m.name.length with
    | zero => exact List.append_nil _
    | succ k => rw [List.replicate_succ, List.takeWhile_cons_of_neg (by simp), List.append_nil]
  have hmark : (oldMark == standardMark) = false := by decide
  rw [nameOf, h.slice_name, hname, h.markOf_eq, hmark]
  rfl

/-! ## Members -/

/-- The header of a member is no end of the archive. -/
theorem Member.Fits.not_zeros (h : m.Fits mode) : (headerOf m).all (· == 0) = false := by
  have hmark := h.markOf_eq
  rw [Bool.eq_false_iff]
  intro hzeros
  have hall : ∀ b ∈ oldMark, b = 0 := by
    intro b hb
    rw [← hmark] at hb
    exact beq_iff_eq.1 (List.all_eq_true.1 hzeros b (List.mem_of_mem_drop (List.mem_of_mem_take hb)))
  exact absurd (hall 117 (by decide)) (by decide)

/-- The type says something of the entry behind it. -/
def isAnnouncing (type : UInt8) : Bool :=
  type == longNameType || type == longLinkType || type == fieldsType

theorem Member.Fits.announces_eq (h : m.Fits mode) :
    announces (headerOf m) = isAnnouncing m.type := by
  rw [announces, isMarked, h.markOf_eq, beq_self_eq_true, Bool.true_or, Bool.true_and, h.typeOf_eq]
  rfl

theorem length_filling (data : Bytes) :
    (data ++ List.replicate (filled data.length - data.length) (0 : UInt8)).length =
      filled data.length := by
  rw [List.length_append, List.length_replicate, Nat.add_sub_cancel' (le_filled _)]

/-- A member is its header in front of its data, which zeros fill up. -/
theorem memberBlocks_append (m : Member) (rest : Bytes) :
    memberBlocks m ++ rest = headerOf m
      ++ (m.data ++ List.replicate (filled m.data.length - m.data.length) 0 ++ rest) := by
  simp only [memberBlocks, List.append_assoc]

theorem Member.Fits.opens (h : m.Fits mode) {said : Announced} (hfields : said.fields = none) :
    Opens said (headerOf m) m.data.length := by
  refine ⟨h.length_headerOf, h.not_zeros, h.sound, ?_, ?_⟩
  · rw [Announced.sizeOf, h.size_data, hfields]
    rfl
  · have hsmall := h.size
    simp only [blockSize, maxUInt64]
    omega

/-- Reading one member. -/
theorem Member.Fits.entriesFrom_memberBlocks (h : m.Fits mode)
    (hsparse : (m.type == sparseType) = false) (fuel : Nat) (intact : Bool) (said : Announced)
    (hfields : said.fields = none) (rest : Bytes) :
    entriesFrom (fuel + 1) intact said (memberBlocks m ++ rest) =
      if isAnnouncing m.type then
        match said.add m.type m.data with
        | some said => entriesFrom fuel intact said rest
        | none => unreadable
      else
        .cons ⟨said.pathOf (headerOf m), kindOf m.type, some mode,
            if kindOf m.type == .file then m.data else []⟩
          (entriesFrom fuel intact {} rest) := by
  have hmodulus : mode % Nat.pow 2 32 = mode :=
    Nat.mod_eq_of_lt (Nat.lt_trans h.modeBound (by decide))
  have hbody : IsBody (headerOf m) m.data.length
      (m.data ++ List.replicate (filled m.data.length - m.data.length) 0) :=
    isBody_of_plain (by rw [h.typeOf_eq, hsparse]) (length_filling m.data)
  cases hadd : said.add m.type m.data <;>
    simp only [memberBlocks_append, (h.opens hfields).entriesFrom hbody, entryOf,
      h.announces_eq, h.typeOf_eq, h.number_mode, List.take_left, Option.map_some, hmodulus, hadd]

/-- As many headers can be read as there are blocks, and a member takes one of them. -/
theorem Member.Fits.exists_fuel (h : m.Fits mode) (rest : Bytes) {fuel : Nat}
    (hfuel : (memberBlocks m ++ rest).length / blockSize < fuel) :
    ∃ left, fuel = left + 1 ∧ rest.length / blockSize < left := by
  have hopens : Opens {} (headerOf m) m.data.length := h.opens rfl
  rw [memberBlocks_append] at hfuel
  exact hopens.exists_fuel rest hfuel

/-- What a member makes. -/
def Member.entry (m : Member) : Entry :=
  ⟨m.name, kindOf m.type, m.mode, if kindOf m.type == .file then m.data else []⟩

/-- A member that stands for itself, with a name that can be written. -/
structure Member.IsPlain (m : Member) : Prop where
  plain : isAnnouncing m.type = false ∧ (m.type == sparseType) = false
  noZero : 0 ∉ m.name
  length : m.name.length + 1 < 8 ^ 11

/-- A name that has no room in a header is read back from the member in front of it. -/
theorem fits_longName {name : Path} (h : name.length + 1 < 8 ^ 11) (type : UInt8) :
    (⟨longNameEntry, name ++ [0], some 0o644, type, []⟩ : Member).Fits 0o644 :=
  ⟨rfl, by decide, by simpa using h⟩

/-- Reading a member with its name, behind what has been said of its link. -/
theorem Member.Fits.entriesFrom_packMember (h : m.Fits mode) (hplain : m.IsPlain)
    {rest : Bytes} {fuel : Nat} (hfuel : (packMember m ++ rest).length / blockSize < fuel)
    (intact : Bool) (link : Option Bytes) :
    ∃ left, rest.length / blockSize < left ∧
      entriesFrom fuel intact { longLink := link } (packMember m ++ rest) =
        .cons m.entry (entriesFrom left intact {} rest) := by
  obtain ⟨⟨hown, hsparse⟩, hzero, hlong⟩ := hplain
  have hentry : ∀ path, path = m.name →
      (⟨path, kindOf m.type, some mode, if kindOf m.type == .file then m.data else []⟩ : Entry) =
        m.entry := by
    rintro path rfl
    rw [Member.entry, h.hasMode]
  unfold packMember at hfuel ⊢
  by_cases hroom : m.name.length > 100
  · have hname := fits_longName hlong longNameType
    rw [if_pos hroom, List.append_assoc] at hfuel ⊢
    obtain ⟨fuel, rfl, hmore⟩ := hname.exists_fuel (memberBlocks m ++ rest) hfuel
    obtain ⟨left, rfl, hleft⟩ := h.exists_fuel rest hmore
    have hsaid : isAnnouncing longNameType = true := by decide
    refine ⟨left, hleft, ?_⟩
    rw [hname.entriesFrom_memberBlocks rfl _ intact { longLink := link } rfl,
      if_pos hsaid]
    have hadd : Announced.add { longLink := link } longNameType (m.name ++ [0]) =
        some { longLink := link, longName := some (m.name ++ [0]) } := rfl
    dsimp only
    rw [hadd]
    dsimp only
    rw [h.entriesFrom_memberBlocks hsparse left intact
        { longLink := link, longName := some (m.name ++ [0]) } rfl, if_neg (by simp [hown]), hentry]
    simp [Announced.pathOf]
  · rw [if_neg hroom] at hfuel ⊢
    obtain ⟨left, rfl, hleft⟩ := h.exists_fuel rest hfuel
    refine ⟨left, hleft, ?_⟩
    rw [h.entriesFrom_memberBlocks hsparse left intact { longLink := link } rfl,
      if_neg (by simp [hown]), hentry]
    simp only [Announced.pathOf, Option.bind_none, Option.getD_none]
    exact h.nameOf_eq (by omega) hzero

end Fits

/-! ## Archives -/

namespace Yields

/-- A member. -/
theorem packMember {m : Member} {mode : Nat} (h : m.Fits mode) (hplain : m.IsPlain) :
    Yields (packMember m) [m.entry] := by
  intro fuel intact rest hfuel
  obtain ⟨left, hleft, hread⟩ := h.entriesFrom_packMember hplain hfuel intact none
  exact ⟨left, hleft, hread⟩

/-- A member with a long link, which is said in front of it. -/
theorem longLink {m : Member} {mode : Nat} (h : m.Fits mode) (hplain : m.IsPlain) {link : Bytes}
    (hlink : link.length + 1 < 8 ^ 11) :
    Yields (Tar.packMember ⟨longNameEntry, link ++ [0], some 0o644, longLinkType, []⟩
      ++ Tar.packMember m) [m.entry] := by
  intro fuel intact rest hfuel
  have hsaid := fits_longName hlink longLinkType
  have hroom : ¬longNameEntry.length > 100 := by decide
  have hpack : Tar.packMember ⟨longNameEntry, link ++ [0], some 0o644, longLinkType, []⟩ =
      memberBlocks ⟨longNameEntry, link ++ [0], some 0o644, longLinkType, []⟩ := by
    rw [Tar.packMember, if_neg hroom]
  rw [hpack, List.append_assoc] at hfuel ⊢
  obtain ⟨fuel, rfl, hmore⟩ := hsaid.exists_fuel (Tar.packMember m ++ rest) hfuel
  obtain ⟨left, hleft, hread⟩ := h.entriesFrom_packMember hplain hmore intact (some (link ++ [0]))
  refine ⟨left, hleft, ?_⟩
  have hannounces : isAnnouncing longLinkType = true := by decide
  rw [hsaid.entriesFrom_memberBlocks rfl fuel intact {} rfl, if_pos hannounces]
  exact hread

/-- What ends the archive is no entry. -/
theorem listing {bytes : Bytes} {entries : List Entry} (h : Yields bytes entries) (intact : Bool) :
    listing ⟨bytes ++ List.replicate (2 * blockSize) 0, intact⟩ = ⟨entries, none⟩ := by
  have hend : IsEnd (List.replicate (2 * blockSize) 0) :=
    ⟨List.replicate blockSize 0, List.replicate_append_replicate⟩
  rw [h.listing_append, listing_of_isEnd hend, List.append_nil]

end Yields

end PluginHost.Archive.Tar

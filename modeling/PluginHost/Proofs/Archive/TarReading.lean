import PluginHost.Archive.Tar

/-!
# Tar archives read on

What is read of an archive does not depend on how many headers may be read at most, if they may be as
many as there are blocks (`entriesFrom_fuel`).

`Yields` says of bytes that they are read as some entries, whatever stands behind them: then reading
goes on behind them (`Yields.listing_append`).  An intact archive that is read without a fault starts
with such bytes, and behind them it is at its end or there is a block of zeros
(`exists_whole_of_listing`).  A header in front of what belongs to it is one step of that
(`Opens.entriesFrom`): the data and, for a file with holes, the rest of its map (`IsBody`).
-/

namespace PluginHost.Archive.Tar

open Text

theorem le_filled (size : Nat) : size ≤ filled size := by
  simp only [filled, blockSize]
  omega

/-! ## Ends -/

/-- The bytes start with a block of zeros. -/
def IsEnd (bytes : Bytes) : Prop := List.replicate blockSize 0 <+: bytes

theorem isEnd_iff {bytes : Bytes} :
    IsEnd bytes ↔
      (bytes.take blockSize).length = blockSize ∧ (bytes.take blockSize).all (· == 0) = true := by
  constructor
  · rintro ⟨more, rfl⟩
    rw [List.take_left' (List.length_replicate)]
    exact ⟨List.length_replicate, List.all_eq_true.2 fun b hb =>
      beq_iff_eq.2 (List.eq_of_mem_replicate hb)⟩
  · rintro ⟨hlength, hzeros⟩
    have hblock : bytes.take blockSize = List.replicate blockSize 0 :=
      List.eq_replicate_iff.2 ⟨hlength, fun b hb => beq_iff_eq.1 (List.all_eq_true.1 hzeros b hb)⟩
    rw [IsEnd, ← hblock]
    exact List.take_prefix _ _

theorem IsEnd.append {bytes : Bytes} (h : IsEnd bytes) (more : Bytes) : IsEnd (bytes ++ more) :=
  h.trans (List.prefix_append _ _)

/-- A block of zeros ends the archive. -/
theorem entriesFrom_of_isEnd {bytes : Bytes} (h : IsEnd bytes) (fuel : Nat) (intact : Bool) :
    entriesFrom (fuel + 1) intact {} bytes = ⟨[], none⟩ := by
  obtain ⟨hlength, hzeros⟩ := isEnd_iff.1 h
  rw [entriesFrom]
  dsimp only
  rw [if_pos (by simp [hlength, hzeros])]
  rfl

/-! ## Maps -/

section Blocks

variable {size : Nat} {m m' : Mapped} {block : Bytes}

theorem Mapped.addBlocks_last (hblock : block.length = blockSize)
    (hadded : m.addAll size 0 moreMapParts block = some m')
    (hlast : ¬(block.getD (mapPart * moreMapParts) 0 == 1) = true) (rest : Bytes) :
    m.addBlocks size (block ++ rest) = some (m', blockSize) := by
  rw [Mapped.addBlocks]
  simp only [List.take_left' hblock, hblock, Nat.lt_irrefl, if_false, hadded, if_neg hlast]

theorem Mapped.addBlocks_longer (hblock : block.length = blockSize)
    (hadded : m.addAll size 0 moreMapParts block = some m')
    (hlonger : (block.getD (mapPart * moreMapParts) 0 == 1) = true) (rest : Bytes) :
    m.addBlocks size (block ++ rest) =
      (m'.addBlocks size rest).map (Prod.map id (blockSize + ·)) := by
  rw [Mapped.addBlocks]
  simp only [List.take_left' hblock, List.drop_left' hblock, hblock, Nat.lt_irrefl, if_false, hadded,
    if_pos hlonger]

end Blocks

/-- The blocks of a map are read as such, whatever stands behind them. -/
theorem Mapped.addBlocks_append {size : Nat} {m m' : Mapped} {bytes : Bytes} {length : Nat}
    (h : m.addBlocks size bytes = some (m', length)) :
    ∃ blocks rest, bytes = blocks ++ rest ∧ blocks.length = length ∧
      ∀ more, m.addBlocks size (blocks ++ more) = some (m', length) := by
  fun_induction Mapped.addBlocks size m bytes generalizing m' length with
  | case1 => cases h
  | case2 => cases h
  | case3 m bytes block hlong m₁ hadded hlonger =>
      rename_i ih
      have hblock : block.length = blockSize :=
        Nat.le_antisymm (List.length_take_le _ _) (Nat.le_of_not_lt hlong)
      obtain ⟨⟨m₂, behind⟩, hbehind, hsame⟩ := Option.map_eq_some_iff.1 h
      obtain ⟨rfl, rfl⟩ := Prod.mk.inj hsame
      obtain ⟨blocks, rest, hrest, rfl, hmore⟩ := ih hbehind
      refine ⟨block ++ blocks, rest, ?_, ?_, fun more => ?_⟩
      · rw [List.append_assoc, ← hrest, List.take_append_drop]
      · rw [List.length_append, hblock]
      · rw [List.append_assoc, Mapped.addBlocks_longer hblock hadded hlonger, hmore]
        rfl
  | case4 m bytes block hlong m₁ hadded =>
      rename_i hlast
      have hblock : block.length = blockSize :=
        Nat.le_antisymm (List.length_take_le _ _) (Nat.le_of_not_lt hlong)
      obtain ⟨rfl, rfl⟩ := Prod.mk.inj (Option.some.inj h)
      exact ⟨block, bytes.drop blockSize, (List.take_append_drop _ _).symm, hblock,
        Mapped.addBlocks_last hblock hadded hlast⟩

theorem mapOf_append {header bytes : Bytes} {size length : Nat} {m : Mapped}
    (h : mapOf header size bytes = some (m, length)) :
    ∃ blocks rest, bytes = blocks ++ rest ∧ blocks.length = length ∧
      ∀ more, mapOf header size (blocks ++ more) = some (m, length) := by
  unfold mapOf at h ⊢
  obtain ⟨first, hadded, h⟩ := Option.bind_eq_some_iff.1 h
  simp only [hadded, Option.bind_some]
  cases hlonger : header.getD (mapStart + mapPart * mapParts) 0 == 1 with
  | true =>
      rw [hlonger] at h
      exact Mapped.addBlocks_append h
  | false =>
      rw [hlonger] at h
      obtain ⟨rfl, rfl⟩ := Prod.mk.inj (Option.some.inj h)
      exact ⟨[], bytes, rfl, rfl, fun _ => rfl⟩

/-- What stands between a header and its data is read as such, whatever stands behind it. -/
theorem mapLength?_append {header bytes : Bytes} {size length : Nat}
    (h : mapLength? header size bytes = some length) :
    ∃ blocks rest, bytes = blocks ++ rest ∧ blocks.length = length ∧
      ∀ more, mapLength? header size (blocks ++ more) = some length := by
  unfold mapLength? at h ⊢
  cases htype : typeOf header != sparseType with
  | true =>
      rw [htype] at h
      cases h
      exact ⟨[], bytes, rfl, rfl, fun _ => rfl⟩
  | false =>
      rw [htype, if_neg Bool.false_ne_true] at h
      obtain ⟨⟨m, length'⟩, hmap, h⟩ := Option.bind_eq_some_iff.1 h
      obtain ⟨hwhole, hsame⟩ := Option.ite_none_right_eq_some.1 h
      cases hsame
      obtain ⟨blocks, rest, hbytes, hlength, hmore⟩ := mapOf_append hmap
      refine ⟨blocks, rest, hbytes, hlength, fun more => ?_⟩
      simp [hmore, hwhole]

/-! ## Headers -/

/-- The header announces data of this size, behind what has been said in front of it. -/
structure Opens (said : Announced) (header : Bytes) (size : Nat) : Prop where
  length : header.length = blockSize
  nonzero : header.all (· == 0) = false
  sound : isSound header = true
  sized : said.sizeOf header = some size
  bound : size + (blockSize - 1) ≤ maxUInt64

/-- The bytes belong to a header that announces data of a size: they are the rest of its map and the
data, filled up. -/
def IsBody (header : Bytes) (size : Nat) (body : Bytes) : Prop :=
  ∃ mapped, body.length = mapped + filled size ∧
    ∀ more, mapLength? header size (body ++ more) = some mapped

/-- Without holes there is no map. -/
theorem isBody_of_plain {header body : Bytes} {size : Nat}
    (hplain : (typeOf header == sparseType) = false) (hlength : body.length = filled size) :
    IsBody header size body := by
  refine ⟨0, by rw [hlength, Nat.zero_add], fun more => ?_⟩
  rw [mapLength?, bne, hplain]
  rfl

/-- What is long enough starts with what belongs to the header. -/
theorem isBody_take {header bytes : Bytes} {size mapped : Nat}
    (hmapped : mapLength? header size bytes = some mapped)
    (hwhole : mapped + filled size ≤ bytes.length) :
    IsBody header size (bytes.take (mapped + filled size)) := by
  obtain ⟨blocks, rest, rfl, rfl, hmore⟩ := mapLength?_append hmapped
  refine ⟨blocks.length, by rw [List.length_take, Nat.min_eq_left hwhole], fun more => ?_⟩
  rw [List.take_length_add_append, List.append_assoc]
  exact hmore _

/-- The entry that a header and its data make, behind what has been said in front of it. -/
def entryOf (said : Announced) (header data : Bytes) : Entry :=
  ⟨said.pathOf header, kindOf (typeOf header),
    (number? (slice 100 8 header)).map (· % Nat.pow 2 32),
    if kindOf (typeOf header) == .file then data else []⟩

/-- Reading one header with what belongs to it. -/
theorem Opens.entriesFrom {said : Announced} {header body : Bytes} {size : Nat}
    (h : Opens said header size) (hbody : IsBody header size body) (fuel : Nat) (intact : Bool)
    (more : Bytes) :
    entriesFrom (fuel + 1) intact said (header ++ (body ++ more)) =
      if announces header then
        match said.add (typeOf header) (body.take size) with
        | some said => entriesFrom fuel intact said more
        | none => unreadable
      else .cons (entryOf said header (body.take size)) (entriesFrom fuel intact {} more) := by
  obtain ⟨mapped, hlength, hmap⟩ := hbody
  have htake : (header ++ (body ++ more)).take blockSize = header := List.take_left' h.length
  have hdrop : (header ++ (body ++ more)).drop blockSize = body ++ more := List.drop_left' h.length
  have hdata : (body ++ more).take size = body.take size :=
    List.take_append_of_le_length
      (hlength ▸ Nat.le_trans (le_filled size) (Nat.le_add_left _ _))
  have hbehind : (body ++ more).drop (mapped + filled size) = more := List.drop_left' hlength
  have hwhole : mapped + filled size ≤ (body ++ more).length := by
    rw [List.length_append, hlength]
    exact Nat.le_add_right _ _
  have hempty : (header ++ (body ++ more)).isEmpty = false := by
    rw [List.isEmpty_eq_false_iff]
    intro hnil
    have hlength := h.length
    rw [(List.append_eq_nil_iff.1 hnil).1] at hlength
    cases hlength
  have hbound := Nat.not_lt.2 h.bound
  rw [Tar.entriesFrom]
  cases hadd : said.add (typeOf header) (body.take size) <;>
    simp only [htake, hdrop, hempty, h.length, h.nonzero, h.sound, h.sized, hbound, hmap, hdata,
      hbehind, hwhole, hadd, entryOf, Bool.false_and, Bool.and_false, Bool.or_self, Bool.not_true,
      Nat.lt_irrefl, decide_false, Bool.false_eq_true, if_false, if_true]

theorem eq_empty_of_isEmpty {said : Announced} (h : said.isEmpty = true) : said = {} := by
  obtain ⟨longName, longLink, fields⟩ := said
  cases longName <;> cases longLink <;> cases fields <;> first | rfl | cases h

theorem unreadable_ne (entries : List Entry) : unreadable ≠ ⟨entries, none⟩ := nofun

/-- Where an intact archive is read on without a fault, it ends or a header stands in front of all
that belongs to it. -/
theorem ends_or_opens {fuel : Nat} {said : Announced} {bytes : Bytes} {entries : List Entry}
    (h : entriesFrom (fuel + 1) true said bytes = ⟨entries, none⟩) :
    (said = {} ∧ entries = [] ∧ (bytes = [] ∨ IsEnd bytes)) ∨
      ∃ header body more size, bytes = header ++ (body ++ more) ∧ Opens said header size ∧
        IsBody header size body := by
  rw [entriesFrom] at h
  dsimp only at h
  split at h
  · rename_i hend
    split at h
    · rename_i hsaid
      cases h
      refine .inl ⟨eq_empty_of_isEmpty hsaid, rfl, ?_⟩
      simpa [isEnd_iff] using hend
    · exact absurd h (unreadable_ne _)
  · rename_i hend
    split at h
    · exact absurd h (unreadable_ne _)
    · rename_i hheader
      split at h
      · exact absurd h (unreadable_ne _)
      · rename_i size hsize
        split at h
        · exact absurd h (unreadable_ne _)
        · rename_i hbound
          split at h
          · exact absurd h (unreadable_ne _)
          · rename_i mapped hmapped
            have hwhole : mapped + filled size ≤ (bytes.drop blockSize).length := by
              refine Nat.le_of_not_lt fun hcut => ?_
              simp only [Nat.not_le.2 hcut, if_false] at h
              split at h
              · split at h <;> exact absurd h (unreadable_ne _)
              · exact absurd (congrArg Listing.fault h) nofun
            simp only [Bool.or_eq_true, decide_eq_true_eq, Bool.not_eq_true', not_or, Nat.not_lt,
              Bool.not_eq_false] at hheader
            have hlength : (bytes.take blockSize).length = blockSize :=
              Nat.le_antisymm (List.length_take_le _ _) hheader.1
            refine .inr ⟨bytes.take blockSize, (bytes.drop blockSize).take (mapped + filled size),
              (bytes.drop blockSize).drop (mapped + filled size), size, ?_,
              ⟨hlength, ?_, hheader.2, hsize, Nat.not_lt.1 hbound⟩, isBody_take hmapped hwhole⟩
            · rw [List.take_append_drop, List.take_append_drop]
            · rw [Bool.eq_false_iff]
              intro hzeros
              exact hend (by simp [hlength, hzeros])

/-! ## Whole entries -/

/-- In front of anything else, the bytes are read as the entries, behind what has been said in front
of them. -/
def YieldsBehind (said : Announced) (bytes : Bytes) (entries : List Entry) : Prop :=
  ∀ fuel intact rest, (bytes ++ rest).length / blockSize < fuel →
    ∃ left, rest.length / blockSize < left ∧
      entriesFrom fuel intact said (bytes ++ rest) =
        ⟨entries ++ (entriesFrom left intact {} rest).entries,
          (entriesFrom left intact {} rest).fault⟩

/-- As many headers can be read as there are blocks, and a header with its data takes one of them. -/
theorem Opens.exists_fuel {said : Announced} {header body : Bytes} {size : Nat}
    (h : Opens said header size) (more : Bytes) {fuel : Nat}
    (hfuel : (header ++ (body ++ more)).length / blockSize < fuel) :
    ∃ left, fuel = left + 1 ∧ more.length / blockSize < left := by
  rw [List.length_append, List.length_append, h.length] at hfuel
  simp only [blockSize] at hfuel ⊢
  exact ⟨fuel - 1, by omega, by omega⟩

section Steps

variable {said said' : Announced} {header body whole : Bytes} {size : Nat} {entries : List Entry}

theorem Opens.yields_announcing (h : Opens said header size) (hbody : IsBody header size body)
    (hannounces : announces header = true)
    (hadd : said.add (typeOf header) (body.take size) = some said')
    (hwhole : YieldsBehind said' whole entries) :
    YieldsBehind said (header ++ (body ++ whole)) entries := by
  intro fuel intact rest hfuel
  rw [List.append_assoc, List.append_assoc] at hfuel ⊢
  obtain ⟨fuel, rfl, hmore⟩ := h.exists_fuel _ hfuel
  rw [h.entriesFrom hbody, if_pos hannounces, hadd]
  exact hwhole fuel intact rest hmore

theorem Opens.yields_entry (h : Opens said header size) (hbody : IsBody header size body)
    (hannounces : announces header = false) (hwhole : YieldsBehind {} whole entries) :
    YieldsBehind said (header ++ (body ++ whole))
      (entryOf said header (body.take size) :: entries) := by
  intro fuel intact rest hfuel
  rw [List.append_assoc, List.append_assoc] at hfuel ⊢
  obtain ⟨fuel, rfl, hmore⟩ := h.exists_fuel _ hfuel
  obtain ⟨left, hleft, hread⟩ := hwhole fuel intact rest hmore
  refine ⟨left, hleft, ?_⟩
  rw [h.entriesFrom hbody, hannounces, hread]
  rfl

end Steps

/-- What is read without a fault are whole entries, up to an end. -/
theorem exists_whole {fuel : Nat} {said : Announced} {bytes : Bytes} {entries : List Entry}
    (h : entriesFrom fuel true said bytes = ⟨entries, none⟩) :
    ∃ whole behind, bytes = whole ++ behind ∧ YieldsBehind said whole entries ∧
      (behind = [] ∨ IsEnd behind) := by
  induction fuel generalizing said bytes entries with
  | zero => exact absurd h (unreadable_ne _)
  | succ fuel ih =>
      rcases ends_or_opens h with ⟨rfl, rfl, hend⟩ | ⟨header, body, more, size, rfl, hopens, hbody⟩
      · exact ⟨[], bytes, rfl, fun fuel _ _ hfuel => ⟨fuel, hfuel, rfl⟩, hend⟩
      · rw [hopens.entriesFrom hbody] at h
        cases hannounces : announces header with
        | true =>
            rw [hannounces, if_pos rfl] at h
            cases hadd : said.add (typeOf header) (body.take size) with
            | none =>
                rw [hadd] at h
                exact absurd h (unreadable_ne _)
            | some said' =>
                rw [hadd] at h
                obtain ⟨whole, behind, rfl, hwhole, hend⟩ := ih h
                exact ⟨header ++ (body ++ whole), behind, by simp,
                  hopens.yields_announcing hbody hannounces hadd hwhole, hend⟩
        | false =>
            rw [hannounces] at h
            obtain ⟨hentries, hfault⟩ := Listing.mk.inj h
            have hmore : entriesFrom fuel true {} more =
                ⟨(entriesFrom fuel true {} more).entries, none⟩ := by
              rw [← hfault]
            obtain ⟨whole, behind, rfl, hwhole, hend⟩ := ih hmore
            rw [← hentries]
            exact ⟨header ++ (body ++ whole), behind, by simp,
              hopens.yields_entry hbody hannounces hwhole, hend⟩

/-! ## How many headers may be read -/

theorem entriesFrom_fuel {fuel fuel' : Nat} {bytes : Bytes} (h : bytes.length / blockSize < fuel)
    (h' : bytes.length / blockSize < fuel') (intact : Bool) (said : Announced) :
    entriesFrom fuel intact said bytes = entriesFrom fuel' intact said bytes := by
  induction fuel generalizing fuel' said bytes with
  | zero => exact absurd h (Nat.not_lt_zero _)
  | succ fuel ih =>
      obtain ⟨fuel', rfl⟩ := Nat.exists_eq_succ_of_ne_zero (Nat.ne_zero_of_lt h')
      by_cases hshort : (bytes.take blockSize).length < blockSize
      · simp only [entriesFrom, hshort, decide_true, Bool.true_or, if_true]
      · have hrest : ∀ size said,
            entriesFrom fuel intact said ((bytes.drop blockSize).drop size) =
              entriesFrom fuel' intact said ((bytes.drop blockSize).drop size) := by
          intro size said
          rw [List.length_take] at hshort
          have hlength : ((bytes.drop blockSize).drop size).length / blockSize <
              bytes.length / blockSize := by
            rw [List.length_drop, List.length_drop]
            simp only [blockSize] at hshort ⊢
            omega
          exact ih (by omega) (by omega) said
        simp only [entriesFrom, hrest]

/-! ## Archives -/

/-- In front of anything else, the bytes are read as the entries. -/
def Yields (bytes : Bytes) (entries : List Entry) : Prop := YieldsBehind {} bytes entries

namespace Yields

theorem nil : Yields [] [] := fun fuel _ _ hfuel => ⟨fuel, hfuel, rfl⟩

theorem append {a b : Bytes} {es fs : List Entry} (ha : Yields a es) (hb : Yields b fs) :
    Yields (a ++ b) (es ++ fs) := by
  intro fuel intact rest hfuel
  rw [List.append_assoc] at hfuel ⊢
  obtain ⟨middle, hmiddle, hfirst⟩ := ha fuel intact (b ++ rest) hfuel
  obtain ⟨left, hleft, hsecond⟩ := hb middle intact rest hmiddle
  refine ⟨left, hleft, ?_⟩
  rw [hfirst, hsecond, List.append_assoc]

theorem flatMap {α : Type} {bytes : α → Bytes} {entry : α → Entry} {as : List α}
    (h : ∀ a ∈ as, Yields (bytes a) [entry a]) : Yields (as.flatMap bytes) (as.map entry) := by
  induction as with
  | nil => exact nil
  | cons a as ih =>
      rw [List.flatMap_cons, List.map_cons, ← List.singleton_append]
      exact (h a (by simp)).append (ih fun b hb => h b (by simp [hb]))

/-- Behind whole entries, an archive is read on as if it started there. -/
theorem listing_append {bytes : Bytes} {entries : List Entry} (h : Yields bytes entries)
    (intact : Bool) (rest : Bytes) :
    listing ⟨bytes ++ rest, intact⟩ =
      ⟨entries ++ (listing ⟨rest, intact⟩).entries, (listing ⟨rest, intact⟩).fault⟩ := by
  obtain ⟨left, hleft, hread⟩ := h _ intact rest (Nat.lt_succ_self _)
  have hfuel : entriesFrom left intact {} rest = listing ⟨rest, intact⟩ :=
    entriesFrom_fuel hleft (Nat.lt_succ_self _) intact {}
  rw [hfuel] at hread
  exact hread

end Yields

theorem listing_of_isEnd {bytes : Bytes} (h : IsEnd bytes) (intact : Bool) :
    listing ⟨bytes, intact⟩ = ⟨[], none⟩ :=
  entriesFrom_of_isEnd h _ intact

/-- An intact archive that is read without a fault is whole entries, up to an end. -/
theorem exists_whole_of_listing {bytes : Bytes} {entries : List Entry}
    (h : listing ⟨bytes, true⟩ = ⟨entries, none⟩) :
    ∃ whole behind, bytes = whole ++ behind ∧ Yields whole entries ∧ (behind = [] ∨ IsEnd behind) :=
  exists_whole h

end PluginHost.Archive.Tar

import PluginHost.Proofs.Archive.Formats

/-!
# Compressed archives in several members

A gzip file is one member or several ones, one behind the other, and what they stand for belongs
together (`Gzip.Holds`).  Only the first member is read (`Gzip.Holds.source`).  So what comes of a
compressed archive depends on where its first member ends (`extract_compressed`): within an entry or
its header, unpacking fails; behind the end mark of the archive, nothing is missing; between two
entries, all that stands in the other members is left out without an error (`Tar.Breaks`).
-/

namespace PluginHost.Archive

open FileTree

/-! ## Members -/

namespace Gzip

/-- The bytes are members one behind the other, which stand for the parts. -/
inductive Holds : Bytes → List Bytes → Prop where
  | nil : Holds [] []
  | member {input body data next : Bytes} {parts : List Bytes} (hbody : body? input = some body)
      (hinflate : inflate body = ⟨data, .complete, trailer data ++ next⟩)
      (hnext : Holds next parts) : Holds input (data :: parts)

theorem length_trailer (data : Bytes) : (trailer data).length = 8 := by
  rw [trailer, List.length_append, littleEndian_length, littleEndian_length]

/-- The first member is read, and it is intact. -/
theorem Holds.source {input first : Bytes} {more : List Bytes} (h : Holds input (first :: more)) :
    source input = ⟨first, true⟩ := by
  cases h with
  | member hbody hinflate _ =>
      rw [Gzip.source, hbody]
      dsimp only
      rw [hinflate]
      dsimp only
      rw [List.take_left' (length_trailer first)]
      simp

theorem body?_pack (data next : Bytes) :
    body? (pack data ++ next) = some (deflateStored data ++ (trailer data ++ next)) := by
  simp only [pack, mark, List.append_assoc, List.cons_append, List.nil_append]
  rfl

/-- Whatever the parts are, their members can be written one behind the other. -/
theorem holds_flatMap_pack (parts : List Bytes) : Holds (parts.flatMap pack) parts := by
  induction parts with
  | nil => exact .nil
  | cons data parts ih =>
      rw [List.flatMap_cons]
      exact .member (body?_pack data _) (inflate_deflateStored data _) ih

end Gzip

/-! ## Where an archive is cut -/

namespace Tar

/-- The first part of an archive ends between two entries, and in the rest there is something to be
read. -/
structure Breaks (first rest : Bytes) (entries : List Entry) : Prop where
  whole : Yields first entries
  more : listing ⟨rest, true⟩ ≠ ⟨[], none⟩

variable {first rest : Bytes} {entries : List Entry}

theorem Breaks.listing_first (h : Breaks first rest entries) : listing ⟨first, true⟩ = ⟨entries, none⟩ := by
  have hlisting := h.whole.listing_append true []
  have hnil : listing ⟨[], true⟩ = ⟨[], none⟩ := rfl
  rwa [List.append_nil, hnil, List.append_nil] at hlisting

theorem Breaks.listing_all (h : Breaks first rest entries) :
    listing ⟨first ++ rest, true⟩ =
      ⟨entries ++ (listing ⟨rest, true⟩).entries, (listing ⟨rest, true⟩).fault⟩ :=
  h.whole.listing_append true rest

/-- Where an archive breaks off, something is missing. -/
theorem Breaks.ne (h : Breaks first rest entries) :
    listing ⟨first, true⟩ ≠ listing ⟨first ++ rest, true⟩ := by
  rw [h.listing_first, h.listing_all]
  intro heq
  obtain ⟨hentries, hfault⟩ := Listing.mk.inj heq
  apply h.more
  rw [List.self_eq_append_right] at hentries
  rw [← hentries, hfault]

/-- When the first part is read without a fault, all of the archive has been read, or it breaks off
there. -/
theorem listing_eq_or_breaks (hfault : (listing ⟨first, true⟩).fault = none) (rest : Bytes) :
    listing ⟨first, true⟩ = listing ⟨first ++ rest, true⟩ ∨ ∃ entries, Breaks first rest entries := by
  have hlisting : listing ⟨first, true⟩ = ⟨(listing ⟨first, true⟩).entries, none⟩ := by
    rw [← hfault]
  generalize (listing ⟨first, true⟩).entries = entries at hlisting
  obtain ⟨whole, behind, rfl, hwhole, rfl | hend⟩ := exists_whole_of_listing hlisting
  · rw [List.append_nil] at hlisting ⊢
    by_cases hmore : listing ⟨rest, true⟩ = ⟨[], none⟩
    · left
      rw [hlisting, hwhole.listing_append, hmore, List.append_nil]
    · exact .inr ⟨entries, hwhole, hmore⟩
  · left
    rw [List.append_assoc, hwhole.listing_append, hwhole.listing_append, listing_of_isEnd hend,
      listing_of_isEnd (hend.append rest)]

end Tar

/-! ## Unpacking -/

/-- A compressed archive against the same archive uncompressed.  Of one member, or of one with others
behind it that stand for nothing, the same comes.  So it does of more members if the first one is
read without a fault, and it is an error if that one has a fault.  The exception is a first member
that breaks off between two entries: then only the entries up to there are unpacked, without an
error, and those of the other members are left out. -/
theorem extract_compressed {plain packed : Path} (target : Path) {t : FileTree} {input first : Bytes}
    {more : List Bytes} (hplain : Format.ofPath plain = .tar) (hpacked : Format.ofPath packed = .tarGz)
    (hreadPlain : t.read plain = .ok (first ++ more.flatten)) (hreadPacked : t.read packed = .ok input)
    (hholds : Gzip.Holds input (first :: more)) :
    (more.flatten = [] →
        outcome (extract packed target t) = outcome (extract plain target t)) ∧
      ((Tar.listing ⟨first, true⟩).fault = none →
        (¬∃ entries, Tar.Breaks first more.flatten entries) →
          outcome (extract packed target t) = outcome (extract plain target t)) ∧
      ((Tar.listing ⟨first, true⟩).fault ≠ none →
        ∃ e, (extract packed target t).1 = .error e) ∧
      ∀ entries, Tar.Breaks first more.flatten entries →
        Tar.listing ⟨first, true⟩ ≠ Tar.listing ⟨first ++ more.flatten, true⟩ ∧
          extract packed target t = unpackListing packed target ⟨entries, none⟩ t ∧
          extract plain target t = unpackListing plain target
            ⟨entries ++ (Tar.listing ⟨more.flatten, true⟩).entries,
              (Tar.listing ⟨more.flatten, true⟩).fault⟩ t := by
  have hgz : Format.tarGz.listing input = Tar.listing ⟨first, true⟩ := by
    rw [Format.listing, hholds.source]
  have htar : Format.tar.listing (first ++ more.flatten) =
      Tar.listing ⟨first ++ more.flatten, true⟩ := rfl
  rw [extract_of_read hpacked (by decide) hreadPacked, extract_of_read hplain (by decide) hreadPlain,
    hgz, htar]
  refine ⟨fun hnil => ?_, fun hfault hwhole => ?_, fun hfault => ?_, fun entries hbreaks => ?_⟩
  · rw [hnil, List.append_nil]
    exact outcome_unpackListing packed plain target _ t
  · rcases Tar.listing_eq_or_breaks hfault more.flatten with hsame | hbreaks
    · rw [← hsame]
      exact outcome_unpackListing packed plain target _ t
    · exact absurd hbreaks hwhole
  · exact unpackListing_of_fault hfault packed target t
  · refine ⟨hbreaks.ne, ?_, ?_⟩
    · rw [hbreaks.listing_first]
    · rw [hbreaks.listing_all]

/-- Two programs, each in a part of an archive. -/
def fooMember : Tar.Member := ⟨utf8 "foo", utf8 "x", some 0o755, 48, []⟩
@[inherit_doc fooMember] def barMember : Tar.Member := ⟨utf8 "bar", utf8 "y", some 0o755, 48, []⟩

/-- The parts of that archive. -/
def partsOfTwo : List Bytes := [Tar.packMember fooMember, Tar.pack [barMember]]

/-- A tree with the archive, uncompressed and compressed part by part. -/
def twoPartsTree : FileTree where
  entries := [([utf8 "a.tar"], .file newFileMode partsOfTwo.flatten),
    ([utf8 "a.tar.gz"], .file newFileMode (partsOfTwo.flatMap Gzip.pack))]
  workingDirectory := []

/-- One of the programs is left out. -/
theorem extract_compressed_twoPartsTree :
    (extract (utf8 "/a.tar.gz") (utf8 "/d") twoPartsTree).1 = .ok [utf8 "/d/foo"] ∧
      (extract (utf8 "/a.tar") (utf8 "/d") twoPartsTree).1 = .ok [utf8 "/d/foo", utf8 "/d/bar"] := by
  have hplain : Format.ofPath (utf8 "/a.tar") = .tar := by decide +kernel
  have hpacked : Format.ofPath (utf8 "/a.tar.gz") = .tarGz := by decide +kernel
  have hreadPlain : twoPartsTree.read (utf8 "/a.tar") = .ok partsOfTwo.flatten := rfl
  have hreadPacked : twoPartsTree.read (utf8 "/a.tar.gz") = .ok (partsOfTwo.flatMap Gzip.pack) := rfl
  have hfits : fooMember.Fits 0o755 := ⟨rfl, by decide, by decide⟩
  have hplainMember : fooMember.IsPlain := ⟨by decide, by decide, by decide⟩
  have hrest : Tar.listing ⟨[Tar.pack [barMember]].flatten, true⟩ =
      ⟨[⟨utf8 "bar", .file, some 0o755, utf8 "y"⟩], none⟩ := by
    decide +kernel
  have hbreaks : Tar.Breaks (Tar.packMember fooMember) [Tar.pack [barMember]].flatten
      [fooMember.entry] := by
    refine ⟨.packMember hfits hplainMember, ?_⟩
    rw [hrest]
    nofun
  obtain ⟨-, -, -, hcut⟩ := extract_compressed (utf8 "/d") hplain hpacked hreadPlain hreadPacked
    (Gzip.holds_flatMap_pack partsOfTwo)
  obtain ⟨-, hfirst, hall⟩ := hcut _ hbreaks
  rw [hfirst, hall, hrest]
  decide +kernel

end PluginHost.Archive

import PluginHost.Archive.Extract
import PluginHost.Proofs.Actions
import PluginHost.Proofs.Archive.Cleaning
import PluginHost.Proofs.Files.Changing

/-!
# Unpacking stays in its directory

Whatever an archive holds, unpacking it changes nothing outside the directory it is unpacked to
(`extract_contained`).  The exception are directories that are made for the directory itself and for
those above it.

`Within` is what holds between the trees before and after, and `Safe` is what has to hold of a tree
on the way: the target leads to its directory, and no links are there.  Safe trees stay safe as they
grow (`Safe.grows`), and in a safe tree a path of names behind the target leads below its directory
(`Safe.located`).  From that follow the steps, `makes_within` for directories and `puts_within` for
files.  Whatever relation these steps go along (`Carries`), unpacking one entry goes along it too
(`unpackEntry_moves`), and then unpacking all of them (`extractInto_moves`).
-/

namespace PluginHost.Archive

open FileTree PluginHost.Path FileAction

/-! ## What may change -/

/-- Between the trees, something was changed only below the directory that the target leads to, or is
a new directory where the target, or a path above it, leads. -/
structure Within (target : Path) (t t' : FileTree) : Prop where
  grows : Grows t t'
  changed : ∀ l, t'.get? l ≠ t.get? l →
    (∃ d, OpensAt t' target d ∧ d <+: l ∧ d ≠ l) ∨
      (t.get? l = none ∧ t'.get? l = some .directory ∧
        ∃ a, IsAbove target a ∧ t'.locate true (withoutSlashes a) = .ok l)

namespace Within

theorem refl (target : Path) (t : FileTree) : Within target t t :=
  ⟨.refl t, fun _ h => absurd rfl h⟩

theorem trans {target : Path} {t₁ t₂ t₃ : FileTree} (h₁ : Within target t₁ t₂)
    (h₂ : Within target t₂ t₃) : Within target t₁ t₃ := by
  refine ⟨h₁.grows.trans h₂.grows, fun l hl => ?_⟩
  by_cases hsame : t₂.get? l = t₁.get? l
  · rw [← hsame] at hl ⊢
    exact h₂.changed l hl
  · rcases h₁.changed l hsame with ⟨d, hd, hbelow⟩ | ⟨hnone, hdirectory, a, ha, hlocate⟩
    · exact .inl ⟨d, hd.grows h₂.grows, hbelow⟩
    · exact .inr ⟨hnone, h₂.grows.directory l hdirectory, a, ha,
        locate_grows h₂.grows hdirectory hlocate⟩

theorem of_makes {target : Path} {t t' : FileTree} (h : Makes target t t') : Within target t t' :=
  ⟨h.grows, fun l hl => .inr (h.made l hl)⟩

end Within

/-! ## Safe trees -/

/-- Directories have been made for the target, and no links are in the one that it leads to. -/
structure Safe (target : Path) (t : FileTree) : Prop where
  ready : Ready t target
  noLinks : ∀ d, OpensAt t target d → NoLinkFrom t d

theorem Safe.grows {target : Path} {t t' : FileTree} (h : Safe target t) (hgrows : Grows t t') :
    Safe target t' := by
  refine ⟨h.ready.grows hgrows, fun d hd => ?_⟩
  have hbefore : OpensAt t target d := OpensAt.of_grows h.ready hgrows hd
  exact (h.noLinks d hbefore).grows hgrows

/-- A path of names behind the target leads to the location that they spell below its directory. -/
theorem Safe.located {target : Path} {t : FileTree} (h : Safe target t) {names : List Bytes}
    (hne : names ≠ []) (hnames : AreNames names) {follow : Bool} {l : Location}
    (hl : t.locate follow (front target ++ ofNames names) = .ok l) :
    ∃ d, OpensAt t target d ∧ l = d ++ names := by
  obtain ⟨d, hd⟩ := h.ready.opens hl
  exact ⟨d, hd, locate_front_ofNames hd (h.noLinks d hd) hne hnames hl⟩

theorem prefix_ne_append {d names : Location} (hne : names ≠ []) :
    d <+: d ++ names ∧ d ≠ d ++ names :=
  ⟨List.prefix_append d names, fun h => hne (List.self_eq_append_right.1 h)⟩

section Steps

variable {target : Path} {t t' : FileTree} {names : List Bytes}

theorem makes_within (h : Safe target t) (hne : names ≠ []) (hnames : AreNames names)
    (hmakes : Makes (front target ++ ofNames names) t t') : Within target t t' := by
  refine ⟨hmakes.grows, fun l hl => ?_⟩
  obtain ⟨hnone, hdirectory, a, ha, hlocate⟩ := hmakes.made l hl
  rcases isAbove_front_ofNames hne hnames ha with ⟨init, rest, hinit, hsplit, rfl⟩ | habove
  · have hinitNames : AreNames init := fun part hpart => hnames part (by simp [hsplit, hpart])
    rw [withoutSlashes_front_ofNames target hinit hinitNames] at hlocate
    obtain ⟨d, hd, rfl⟩ := (h.grows hmakes.grows).located hinit hinitNames hlocate
    exact .inl ⟨d, hd, prefix_ne_append hinit⟩
  · exact .inr ⟨hnone, hdirectory, a, habove, hlocate⟩

theorem puts_within (h : Safe target t) (hne : names ≠ []) (hnames : AreNames names)
    (hputs : Puts (front target ++ ofNames names) t t') : Within target t t' := by
  refine ⟨hputs.grows, fun l hl => ?_⟩
  obtain ⟨d, hd, rfl⟩ := h.located hne hnames (hputs.located hl)
  exact .inl ⟨d, hd.grows hputs.grows, prefix_ne_append hne⟩

end Steps

/-! ## Entries -/

/-- From a safe tree, only what may change is changed. -/
def Stays (target : Path) (t t' : FileTree) : Prop := Safe target t → Within target t t'

instance (target : Path) : Std.Refl (Stays target) := ⟨fun t _ => .refl target t⟩

instance (target : Path) : Trans (Stays target) (Stays target) (Stays target) where
  trans h₁ h₂ hsafe := (h₁ hsafe).trans (h₂ (hsafe.grows (h₁ hsafe).grows))

/-- Along the relation go the making of directories and the putting of files that unpacking into the
target does: both are for a path of names behind the target. -/
structure Carries (target : Path) (R : FileTree → FileTree → Prop) : Prop where
  makes : ∀ {names : List Bytes} {p : Path} (t : FileTree), names ≠ [] → AreNames names →
    IsAbove (front target ++ ofNames names) p → R t (t.makeDirectories p).2
  puts : ∀ {names : List Bytes} {t t' : FileTree}, names ≠ [] → AreNames names →
    Puts (front target ++ ofNames names) t t' → R t t'

theorem stays_carries (target : Path) : Carries target (Stays target) where
  makes t hne hnames hp hsafe :=
    makes_within hsafe hne hnames ((makeDirectories_makes t _).above fun _ ha => hp.trans ha)
  puts hne hnames hputs hsafe := puts_within hsafe hne hnames hputs

section Carries

variable {target : Path} {R : FileTree → FileTree → Prop} [Std.Refl R] [Trans R R R]

/-- Whatever an entry is, unpacking it is making directories and putting files behind the target. -/
theorem unpackEntry_moves (hR : Carries target R) (e : Entry) :
    Moves R (unpackEntry target e) := by
  intro t
  unfold unpackEntry
  rw [mk_bind_run]
  cases hclean : cleanPath e.path with
  | error error => exact Std.Refl.refl t
  | ok p =>
      obtain ⟨names, hne, hnames, rfl⟩ := cleanPath_ok hclean
      have hjoin := join_ofNames target hnames
      have hmake : ∀ p, IsAbove (front target ++ ofNames names) p → Moves R (makeDirectories p) :=
        fun p hp => moves_changeAll fun t => hR.makes t hne hnames hp
      dsimp only
      rw [hjoin]
      cases e.kind with
      | directory => exact moves_bind (hmake _ .self) (fun _ => moves_pure _) t
      | file =>
          refine moves_bind ?_ (fun _ => moves_bind ?_ fun _ => moves_pure _) t
          · unfold makeParent
            split
            · rename_i above habove
              exact hmake above (.parent .self habove)
            · exact moves_pure _
          · refine moves_change fun s s' hwrite => ?_
            have hputs := writeWithMode_puts hwrite
            rw [withoutSlashes_front_ofNames target hne hnames] at hputs
            exact hR.puts hne hnames hputs
      | other => exact Std.Refl.refl t

theorem unpackEntries_moves (hR : Carries target R) (entries : List Entry) :
    Moves R (unpackEntries target entries) := by
  induction entries with
  | nil => exact moves_pure _
  | cons e rest ih =>
      refine moves_bind (unpackEntry_moves hR e) fun files => ?_
      exact moves_bind ih fun more => moves_pure _

theorem unpack_moves (hR : Carries target R) (l : Listing) : Moves R (unpack target l) := by
  refine moves_bind (unpackEntries_moves hR l.entries) fun files => ?_
  cases l.fault with
  | none => exact moves_pure _
  | some e => exact moves_throw e

theorem copy_moves (hR : Carries target R) {artifact : Path} {names : List Bytes} (hne : names ≠ [])
    (hnames : AreNames names) :
    Moves R (change ArchiveError.io fun t => t.copy artifact (front target ++ ofNames names)) := by
  refine moves_change fun t t' hcopy => ?_
  obtain ⟨s, hwrite, hmode⟩ := copy_puts hcopy
  rw [withoutSlashes_front_ofNames target hne hnames] at hwrite
  have hwritten : R t s := hR.puts hne hnames hwrite
  rcases hmode with rfl | hmode
  · exact hwritten
  · exact Trans.trans hwritten (hR.puts hne hnames hmode)

end Carries

/-! ## Results -/

/-- The path is that of names put behind the target. -/
def IsPlacedIn (target p : Path) : Prop :=
  ∃ names, names ≠ [] ∧ AreNames names ∧ p = Path.join target (ofNames names)

theorem unpackEntry_ok {e : Entry} {t t' : FileTree} {files : List UnpackedFile}
    (h : unpackEntry target e t = (.ok files, t')) : ∀ f ∈ files, IsPlacedIn target f.1 := by
  unfold unpackEntry at h
  rw [mk_bind_run] at h
  cases hclean : cleanPath e.path with
  | error error =>
      rw [hclean] at h
      cases h
  | ok p =>
      obtain ⟨names, hne, hnames, rfl⟩ := cleanPath_ok hclean
      rw [hclean] at h
      dsimp only at h
      cases hkind : e.kind with
      | directory =>
          rw [hkind] at h
          obtain ⟨-, s, -, hrest⟩ := bind_ok h
          cases hrest
          simp
      | file =>
          rw [hkind] at h
          obtain ⟨-, s, -, hrest⟩ := bind_ok h
          obtain ⟨-, s', -, hrest⟩ := bind_ok hrest
          cases hrest
          intro f hf
          rw [List.mem_singleton.1 hf]
          exact ⟨names, hne, hnames, rfl⟩
      | other =>
          rw [hkind] at h
          cases h
          simp

theorem unpackEntries_ok {entries : List Entry} {t t' : FileTree} {files : List UnpackedFile}
    (h : unpackEntries target entries t = (.ok files, t')) :
    ∀ f ∈ files, IsPlacedIn target f.1 := by
  induction entries generalizing t t' files with
  | nil =>
      cases h
      simp
  | cons e rest ih =>
      obtain ⟨first, s, hfirst, hrest⟩ := bind_ok h
      obtain ⟨more, s', hmore, hend⟩ := bind_ok hrest
      cases hend
      intro f hf
      rcases List.mem_append.1 hf with hf | hf
      · exact unpackEntry_ok hfirst f hf
      · exact ih hmore f hf

theorem unpack_ok {l : Listing} {t t' : FileTree} {files : List UnpackedFile}
    (h : unpack target l t = (.ok files, t')) : ∀ f ∈ files, IsPlacedIn target f.1 := by
  obtain ⟨first, s, hfirst, hend⟩ := bind_ok h
  cases hfault : l.fault with
  | some e =>
      rw [hfault] at hend
      cases hend
  | none =>
      rw [hfault] at hend
      cases hend
      exact unpackEntries_ok hfirst

/-! ## Artifacts -/

/-- Unpacks an archive file into the target. -/
def extractArchive (format : Format) (artifact target : Path) :
    FileAction ArchiveError (List Path) := do
  let data ← readArchive format artifact
  let files ← unpack target (format.listing data)
  match (files.filter isProgram).map (·.1) with
  | [] => throw (.noExecutables artifact)
  | programs => pure programs

/-- Takes the artifact itself for a program. -/
def extractProgram (artifact target : Path) : FileAction ArchiveError (List Path) :=
  match Path.fileName artifact with
  | none => throw (.unsafePath artifact)
  | some name => do
      let place := Path.join target name
      change .io fun t => t.copy artifact place
      pure [place]

/-- What follows the making of the target. -/
def extractInto (artifact target : Path) : FileAction ArchiveError (List Path) :=
  match Format.ofPath artifact with
  | .binary => extractProgram artifact target
  | format => extractArchive format artifact target

theorem extract_eq (artifact target : Path) :
    extract artifact target = (do
      makeDirectories target
      extractInto artifact target) := by
  unfold extract extractInto extractProgram extractArchive
  cases Format.ofPath artifact <;> rfl

section Carries

variable {target : Path} {R : FileTree → FileTree → Prop} [Std.Refl R] [Trans R R R]

theorem extractArchive_moves (hR : Carries target R) (format : Format) (artifact : Path) :
    Moves R (extractArchive format artifact target) := by
  refine moves_bind (moves_ask _ _) fun data => moves_bind (unpack_moves hR _) fun files => ?_
  split
  · exact moves_throw _
  · exact moves_pure _

theorem extractProgram_moves (hR : Carries target R) (artifact : Path) :
    Moves R (extractProgram artifact target) := by
  unfold extractProgram
  cases hname : Path.fileName artifact with
  | none => exact moves_throw _
  | some name =>
      have hisName := isName_of_fileName hname
      have hnames := areNames_singleton hisName
      dsimp only
      rw [join_name target hisName, ← ofNames_singleton name]
      exact moves_bind (copy_moves hR (by simp) hnames) fun _ => moves_pure _

theorem extractInto_moves (hR : Carries target R) (artifact : Path) :
    Moves R (extractInto artifact target) := by
  unfold extractInto
  split
  · exact extractProgram_moves hR artifact
  · exact extractArchive_moves hR _ artifact

end Carries

theorem extractArchive_ok {format : Format} {artifact target : Path} {t t' : FileTree}
    {programs : List Path} (h : extractArchive format artifact target t = (.ok programs, t')) :
    ∀ p ∈ programs, IsPlacedIn target p := by
  obtain ⟨data, s, -, hrest⟩ := bind_ok h
  obtain ⟨files, s', hfiles, hend⟩ := bind_ok hrest
  have hpaths : ∀ p ∈ (files.filter isProgram).map (·.1), IsPlacedIn target p := by
    intro p hp
    obtain ⟨f, hf, rfl⟩ := List.mem_map.1 hp
    exact unpack_ok hfiles f (List.mem_filter.1 hf).1
  cases hprograms : (files.filter isProgram).map (·.1) with
  | nil =>
      rw [hprograms] at hend
      cases hend
  | cons p more =>
      rw [hprograms] at hend hpaths
      cases hend
      exact hpaths

theorem extractProgram_ok {artifact target : Path} {t t' : FileTree} {programs : List Path}
    (h : extractProgram artifact target t = (.ok programs, t')) :
    ∀ p ∈ programs, IsPlacedIn target p := by
  unfold extractProgram at h
  cases hname : Path.fileName artifact with
  | none =>
      rw [hname] at h
      cases h
  | some name =>
      rw [hname] at h
      obtain ⟨-, s, -, hend⟩ := bind_ok h
      cases hend
      intro p hp
      refine ⟨[name], by simp, areNames_singleton (isName_of_fileName hname), ?_⟩
      rw [List.mem_singleton.1 hp, ofNames_singleton]

theorem extractInto_ok {artifact target : Path} {t t' : FileTree} {programs : List Path}
    (h : extractInto artifact target t = (.ok programs, t')) :
    ∀ p ∈ programs, IsPlacedIn target p := by
  unfold extractInto at h
  cases hformat : Format.ofPath artifact with
  | binary =>
      rw [hformat] at h
      exact extractProgram_ok h
  | tarGz =>
      rw [hformat] at h
      exact extractArchive_ok h
  | tar =>
      rw [hformat] at h
      exact extractArchive_ok h
  | zip =>
      rw [hformat] at h
      exact extractArchive_ok h

/-- Unpacking succeeds only with programs. -/
theorem extractInto_ne_nil {artifact target : Path} {t t' : FileTree} {programs : List Path}
    (h : extractInto artifact target t = (.ok programs, t')) : programs ≠ [] := by
  rintro rfl
  have harchive : ∀ format, extractArchive format artifact target t ≠ (.ok [], t') := by
    intro format h
    obtain ⟨data, s, -, hrest⟩ := bind_ok h
    obtain ⟨files, s', -, hend⟩ := bind_ok hrest
    cases hprograms : (files.filter isProgram).map (·.1) with
    | nil =>
        rw [hprograms] at hend
        cases hend
    | cons p more =>
        rw [hprograms] at hend
        cases hend
  unfold extractInto at h
  cases hformat : Format.ofPath artifact with
  | binary =>
      rw [hformat] at h
      dsimp only [extractProgram] at h
      cases hname : Path.fileName artifact with
      | none =>
          rw [hname] at h
          cases h
      | some name =>
          rw [hname] at h
          obtain ⟨-, s, -, hend⟩ := bind_ok h
          cases hend
  | tarGz =>
      rw [hformat] at h
      exact harchive _ h
  | tar =>
      rw [hformat] at h
      exact harchive _ h
  | zip =>
      rw [hformat] at h
      exact harchive _ h

/-- Whether it succeeds or fails, unpacking changes only what it may. -/
theorem extract_within {artifact target : Path} {t : FileTree}
    (hlinks : ∀ d, OpensAt (t.makeDirectories target).2 target d → NoLinkFrom t d) :
    Within target t (extract artifact target t).2 := by
  have hmakes := makeDirectories_makes t target
  rw [extract_eq, bind_run, makeDirectories, changeAll_eq]
  cases hfirst : t.makeDirectories target with
  | mk r s =>
      rw [hfirst] at hmakes hlinks
      cases r with
      | error e => exact .of_makes hmakes
      | ok u =>
          have hsafe : Safe target s :=
            ⟨makeDirectories_ready hfirst, fun d hd => (hlinks d hd).grows hmakes.grows⟩
          exact (Within.of_makes hmakes).trans
            (extractInto_moves (stays_carries target) artifact s hsafe)

/-- Unpacking stays in its directory.  If no links are where the target leads, then whether it
succeeds or fails, something is changed only below the directory of the target, apart from new
directories for the target and those above it; no link is made; and what it returns are paths of
names behind the target. -/
theorem extract_contained {artifact target : Path} {t t' : FileTree}
    {result : Except ArchiveError (List Path)} (h : extract artifact target t = (result, t'))
    (hlinks : ∀ d, OpensAt (t.makeDirectories target).2 target d → NoLinkFrom t d) :
    (∀ l, t'.get? l ≠ t.get? l →
        (∃ d, OpensAt t' target d ∧ d <+: l ∧ d ≠ l) ∨
          (t.get? l = none ∧ t'.get? l = some .directory ∧
            ∃ a, IsAbove target a ∧ t'.locate true (withoutSlashes a) = .ok l)) ∧
      (∀ l link, t'.get? l = some (.link link) → t.get? l = some (.link link)) ∧
      ∀ programs, result = .ok programs → ∀ p ∈ programs, IsPlacedIn target p := by
  have hwithin := @extract_within artifact target t hlinks
  rw [h] at hwithin
  refine ⟨hwithin.changed, fun l link hl => (hwithin.grows.link l link).1 hl, ?_⟩
  rintro programs rfl
  rw [extract_eq] at h
  obtain ⟨-, s, -, hinto⟩ := bind_ok h
  exact extractInto_ok hinto

/-- A tree with an archive of one program, and a link beside it. -/
def linkedTree : FileTree where
  entries := [([utf8 "home"], .link (utf8 "/etc")),
    ([utf8 "a.tar"], .file newFileMode
      (Tar.pack [⟨utf8 "bin/foo", utf8 "x", some 0o755, 48, []⟩]))]
  workingDirectory := []

theorem extract_contained_linkedTree :
    (extract (utf8 "/a.tar") (utf8 "/d") linkedTree).1 = .ok [utf8 "/d/bin/foo"] ∧
      IsPlacedIn (utf8 "/d") (utf8 "/d/bin/foo") := by
  have hresult : (extract (utf8 "/a.tar") (utf8 "/d") linkedTree).1 = .ok [utf8 "/d/bin/foo"] := by
    decide +kernel
  have hlinks : ∀ d, OpensAt (linkedTree.makeDirectories (utf8 "/d")).2 (utf8 "/d") d →
      NoLinkFrom linkedTree d := by
    rintro d (⟨hnil, -⟩ | ⟨-, hlocate, -⟩) l target ⟨more, rfl⟩
    · exact absurd hnil (by decide)
    · have hd : (linkedTree.makeDirectories (utf8 "/d")).2.locate true (utf8 "/d") =
          .ok [utf8 "d"] := by
        decide +kernel
      rw [hd] at hlocate
      cases hlocate
      have hhome : (utf8 "home" == utf8 "d") = false := by decide
      have htar : (utf8 "a.tar" == utf8 "d") = false := by decide
      simp [FileTree.get?, linkedTree, entryAt, hhome, htar]
  refine ⟨hresult, ?_⟩
  exact (extract_contained (Prod.eta _).symm hlinks).2.2 _ hresult _ (by simp)

end PluginHost.Archive

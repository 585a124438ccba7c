import PluginHost.Manage.Install
import PluginHost.Proofs.Archive.Containment
import PluginHost.Proofs.Files.Tidy

/-!
# The staging directory

A plugin is fetched and unpacked in a staging directory.  `FreshStaging` says of a file tree that the
directory can be made: the directory for temporary files is there, and nothing stands at the name.
`HasStaging` says that it has been made and holds no links; this stays so while the tree grows.

Directories that are made in the staging directory (`makes_staging`), files that are put there
(`puts_staging`) and artifacts that are unpacked there (`extract_staging`) change nothing outside
of it.
-/

namespace PluginHost.Manage

open FileTree PluginHost.Path Archive

/-- The directory in which the staging directory is made. -/
def temporaryDirectory : Path := utf8 "/tmp"

/-- The name of the staging directory. -/
def stagingName : Bytes := utf8 ".sprig-staging"

theorem isChild_stagingName : IsChild temporaryDirectory stagingName :=
  ⟨by decide, by decide, by decide, by decide⟩

theorem stagingDirectory_eq : stagingDirectory = front temporaryDirectory ++ stagingName := by
  decide

/-- The staging directory can be made at a location. -/
structure FreshStaging (t : FileTree) (s : Location) : Prop where
  temporary : ∃ x, t.locate true temporaryDirectory = .ok x ∧ t.get? x = some .directory ∧
    s = x ++ [stagingName]
  fresh : ∀ l, s <+: l → t.get? l = none

/-- The staging directory stands at a location, without links. -/
structure HasStaging (t : FileTree) (s : Location) : Prop where
  temporary : ∃ x, t.locate true temporaryDirectory = .ok x ∧ t.get? x = some .directory ∧
    s = x ++ [stagingName]
  directory : t.get? s = some .directory
  noLinks : NoLinkFrom t s

theorem locate_staging {t : FileTree} {s x : Location}
    (hx : t.locate true temporaryDirectory = .ok x) (hd : t.get? x = some .directory)
    (hs : s = x ++ [stagingName]) (hnode : ∀ target, t.get? s ≠ some (.link target))
    (follow : Bool) : t.locate follow stagingDirectory = .ok s := by
  subst hs
  rw [stagingDirectory_eq]
  exact OpensAt.locate_child (.inr ⟨by decide, hx, hd⟩) isChild_stagingName hnode follow

/-- A staging directory that can be made is made. -/
theorem FreshStaging.make {t : FileTree} {s : Location} (h : FreshStaging t s) :
    t.makeDirectories stagingDirectory = (.ok (), t.put s .directory) := by
  obtain ⟨x, hx, hd, hs⟩ := h.temporary
  have hnone : t.get? s = none := h.fresh s (List.prefix_refl s)
  have hlocate := locate_staging hx hd hs (by simp [hnone]) false
  have hslashes : withoutSlashes stagingDirectory = stagingDirectory := by decide
  refine makeDirectories_new (by decide) ?_ hnone
  rw [hslashes]
  exact hlocate

theorem FreshStaging.made {t : FileTree} {s : Location} (h : FreshStaging t s) :
    HasStaging (t.put s .directory) s := by
  obtain ⟨x, hx, hd, hs⟩ := h.temporary
  have hnone : t.get? s = none := h.fresh s (List.prefix_refl s)
  have hroot : s ≠ [] := by simp [hs]
  have hgrows : Grows t (t.put s .directory) := .put (.inl hnone) (by simp)
  refine ⟨⟨x, locate_grows hgrows hd hx, hgrows.directory x hd, hs⟩, get?_put_self hroot _, ?_⟩
  intro l target hl hlink
  have hbefore := (hgrows.link l target).1 hlink
  rw [h.fresh l hl] at hbefore
  cases hbefore

theorem freshStaging_of_entries {t : FileTree} {x : Location}
    (hx : t.locate true temporaryDirectory = .ok x) (hd : t.get? x = some .directory)
    (hentries : ∀ e ∈ t.entries, ¬x ++ [stagingName] <+: e.1) :
    FreshStaging t (x ++ [stagingName]) :=
  ⟨⟨x, hx, hd, rfl⟩, fun _ hl => get?_eq_none_of_entries (by simp) hentries hl⟩

namespace HasStaging

variable {t t' : FileTree} {s : Location}

theorem grows (h : HasStaging t s) (hgrows : Grows t t') : HasStaging t' s := by
  obtain ⟨x, hx, hd, hs⟩ := h.temporary
  exact ⟨⟨x, locate_grows hgrows hd hx, hgrows.directory x hd, hs⟩,
    hgrows.directory s h.directory, h.noLinks.grows hgrows⟩

theorem ne_nil (h : HasStaging t s) : s ≠ [] := by
  obtain ⟨x, -, -, hs⟩ := h.temporary
  simp [hs]

theorem locate (h : HasStaging t s) (follow : Bool) :
    t.locate follow stagingDirectory = .ok s := by
  obtain ⟨x, hx, hd, hs⟩ := h.temporary
  exact locate_staging hx hd hs (by simp [h.directory]) follow

theorem opens (h : HasStaging t s) : OpensAt t stagingDirectory s :=
  .inr ⟨by decide, h.locate true, h.directory⟩

/-- A path of names behind the staging directory leads below it. -/
theorem located (h : HasStaging t s) {names : List Bytes} (hne : names ≠ [])
    (hnames : AreNames names) {follow : Bool} {l : Location}
    (hl : t.locate follow (front stagingDirectory ++ ofNames names) = .ok l) : s <+: l := by
  rw [locate_front_ofNames h.opens h.noLinks hne hnames hl]
  exact List.prefix_append s names

end HasStaging

/-- The paths above the staging directory. -/
theorem isAbove_staging {a : Path} (h : IsAbove stagingDirectory a) :
    a = stagingDirectory ∨ a = temporaryDirectory ∨ a = [slash] := by
  induction h with
  | self => exact .inl rfl
  | trimmed _ ih =>
      rcases ih with rfl | rfl | rfl
      · exact .inl (by decide)
      · exact .inr (.inl (by decide))
      · exact .inr (.inr (by decide))
  | parent _ hparent ih =>
      rcases ih with rfl | rfl | rfl
      · have habove : parent stagingDirectory = some temporaryDirectory := by decide
        rw [habove] at hparent
        exact .inr (.inl (Option.some.inj hparent).symm)
      · have habove : parent temporaryDirectory = some [slash] := by decide
        rw [habove] at hparent
        exact .inr (.inr (Option.some.inj hparent).symm)
      · have habove : parent [slash] = none := by decide
        rw [habove] at hparent
        cases hparent

section Staging

variable {t t' : FileTree} {s : Location} {names : List Bytes}

/-- What is new where a path in the staging directory leads, or one above it, is in that directory:
those above it have been there. -/
theorem new_staging (h : HasStaging t s) (hgrows : Grows t t') (hne : names ≠ [])
    (hnames : AreNames names) {a : Path} (ha : IsAbove (front stagingDirectory ++ ofNames names) a)
    {l : Location} (hnone : t.get? l = none) (hl : t'.locate true (withoutSlashes a) = .ok l) :
    s <+: l := by
  have hafter := h.grows hgrows
  rcases isAbove_front_ofNames hne hnames ha with ⟨init, rest, hinit, hsplit, rfl⟩ | habove
  · have hinitNames : AreNames init := fun part hpart => hnames part (by simp [hsplit, hpart])
    rw [withoutSlashes_front_ofNames _ hinit hinitNames] at hl
    exact hafter.located hinit hinitNames hl
  · obtain ⟨x, hx, hd, hs⟩ := h.temporary
    have hx' := locate_grows hgrows hd hx
    rcases isAbove_staging habove with rfl | rfl | rfl
    · have hslashes : withoutSlashes stagingDirectory = stagingDirectory := by decide
      have hnode : ∀ target, t'.get? s ≠ some (.link target) := by simp [hafter.directory]
      rw [hslashes, locate_staging hx' (hgrows.directory x hd) hs hnode true] at hl
      cases hl
      exact List.prefix_refl s
    · have hslashes : withoutSlashes temporaryDirectory = temporaryDirectory := by decide
      rw [hslashes, hx'] at hl
      cases hl
      rw [hnone] at hd
      cases hd
    · have hroot : t'.locate true (withoutSlashes [slash]) = .ok [] := by rfl
      rw [hroot] at hl
      cases hl
      cases hnone

theorem makes_staging (h : HasStaging t s) (hne : names ≠ []) (hnames : AreNames names)
    (hmakes : Makes (front stagingDirectory ++ ofNames names) t t') {l : Location}
    (hl : ¬s <+: l) : t'.get? l = t.get? l := by
  by_contra hchanged
  obtain ⟨hnone, -, a, ha, hlocate⟩ := hmakes.made l hchanged
  exact hl (new_staging h hmakes.grows hne hnames ha hnone hlocate)

theorem puts_staging (h : HasStaging t s) (hne : names ≠ []) (hnames : AreNames names)
    (hputs : Puts (front stagingDirectory ++ ofNames names) t t') {l : Location}
    (hl : ¬s <+: l) : t'.get? l = t.get? l := by
  by_contra hchanged
  exact hl (h.located hne hnames (hputs.located hchanged))

/-- A directory in the staging directory is below it while the tree grows. -/
theorem HasStaging.into (h : HasStaging t s) (hne : names ≠ []) (hnames : AreNames names)
    (hgrows : Grows t t') {d : Location}
    (hd : OpensAt t' (front stagingDirectory ++ ofNames names) d) : s <+: d := by
  rcases hd with ⟨hnil, -⟩ | ⟨-, hlocate, -⟩
  · exact absurd hnil (front_ofNames_ne_nil _ hne hnames)
  · exact (h.grows hgrows).located hne hnames hlocate

/-- No links are where artifacts are unpacked in the staging directory. -/
theorem HasStaging.noLinks_into (h : HasStaging t s) (hne : names ≠ []) (hnames : AreNames names)
    {d : Location} (hd : OpensAt (t.makeDirectories (front stagingDirectory ++ ofNames names)).2
      (front stagingDirectory ++ ofNames names) d) : NoLinkFrom t d :=
  fun l target hl => h.noLinks l target
    ((h.into hne hnames (makeDirectories_makes t _).grows hd).trans hl)

/-- Unpacking in the staging directory changes nothing outside of it. -/
theorem extract_staging (h : HasStaging t s) (hne : names ≠ []) (hnames : AreNames names)
    (artifact : Path) :
    Grows t (extract artifact (front stagingDirectory ++ ofNames names) t).2 ∧
      ∀ l, ¬s <+: l →
        (extract artifact (front stagingDirectory ++ ofNames names) t).2.get? l = t.get? l := by
  have hwithin := @extract_within artifact (front stagingDirectory ++ ofNames names) t
    fun d hd => h.noLinks_into hne hnames hd
  refine ⟨hwithin.grows, fun l hl => ?_⟩
  by_contra hchanged
  rcases hwithin.changed l hchanged with ⟨d, hd, hbelow, -⟩ | ⟨hnone, -, a, ha, hlocate⟩
  · exact hl ((h.into hne hnames hwithin.grows hd).trans hbelow)
  · exact hl (new_staging h hwithin.grows hne hnames ha hnone hlocate)

end Staging

end PluginHost.Manage

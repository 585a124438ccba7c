import PluginHost.Proofs.Files.Reading
import PluginHost.Proofs.Manage.Installing
import PluginHost.Proofs.Plugin.Listing

/-!
# Installing updates the plugin directory

What a successful installation of a local artifact does to the tree (`install_updates`).  Before the
executables are moved, at most the plugin directory is new (`Prepares`).  Afterwards the tree is
updated by their entries and nothing else has changed (`Updates`), and the plugin directory lists
them.

A link at the place of an executable is replaced.  If that link was on the way to the plugin directory
or to the directory for temporary files, then the way is lost (`install_unlisted`).  Otherwise the
tree has grown, and all ways are kept.
-/

namespace PluginHost.Manage

open FileTree PluginHost.Path Archive FileAction

/-! ## Clearing -/

/-- What stood at the location and below it is gone. -/
structure Cuts (s : Location) (t t' : FileTree) : Prop where
  workingDirectory : t'.workingDirectory = t.workingDirectory
  gone : ∀ l, s <+: l → t'.get? l = none
  kept : ∀ l, ¬s <+: l → t'.get? l = t.get? l

section Clearing

variable {t t' t'' : FileTree} {s : Location}

/-- Taking away files and directories is the contrary of growing. -/
theorem Cuts.grows (h : Cuts s t t') (hlinks : NoLinkFrom t s) : Grows t' t := by
  refine ⟨h.workingDirectory.symm, ?_, ?_, ?_⟩
  · intro l hl
    by_cases hbelow : s <+: l
    · rw [h.gone l hbelow] at hl
      cases hl
    · rwa [h.kept l hbelow] at hl
  · intro l target
    by_cases hbelow : s <+: l
    · simp [h.gone l hbelow, hlinks l target hbelow]
    · rw [h.kept l hbelow]
  · intro l hl
    by_cases hbelow : s <+: l
    · exact h.gone l hbelow
    · rw [h.kept l hbelow, hl]

/-- What grew and was cut off where nothing had been has grown. -/
theorem Cuts.grows_of_fresh (h : Cuts s t' t'') (hgrows : Grows t t')
    (hfresh : ∀ l, s <+: l → t.get? l = none) : Grows t t'' := by
  refine ⟨h.workingDirectory.trans hgrows.workingDirectory, ?_, ?_, ?_⟩
  · intro l hl
    by_cases hbelow : s <+: l
    · rw [hfresh l hbelow] at hl
      cases hl
    · rw [h.kept l hbelow]
      exact hgrows.directory l hl
  · intro l target
    by_cases hbelow : s <+: l
    · rw [h.gone l hbelow, hfresh l hbelow]
    · rw [h.kept l hbelow]
      exact hgrows.link l target
  · intro l hl
    by_cases hbelow : s <+: l
    · exact hfresh l hbelow
    · rw [h.kept l hbelow] at hl
      exact hgrows.missing l hl

/-- Where the staging directory is found, nothing is left of it. -/
theorem clearStaging_cuts (hs : s ≠ []) (hlocate : t.locate false stagingDirectory = .ok s) :
    Cuts s t (Manager.clearStaging t) := by
  have hcleared : Manager.clearStaging t =
      { t with entries := t.entries.filter fun e => !s.isPrefixOf e.1 } := by
    unfold Manager.clearStaging
    rw [hlocate]
  refine ⟨?_, ?_, ?_⟩
  · rw [hcleared]
  · intro l hl
    rw [hcleared]
    apply get?_eq_none_of_entries hs _ hl
    intro e he hbelow
    have hkept := (List.mem_filter.1 he).2
    rw [Bool.not_eq_true', Bool.eq_false_iff, ne_eq, List.isPrefixOf_iff_prefix] at hkept
    exact hkept hbelow
  · intro l hl
    refine clearStaging_get? (fun k hk => ?_) hl
    rw [hlocate] at hk
    exact (Except.ok.inj hk).symm

theorem HasStaging.cuts (h : HasStaging t s) : Cuts s t (Manager.clearStaging t) :=
  clearStaging_cuts h.ne_nil (h.locate false)

/-- Where it is not found, it is left. -/
theorem clearStaging_cases (hs : s ≠ [])
    (hlocated : ∀ k, t.locate false stagingDirectory = .ok k → k = s) :
    Manager.clearStaging t = t ∨ Cuts s t (Manager.clearStaging t) := by
  cases hlocate : t.locate false stagingDirectory with
  | error e =>
      left
      unfold Manager.clearStaging
      rw [hlocate]
  | ok k =>
      right
      apply clearStaging_cuts hs
      rw [hlocate, hlocated k hlocate]

theorem clearStaging_grows (hs : s ≠ [])
    (hlocated : ∀ k, t.locate false stagingDirectory = .ok k → k = s) (hlinks : NoLinkFrom t s) :
    Grows (Manager.clearStaging t) t := by
  rcases clearStaging_cases hs hlocated with hsame | hcuts
  · rw [hsame]
    exact .refl t
  · exact hcuts.grows hlinks

/-- In a directory that is left, everything is left but the staging directory. -/
theorem clearStaging_get?_child (hs : s ≠ [])
    (hlocated : ∀ k, t.locate false stagingDirectory = .ok k → k = s) {d : Location} {name : Bytes}
    (hd : (Manager.clearStaging t).get? d = some .directory) (hne : d ++ [name] ≠ s) :
    (Manager.clearStaging t).get? (d ++ [name]) = t.get? (d ++ [name]) := by
  rcases clearStaging_cases hs hlocated with hsame | hcuts
  · rw [hsame]
  · apply hcuts.kept
    intro hbelow
    rcases List.prefix_concat_iff.1 hbelow with heq | hprefix
    · exact hne heq.symm
    · rw [hcuts.gone d hprefix] at hd
      cases hd

end Clearing

/-! ## Installing a local artifact -/

/-- Before the executables are moved, directories have been made for the plugin directory if it was
missing, and nothing else has changed but in the staging directory.  A path that led to a directory
leads there when the staging directory has been cleared. -/
structure Prepares (directory : Path) (s : Location) (before ready : FileTree) (d : Location) :
    Prop where
  staging : HasStaging ready s
  grows : Grows before ready
  made : ∀ l, ¬s <+: l → ready.get? l ≠ before.get? l →
    before.get? l = none ∧ ready.get? l = some .directory ∧
      ∃ a, IsAbove directory a ∧ ready.locate true (withoutSlashes a) = .ok l
  there : ∀ k, OpensAt before directory k →
    k = d ∧ ∀ l, ¬s <+: l → ready.get? l = before.get? l
  opens : ∀ p k, OpensAt before p k → OpensAt (Manager.clearStaging ready) p k

/-- The tree is updated by the entries of the executables in their order, and the staging directory is
cleared if the directory for temporary files is where it was.  If the plugin directory is there, the
paths are listed.  Both are so if no link was replaced, for then a path that led to a directory leads
there. -/
structure Updates (directory : Path) (s : Location) (before ready : FileTree) (d : Location)
    (es : List Executable) (paths : List Path) (after : FileTree) : Prop where
  updated : ∀ l, ¬s <+: l → after.get? l = (putAll ready (entriesIn d es)).get? l
  cleared : ∀ x, s = x ++ [stagingName] → OpensAt after temporaryDirectory x →
    ∀ l, s <+: l → after.get? l = none
  listed : directory ≠ [] → ∀ k, OpensAt after directory k →
    ∃ files, pluginFiles directory after = (.ok files, after) ∧ Lists after directory d files ∧
      ∀ p ∈ paths, p ∈ files
  stays : (∀ e ∈ es, ∀ target, before.get? (d ++ [e.name]) ≠ some (.link target)) →
    ∀ p k, OpensAt (Manager.clearStaging ready) p k → OpensAt after p k

theorem artifactOf_file {m : Manager} {artifact found : Path} {w : World}
    (h : (m.artifactOf (.file artifact) w).1 = .ok found) : found = artifact := by
  obtain ⟨there, s, -, hend⟩ := bind_ok (Prod.ext h rfl)
  cases there <;> cases hend
  rfl

theorem fetched_file (m : Manager) (artifact : Path) (w : World) :
    m.fetched (.file artifact) w = (begun w).files := by
  rcases artifactOf_stores m (.file artifact) (begun w) with hsame | ⟨a, ha, -⟩
  · exact hsame
  · cases ha

section File

variable {m : Manager} {artifact : Path} {w : World} {s d : Location} {ready : FileTree}
  {programs paths : List Path} {es : List Executable}

theorem prepares_of_installs (hstaging : FreshStaging w.files s)
    (h : Installs m artifact (begun w).files ready d programs es paths) :
    Prepares m.directory s w.files ready d := by
  have hmade : (begun w).files = w.files.put s .directory := congrArg Prod.snd hstaging.make
  have hfirst : Grows w.files (begun w).files := (makeDirectories_makes w.files _).grows
  obtain ⟨t, hgrows, hsame, hmake, hmakes⟩ := h.unpacked_staging hstaging.begun
  have hunpacked : Grows w.files t := hfirst.trans hgrows
  have hready : Grows w.files ready := hunpacked.trans hmakes.grows
  have hstands : HasStaging ready s := hstaging.begun.grows (hgrows.trans hmakes.grows)
  have houtside : ∀ l, ¬s <+: l → t.get? l = w.files.get? l := by
    intro l hl
    have hne : l ≠ s := by
      rintro rfl
      exact hl (List.prefix_refl l)
    rw [hsame l hl, hmade, get?_put_of_ne hne]
  refine ⟨hstands, hready, ?_, ?_, ?_⟩
  · intro l hl hchanged
    rw [← houtside l hl] at hchanged ⊢
    exact hmakes.made l hchanged
  · intro k hk
    have hthere := makeDirectories_there (hk.grows hunpacked)
    rw [hmake] at hthere
    obtain rfl := (Prod.mk.inj hthere).2
    exact ⟨(hk.grows hunpacked).unique h.opens, houtside⟩
  · intro p k hk
    exact hk.grows (hstands.cuts.grows_of_fresh hready hstaging.fresh)

theorem tidy_carries (target : Path) : Carries target (Keeps Tidy) where
  makes _ _ _ _ h := h.makeDirectories _
  puts _ _ hputs h := hputs.tidy h

theorem tidy_of_installs (htidy : Tidy w.files)
    (h : Installs m artifact (begun w).files ready d programs es paths) :
    Tidy (Manager.clearStaging (putAll ready (entriesIn d es))) := by
  obtain ⟨t, hextract, hmake⟩ := h.unpacked
  have hunpacks : Moves (Keeps Tidy) (extract artifact extractDirectory) := by
    rw [extract_eq]
    apply moves_bind
    · exact moves_changeAll fun t h => h.makeDirectories _
    · exact fun _ => extractInto_moves (tidy_carries _) artifact
  have hunpacked := hunpacks (begun w).files (htidy.makeDirectories stagingDirectory)
  rw [hextract] at hunpacked
  have hready := hunpacked.makeDirectories m.directory
  rw [hmake] at hready
  have hd : AreNames d := by
    rcases h.opens with ⟨-, rfl⟩ | ⟨-, hlocate, -⟩
    · exact hready.workingDirectory
    · exact locate_areNames hready.workingDirectory hlocate
  have hmoved : Tidy (putAll ready (entriesIn d es)) := by
    apply hready.putAll
    intro move hmove
    obtain ⟨e, he, rfl⟩ := List.mem_map.1 hmove
    exact hd.concat (h.children e he).name
  unfold Manager.clearStaging
  split
  · exact hmoved.filter _
  · exact hmoved

section Moved

variable {directory : Path} {before : FileTree}

/-- While executables are moved, the staging directory stays where it is. -/
theorem Prepares.located (h : Prepares directory s before ready d)
    (hfills : Fills ready (putAll ready (entriesIn d es))) :
    ∀ k, (putAll ready (entriesIn d es)).locate false stagingDirectory = .ok k → k = s := by
  intro k hk
  exact locate_fills hfills h.staging.directory (h.staging.locate false) hk (.inl rfl)

/-- All that is left in the end was there when the executables had been moved. -/
theorem Prepares.back (h : Prepares directory s before ready d)
    (hfills : Fills ready (putAll ready (entriesIn d es))) :
    Grows (Manager.clearStaging (putAll ready (entriesIn d es)))
      (putAll ready (entriesIn d es)) :=
  clearStaging_grows h.staging.ne_nil (h.located hfills) (hfills.noLinkFrom h.staging.noLinks)

theorem Prepares.cleared (h : Prepares directory s before ready d)
    (hfills : Fills ready (putAll ready (entriesIn d es))) {x : Location}
    (hs : s = x ++ [stagingName])
    (hx : OpensAt (Manager.clearStaging (putAll ready (entriesIn d es))) temporaryDirectory x)
    {l : Location} (hl : s <+: l) :
    (Manager.clearStaging (putAll ready (entriesIn d es))).get? l = none := by
  have hnoLinks := hfills.noLinkFrom h.staging.noLinks
  have hnode := fun target => hnoLinks s target (List.prefix_refl s)
  rcases hx.grows (h.back hfills) with ⟨hnil, -⟩ | ⟨-, hlocate, hdirectory⟩
  · exact absurd hnil (by decide)
  · have hstaging := locate_staging hlocate hdirectory hs hnode false
    exact (clearStaging_cuts h.staging.ne_nil hstaging).gone l hl

/-- An executable that was moved is a file in the plugin directory, if that one is left. -/
theorem Prepares.stands (h : Prepares directory s before ready d)
    (hfills : Fills ready (putAll ready (entriesIn d es))) {e : Executable} (he : e ∈ es)
    (hd : (Manager.clearStaging (putAll ready (entriesIn d es))).get? d = some .directory) :
    ∃ data, (Manager.clearStaging (putAll ready (entriesIn d es))).get? (d ++ [e.name]) =
      some (.file programMode data) := by
  obtain ⟨f, -, -, hplaced⟩ := get?_putAll_entriesIn he ready
  have hne : d ++ [e.name] ≠ s := by
    intro heq
    rw [heq, hfills.directory h.staging.directory] at hplaced
    cases hplaced
  refine ⟨f.data, ?_⟩
  rw [clearStaging_get?_child h.staging.ne_nil (h.located hfills) hd hne, hplaced]

/-- If no link is replaced, the tree has only grown. -/
theorem Prepares.stays (h : Prepares directory s before ready d)
    (hfills : Fills ready (putAll ready (entriesIn d es)))
    (hlinks : ∀ e ∈ es, ∀ target, before.get? (d ++ [e.name]) ≠ some (.link target)) :
    Grows (Manager.clearStaging ready) (Manager.clearStaging (putAll ready (entriesIn d es))) := by
  have hready : Grows ready (putAll ready (entriesIn d es)) := by
    apply hfills.grows
    intro l target hl
    rw [get?_putAll_entriesIn_of_ne _ ready, hl]
    rintro e he rfl
    exact hlinks e he target ((h.grows.link _ target).1 hl)
  apply (h.staging.grows hready).cuts.grows_of_fresh _ h.staging.cuts.gone
  exact (h.staging.cuts.grows h.staging.noLinks).trans hready

end Moved

/-- If the plugin directory is left, what was installed is listed. -/
theorem listed_of_installs (htidy : Tidy w.files)
    (h : Installs m artifact (begun w).files ready d programs es paths)
    (hprepares : Prepares m.directory s w.files ready d)
    (hfills : Fills ready (putAll ready (entriesIn d es))) (hne : m.directory ≠ []) {k : Location}
    (hk : OpensAt (Manager.clearStaging (putAll ready (entriesIn d es))) m.directory k) :
    ∃ files, pluginFiles m.directory (Manager.clearStaging (putAll ready (entriesIn d es))) =
        (.ok files, Manager.clearStaging (putAll ready (entriesIn d es))) ∧
      Lists (Manager.clearStaging (putAll ready (entriesIn d es))) m.directory d files ∧
      ∀ p ∈ paths, p ∈ files := by
  have hkd : k = d := by
    rcases hk.grows (hprepares.back hfills) with ⟨hnil, -⟩ | ⟨-, hafter, hdirectory⟩
    · exact absurd hnil hne
    · rcases h.opens with ⟨hnil, -⟩ | ⟨-, hbefore, hd⟩
      · exact absurd hnil hne
      · exact locate_fills hfills hd hbefore hafter (.inr hdirectory)
  subst hkd
  obtain ⟨-, hlocate, hd⟩ := hk.resolve_left fun hnil => hne hnil.1
  obtain ⟨files, hfiles, hlists⟩ := pluginFiles_lists (tidy_of_installs htidy h) hlocate hd
  refine ⟨files, hfiles, hlists, fun p hp => ?_⟩
  rw [h.paths_eq] at hp
  obtain ⟨e, he, rfl⟩ := List.mem_map.1 hp
  obtain ⟨data, hplaced⟩ := hprepares.stands hfills he hd
  have hchild := h.children e he
  apply (hlists.mem_iff _).2
  refine ⟨e.name, by simp [hplaced], rfl, ?_⟩
  rw [join_name m.directory hchild.name]
  apply isFile_of_locate _ hplaced
  exact hk.locate_child hchild (by simp [hplaced]) true

theorem updates_of_installs (htidy : Tidy w.files)
    (h : Installs m artifact (begun w).files ready d programs es paths)
    (hprepares : Prepares m.directory s w.files ready d)
    (hfills : Fills ready (putAll ready (entriesIn d es))) :
    Updates m.directory s w.files ready d es paths
      (Manager.clearStaging (putAll ready (entriesIn d es))) where
  updated _ hl := clearStaging_get? (hprepares.located hfills) hl
  cleared _ hs hx _ hl := hprepares.cleared hfills hs hx hl
  listed hne _ hk := listed_of_installs htidy h hprepares hfills hne hk
  stays hlinks _ _ hk := hk.grows (hprepares.stays hfills hlinks)

/-- An installation of a local artifact that succeeds updates the plugin directory. -/
theorem install_updates {w' : World} (hok : m.install (.file artifact) w = (.ok paths, w'))
    (hstaging : FreshStaging w.files s) (htidy : Tidy w.files) :
    ∃ ready d programs es, Installs m artifact (begun w).files ready d programs es paths ∧
      Prepares m.directory s w.files ready d ∧
      Updates m.directory s w.files ready d es paths w'.files := by
  obtain ⟨found, ready, d, programs, es, hfound, hinstalls, hfills, hfiles⟩ :=
    install_ok hstaging hok
  obtain rfl := artifactOf_file hfound
  rw [fetched_file] at hinstalls
  have hprepares := prepares_of_installs hstaging hinstalls
  refine ⟨ready, d, programs, es, hinstalls, hprepares, ?_⟩
  rw [hfiles]
  exact updates_of_installs htidy hinstalls hprepares hfills

end File

/-- A plugin directory with a link at the place of a program, and an archive of that program. -/
def updatedWorld : World where
  files :=
    { entries := [([utf8 "tmp"], .directory), ([utf8 "plugins"], .directory),
        ([utf8 "plugins", utf8 "foo"], .link (utf8 "/etc")),
        ([utf8 "a.tar"], .file newFileMode
          (Tar.pack [⟨utf8 "bin/foo", utf8 "x", some programMode, 48, []⟩]))]
      workingDirectory := [] }
  client := .offline

theorem install_updates_link :
    (pluginManager.install (.file (utf8 "/a.tar")) updatedWorld).1 =
        .ok [utf8 "/plugins/foo"] ∧
      ∃ files, (pluginFiles (utf8 "/plugins")
          (pluginManager.install (.file (utf8 "/a.tar")) updatedWorld).2.files).1 = .ok files ∧
        utf8 "/plugins/foo" ∈ files := by
  have hresult : (pluginManager.install (.file (utf8 "/a.tar")) updatedWorld).1 =
      .ok [utf8 "/plugins/foo"] := by
    decide +kernel
  have hok : pluginManager.install (.file (utf8 "/a.tar")) updatedWorld =
      (.ok [utf8 "/plugins/foo"],
        (pluginManager.install (.file (utf8 "/a.tar")) updatedWorld).2) := by
    rw [← hresult]
    exact (Prod.eta _).symm
  have hstaging : FreshStaging updatedWorld.files ([utf8 "tmp"] ++ [stagingName]) := by
    apply freshStaging_of_entries <;> decide +kernel
  have hafter : OpensAt (pluginManager.install (.file (utf8 "/a.tar")) updatedWorld).2.files
      pluginManager.directory [utf8 "plugins"] := by
    refine .inr ⟨?_, ?_, ?_⟩ <;> decide +kernel
  refine ⟨hresult, ?_⟩
  obtain ⟨ready, d, programs, es, -, -, hupdates⟩ :=
    install_updates hok hstaging (by decide)
  obtain ⟨files, hfiles, -, hlisted⟩ := hupdates.listed (by decide) _ hafter
  exact ⟨files, congrArg Prod.fst hfiles, hlisted _ (by simp)⟩

/-- A directory that holds a link, and a file of the name of this link.  The directory can also be
reached over the link, and perhaps the directory for temporary files is reached in this way. -/
def linkedWorld (temporary : FileNode) : World where
  files :=
    { entries := [([utf8 "tmp"], temporary), ([utf8 "e"], .directory), ([utf8 "r"], .directory),
        ([utf8 "r", utf8 "l"], .link (utf8 "../e")), ([utf8 "l"], .file newFileMode (utf8 "x"))]
      workingDirectory := [] }
  client := .offline

/-- The installer of the directory that is reached over the link. -/
def linkedManager : Manager := { directory := utf8 "/r/l/../r" }

/-- When the link on the way to the plugin directory is replaced, what was installed is not listed,
and neither is it when the plugin directory is the empty path.  When the link on the way to the
directory for temporary files is replaced, the staging directory stays. -/
theorem install_unlisted :
    ((linkedManager.install (.file (utf8 "l")) (linkedWorld .directory)).1 =
          .ok [utf8 "/r/l/../r/l"] ∧
        (pluginFiles (utf8 "/r/l/../r")
            (linkedManager.install (.file (utf8 "l")) (linkedWorld .directory)).2.files).1 =
          .error .notADirectory) ∧
      ((({ directory := [] } : Manager).install (.file (utf8 "l")) (linkedWorld .directory)).1 =
          .ok [utf8 "l"] ∧
        (pluginFiles [] (({ directory := [] } : Manager).install (.file (utf8 "l"))
            (linkedWorld .directory)).2.files).1 = .ok []) ∧
      (({ directory := utf8 "/r" } : Manager).install (.file (utf8 "l"))
            (linkedWorld (.link (utf8 "r/l/../r")))).1 = .ok [utf8 "/r/l"] ∧
        (({ directory := utf8 "/r" } : Manager).install (.file (utf8 "l"))
            (linkedWorld (.link (utf8 "r/l/../r")))).2.files.get? [utf8 "r", stagingName] =
          some .directory := by
  refine ⟨⟨?_, ?_⟩, ⟨?_, ?_⟩, ?_, ?_⟩ <;> decide +kernel

end PluginHost.Manage

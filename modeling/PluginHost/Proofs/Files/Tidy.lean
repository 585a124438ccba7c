import Mathlib.Data.List.Nodup
import PluginHost.Proofs.Files.Changing
import PluginHost.Proofs.Files.Filling

/-!
# Tidy trees

In a tidy tree each location is held once and is made of names (`Tidy`).  A path leads to a location
made of names (`locate_areNames`), and every operation puts its nodes where a path leads, so a tidy
tree stays tidy (`makeDirectories_keeps`, `Puts.tidy`).

In a tidy tree, what stands in a directory is listed once (`nodup_namesIn`, `mem_namesIn_iff`).
-/

namespace PluginHost

namespace FileTree

open PluginHost.Path

/-! ## Locations of names -/

/-- A way from names along parts without slashes leads to names. -/
theorem Way.areNames {t : FileTree} {follow : Bool} {l : Location} {links : Nat}
    {current : Location} {steps : List Bytes} (h : Way t follow l links current steps)
    (hcurrent : AreNames current) (hsteps : ∀ part ∈ steps, slash ∉ part) : AreNames l := by
  induction h with
  | here => exact hcurrent
  | last hpart hl _ _ =>
      rw [hl]
      exact hcurrent.concat (hpart.isName (hsteps _ List.mem_cons_self))
  | skip _ _ ih => exact ih hcurrent fun q hq => hsteps q (List.mem_cons_of_mem _ hq)
  | up _ ih =>
      apply ih
      · exact fun name hmem => hcurrent name (List.dropLast_subset _ hmem)
      · exact fun q hq => hsteps q (List.mem_cons_of_mem _ hq)
  | into hpart _ _ ih =>
      apply ih
      · exact hcurrent.concat (hpart.isName (hsteps _ List.mem_cons_self))
      · exact fun q hq => hsteps q (List.mem_cons_of_mem _ hq)
  | behind _ _ _ _ ih =>
      apply ih
      · intro name hmem
        split at hmem
        · cases hmem
        · exact hcurrent name hmem
      · intro q hq
        rcases List.mem_append.1 hq with hq | hq
        · exact Text.notMem_of_mem_splitOn hq
        · exact hsteps q (List.mem_cons_of_mem _ hq)

theorem locate_areNames {t : FileTree} (ht : AreNames t.workingDirectory) {follow : Bool}
    {p : Path} {l : Location} (hp : t.locate follow p = .ok l) : AreNames l := by
  obtain ⟨-, -, -, hwalk⟩ := locate_ok hp
  apply (walk_way hwalk).areNames
  · intro name hmem
    split at hmem
    · cases hmem
    · exact ht name hmem
  · exact fun part hpart => Text.notMem_of_mem_splitOn hpart

/-! ## Tidy trees -/

/-- Every location is made of names and held once. -/
structure Tidy (t : FileTree) : Prop where
  workingDirectory : AreNames t.workingDirectory
  names : ∀ e ∈ t.entries, AreNames e.1
  nodup : (t.entries.map (·.1)).Nodup

instance (t : FileTree) : Decidable (Tidy t) :=
  decidable_of_iff
    (AreNames t.workingDirectory ∧ (∀ e ∈ t.entries, AreNames e.1) ∧ (t.entries.map (·.1)).Nodup)
    ⟨fun ⟨hstart, hnames, hnodup⟩ => ⟨hstart, hnames, hnodup⟩,
      fun h => ⟨h.workingDirectory, h.names, h.nodup⟩⟩

theorem map_fst_putEntry (l : Location) (n : FileNode) (entries : List (Location × FileNode)) :
    (putEntry l n entries).map (·.1) =
      if l ∈ entries.map (·.1) then entries.map (·.1) else entries.map (·.1) ++ [l] := by
  induction entries with
  | nil => rfl
  | cons head rest ih =>
      obtain ⟨k, m⟩ := head
      by_cases hk : k = l
      · subst hk
        simp [putEntry]
      · have hlk : l ≠ k := Ne.symm hk
        rw [putEntry, if_neg (by simpa using hk), List.map_cons, ih]
        simp only [List.map_cons, List.mem_cons, hlk, false_or]
        split <;> rfl

namespace Tidy

variable {t t' : FileTree}

theorem put (h : Tidy t) {l : Location} (hl : AreNames l) (n : FileNode) : Tidy (t.put l n) := by
  have hkeys : (t.put l n).entries.map (·.1) = _ := map_fst_putEntry l n t.entries
  refine ⟨h.workingDirectory, ?_, ?_⟩
  · intro e he
    have hmem : e.1 ∈ (t.put l n).entries.map (·.1) := List.mem_map_of_mem he
    rw [hkeys] at hmem
    have hold : e.1 ∈ t.entries.map (·.1) ∨ e.1 = l := by
      split at hmem
      · exact .inl hmem
      · simpa using hmem
    rcases hold with hold | rfl
    · obtain ⟨f, hf, hfe⟩ := List.mem_map.1 hold
      rw [← hfe]
      exact h.names f hf
    · exact hl
  · rw [hkeys]
    split
    · exact h.nodup
    · rename_i hnew
      rw [List.nodup_append]
      refine ⟨h.nodup, by simp, ?_⟩
      intro k hk j hj
      rw [List.mem_singleton.1 hj]
      rintro rfl
      exact hnew hk

theorem filter (h : Tidy t) (keep : Location × FileNode → Bool) :
    Tidy { t with entries := t.entries.filter keep } := by
  refine ⟨h.workingDirectory, fun e he => h.names e (List.mem_filter.1 he).1, ?_⟩
  exact (List.filter_sublist.map _).nodup h.nodup

theorem putAll (h : Tidy t) (moves : List (Location × FileNode))
    (hmoves : ∀ m ∈ moves, AreNames m.1) :
    Tidy (FileTree.putAll t moves) := by
  induction moves generalizing t with
  | nil => exact h
  | cons m rest ih =>
      apply ih (t := t.put m.1 m.2)
      · exact h.put (hmoves m List.mem_cons_self) m.2
      · exact fun m hm => hmoves m (List.mem_cons_of_mem _ hm)

end Tidy

/-- What single steps keep is kept when all directories of a path are made. -/
theorem makeDirectories_keeps {P : FileTree → Prop}
    (hstep : ∀ t t' p, t.makeDirectory p = .ok t' → P t → P t') {t : FileTree} (h : P t)
    (p : Path) : P (t.makeDirectories p).2 := by
  have hthere : ∀ t t' p, t.madeOrThere p = .ok t' → P t → P t' := by
    intro t t' p hmade h
    unfold madeOrThere at hmade
    split at hmade
    · rename_i s hs
      cases hmade
      exact hstep t _ p hs h
    · split at hmade
      · cases hmade
        exact h
      · cases hmade
  have hall : ∀ depth t p, P t → P (makeDirectoriesUpTo depth t p).2 := by
    intro depth
    induction depth with
    | zero => exact fun t p h => h
    | succ depth ih =>
        intro t p h
        unfold makeDirectoriesUpTo
        split
        · exact h
        · split
          · rename_i s hs
            exact hstep t _ p hs h
          · split
            · split
              · exact h
              · rename_i above _
                have habove := ih t above h
                split
                · rename_i e s hs
                  rw [hs] at habove
                  exact habove
                · rename_i s hs
                  rw [hs] at habove
                  split
                  · rename_i s' hs'
                    exact hthere s _ p hs' habove
                  · exact habove
            · split
              · exact h
              · exact h
  exact hall _ t p h

theorem Tidy.makeDirectories {t : FileTree} (h : Tidy t) (p : Path) :
    Tidy (t.makeDirectories p).2 := by
  refine makeDirectories_keeps (P := Tidy) ?_ h p
  intro t t' p hmade h
  obtain ⟨l, hl, -, rfl⟩ := makeDirectory_ok hmade
  exact h.put (locate_areNames h.workingDirectory hl) _

theorem Puts.tidy {p : Path} {t t' : FileTree} (hputs : Puts p t t') (h : Tidy t) : Tidy t' := by
  obtain ⟨l, mode, data, hl, rfl, -⟩ := hputs.place
  exact h.put (locate_areNames h.workingDirectory hl) _

/-! ## Listing a directory -/

theorem entryAt_eq_none_iff {l : Location} {entries : List (Location × FileNode)} :
    entryAt l entries = none ↔ l ∉ entries.map (·.1) := by
  induction entries with
  | nil => simp [entryAt]
  | cons head rest ih =>
      obtain ⟨k, m⟩ := head
      by_cases hk : k = l
      · subst hk
        simp [entryAt]
      · simp [entryAt, hk, ih, Ne.symm hk]

/-- Where no entry is, nothing stands. -/
theorem get?_eq_none_of_entries {t : FileTree} {s : Location} (hs : s ≠ [])
    (h : ∀ e ∈ t.entries, ¬s <+: e.1) {l : Location} (hl : s <+: l) : t.get? l = none := by
  have hroot : ¬l.isEmpty = true := by
    rw [List.isEmpty_iff]
    rintro rfl
    exact hs (List.prefix_nil.1 hl)
  unfold get?
  rw [if_neg hroot, entryAt_eq_none_iff]
  intro hmem
  obtain ⟨e, he, rfl⟩ := List.mem_map.1 hmem
  exact h e he hl

theorem nameWithin_eq_some_iff {d l : Location} {name : Bytes} :
    nameWithin d l = some name ↔ l = d ++ [name] := by
  unfold nameWithin
  rcases List.eq_nil_or_concat' l with rfl | ⟨init, last, rfl⟩
  · simp
  · rw [List.getLast?_concat, List.dropLast_concat]
    dsimp only
    by_cases hd : init = d
    · subst hd
      simp
    · simp [hd]

/-- The names in a directory. -/
def namesIn (t : FileTree) (d : Location) : List Bytes :=
  t.entries.filterMap fun (k, _) => nameWithin d k

theorem list_of_locate {t : FileTree} {p : Path} {d : Location} (hp : t.locate true p = .ok d)
    (hd : t.get? d = some .directory) : t.list p = .ok (t.namesIn d) := by
  simp only [list, hp, hd, bind, Except.bind, pure, Except.pure]
  rfl

theorem mem_namesIn_iff {t : FileTree} {d : Location} {name : Bytes} :
    name ∈ t.namesIn d ↔ t.get? (d ++ [name]) ≠ none := by
  have hroot : ¬(d ++ [name]).isEmpty = true := by simp
  unfold namesIn get?
  rw [if_neg hroot, ne_eq, entryAt_eq_none_iff, not_not, List.mem_filterMap, List.mem_map]
  constructor
  · rintro ⟨e, he, hname⟩
    exact ⟨e, he, nameWithin_eq_some_iff.1 hname⟩
  · rintro ⟨e, he, hname⟩
    exact ⟨e, he, nameWithin_eq_some_iff.2 hname⟩

namespace Tidy

variable {t : FileTree}

/-- A name is listed once. -/
theorem nodup_namesIn (h : Tidy t) (d : Location) : (t.namesIn d).Nodup := by
  have hnames : t.namesIn d = (t.entries.map (·.1)).filterMap (nameWithin d) := by
    unfold namesIn
    rw [List.filterMap_map]
    rfl
  rw [hnames]
  refine h.nodup.filterMap ?_
  intro l k name hl hk
  rw [nameWithin_eq_some_iff.1 hl, nameWithin_eq_some_iff.1 hk]

theorem isName_of_mem_namesIn (h : Tidy t) {d : Location} {name : Bytes}
    (hname : name ∈ t.namesIn d) : IsName name := by
  obtain ⟨e, he, hwithin⟩ := List.mem_filterMap.1 hname
  have hlast : name ∈ e.1 := by
    rw [nameWithin_eq_some_iff.1 hwithin]
    simp
  exact h.names e he name hlast

end Tidy

end FileTree

end PluginHost

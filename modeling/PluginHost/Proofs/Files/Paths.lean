import Mathlib.Data.List.Basic
import Mathlib.Data.List.TakeWhile
import PluginHost.Path

/-!
# Paths of names

What a path looks like that is put behind another one.  A name (`IsName`) is a part of a path that
is no step upwards and no dot.  A path of names is cut into these names (`parts_ofNames`), and behind
a directory it stays in it: its names follow the steps of the directory
(`components_join_ofNames`), putting them there one after another comes to the same (`foldl_join`),
and going up from there leads to the directory name by name (`parent_front_ofNames`).

`front` is the bytes in front of the names.  `IsAbove` is the relation of a path to those above it.
-/

namespace PluginHost

namespace Path

open Text

theorem isAbsolute_append {p : Path} (h : p ≠ []) (q : Path) :
    isAbsolute (p ++ q) = isAbsolute p := by
  cases p with
  | nil => exact absurd rfl h
  | cons b p => rfl

/-! ## Names -/

/-- A part of a path that is a step to what bears this name. -/
structure IsName (part : Bytes) : Prop where
  ne_nil : part ≠ []
  ne_dot : part ≠ [dot]
  ne_dots : part ≠ [dot, dot]
  slash_notMem : slash ∉ part

instance (part : Bytes) : Decidable (IsName part) :=
  decidable_of_iff (part ≠ [] ∧ part ≠ [dot] ∧ part ≠ [dot, dot] ∧ slash ∉ part)
    ⟨fun ⟨hnil, hdot, hdots, hslash⟩ => ⟨hnil, hdot, hdots, hslash⟩,
      fun h => ⟨h.ne_nil, h.ne_dot, h.ne_dots, h.slash_notMem⟩⟩

/-- A name ends with a byte, and this is no slash. -/
theorem IsName.exists_last {part : Bytes} (h : IsName part) :
    ∃ init last, part = init ++ [last] ∧ last ≠ slash := by
  obtain ⟨init, last, rfl⟩ := (List.eq_nil_or_concat' part).resolve_left h.ne_nil
  refine ⟨init, last, rfl, ?_⟩
  rintro rfl
  exact h.slash_notMem (by simp)

/-- A path of names. -/
def AreNames (names : List Bytes) : Prop := ∀ part ∈ names, IsName part

instance (names : List Bytes) : Decidable (AreNames names) :=
  inferInstanceAs (Decidable (∀ part ∈ names, IsName part))

theorem areNames_singleton {part : Bytes} (h : IsName part) : AreNames [part] := by
  intro name hname
  rw [List.mem_singleton.1 hname]
  exact h

theorem AreNames.concat {names : List Bytes} (h : AreNames names) {part : Bytes}
    (hpart : IsName part) : AreNames (names ++ [part]) := by
  intro name hname
  rcases List.mem_append.1 hname with hname | hname
  · exact h name hname
  · exact areNames_singleton hpart name hname

theorem componentOf_of_ne {part : Bytes} (hnil : part ≠ []) (hdot : part ≠ [dot])
    (hdots : part ≠ [dot, dot]) : componentOf part = some (.name part) := by
  unfold componentOf
  rw [if_neg (by simp [hnil, hdot]), if_neg (by simp [hdots])]

theorem componentOf_name {part : Bytes} (h : IsName part) :
    componentOf part = some (.name part) :=
  componentOf_of_ne h.ne_nil h.ne_dot h.ne_dots

/-- The steps of a path are those of its parts, behind a root or a dot that it starts with. -/
theorem components_eq (p : Path) :
    components p =
      (if isAbsolute p then [.root] else if (parts p).head? = some [dot] then [.here] else []) ++
        (parts p).filterMap componentOf := by
  unfold components
  split
  · rfl
  · split
    · rename_i first rest heq
      rw [heq]
      by_cases hdot : first = [dot]
      · simp [hdot]
      · simp [hdot]
    · rename_i heq
      exact absurd heq (splitOn_ne_nil slash p)

theorem isName_of_componentOf {part name : Bytes} (hslash : slash ∉ part)
    (h : componentOf part = some (.name name)) : IsName name := by
  unfold componentOf at h
  split at h
  · contradiction
  · rename_i hhere
    split at h
    · cases h
    · rename_i hup
      cases h
      simp only [Bool.or_eq_true, beq_iff_eq, not_or] at hhere
      exact ⟨hhere.1, hhere.2, by simpa using hup, hslash⟩

theorem isName_of_mem_components {p : Path} {name : Bytes} (h : .name name ∈ components p) :
    IsName name := by
  rw [components_eq, List.mem_append] at h
  rcases h with hstart | hmem
  · -- a root or a dot at the start is no name
    split at hstart
    · simp at hstart
    · split at hstart <;> simp at hstart
  · obtain ⟨part, hpart, hstep⟩ := List.mem_filterMap.1 hmem
    exact isName_of_componentOf (notMem_of_mem_splitOn hpart) hstep

theorem isName_of_fileName {p : Path} {part : Bytes} (h : fileName p = some part) :
    IsName part := by
  unfold fileName at h
  split at h
  · rename_i bytes hlast
    cases h
    exact isName_of_mem_components (List.mem_of_getLast? hlast)
  · contradiction

@[simp] theorem ofNames_singleton (part : Bytes) : ofNames [part] = part := by
  simp [ofNames]

theorem ofNames_cons_cons (a b : Bytes) (names : List Bytes) :
    ofNames (a :: b :: names) = a ++ slash :: ofNames (b :: names) := by
  simp [ofNames]

/-- A longer path of names ends with a slash and its last name. -/
theorem ofNames_concat {names : List Bytes} (h : names ≠ []) (last : Bytes) :
    ofNames (names ++ [last]) = ofNames names ++ slash :: last := by
  induction names with
  | nil => exact absurd rfl h
  | cons a names ih =>
      cases names with
      | nil => rw [List.singleton_append, ofNames_cons_cons, ofNames_singleton, ofNames_singleton]
      | cons b names =>
          rw [List.cons_append, List.cons_append, ofNames_cons_cons, ofNames_cons_cons,
            ← List.cons_append, ih (by simp), List.append_assoc, List.cons_append]

theorem parts_ofNames {names : List Bytes} (hne : names ≠ []) (h : AreNames names) :
    parts (ofNames names) = names := by
  induction names with
  | nil => exact absurd rfl hne
  | cons a names ih =>
      have ha : splitOn slash a = [a] := splitOn_of_notMem (h a (by simp)).slash_notMem
      cases names with
      | nil => rw [ofNames_singleton, parts, ha]
      | cons b names =>
          have hrest := ih (by simp) fun part hpart => h part (by simp [hpart])
          rw [parts] at hrest
          rw [ofNames_cons_cons, parts, splitOn_append_cons, ha, hrest, List.singleton_append]

theorem parts_concat_slash (p : Path) : parts (p ++ [slash]) = parts p ++ [[]] := by
  rw [parts, splitOn_append_cons]
  rfl

theorem parts_name {part : Bytes} (h : IsName part) : parts part = [part] :=
  splitOn_of_notMem h.slash_notMem

theorem isAbsolute_ofNames {names : List Bytes} (h : AreNames names) :
    isAbsolute (ofNames names) = false := by
  cases names with
  | nil => rfl
  | cons a names =>
      have ha := h a (by simp)
      obtain ⟨b, bytes, rfl⟩ := List.exists_cons_of_ne_nil ha.ne_nil
      have hb : b ≠ slash := by
        rintro rfl
        exact ha.slash_notMem (by simp)
      have hhead : (ofNames ((b :: bytes) :: names)).head? = some b := by
        cases names with
        | nil => rw [ofNames_singleton]; rfl
        | cons c names => rw [ofNames_cons_cons]; rfl
      rw [isAbsolute, hhead]
      simpa using hb

theorem isAbsolute_name {part : Bytes} (h : IsName part) : isAbsolute part = false := by
  have hrelative := isAbsolute_ofNames (areNames_singleton h)
  rwa [ofNames_singleton] at hrelative

/-! ## Behind a path -/

/-- What stands in front of the names that are put behind a path. -/
def front (p : Path) : Path :=
  if p.isEmpty || p.getLast? == some slash then p else p ++ [slash]

theorem join_of_relative (p : Path) {q : Path} (h : isAbsolute q = false) :
    join p q = front p ++ q := by
  unfold join front
  rw [h, Bool.false_or]
  by_cases hempty : p.isEmpty = true
  · have hp : p = [] := List.isEmpty_iff.1 hempty
    subst hp
    rfl
  · rw [if_neg hempty, Bool.eq_false_iff.2 hempty, Bool.false_or]
    split
    · rfl
    · rw [List.append_assoc, List.singleton_append]

theorem join_ofNames (p : Path) {names : List Bytes} (h : AreNames names) :
    join p (ofNames names) = front p ++ ofNames names :=
  join_of_relative p (isAbsolute_ofNames h)

theorem join_name (p : Path) {part : Bytes} (h : IsName part) : join p part = front p ++ part :=
  join_of_relative p (isAbsolute_name h)

theorem getLast?_concat_ne (x : Path) {part : Bytes} (h : IsName part) :
    (x ++ part).getLast? ≠ some slash := by
  obtain ⟨init, last, rfl, hlast⟩ := h.exists_last
  rw [← List.append_assoc, List.getLast?_concat, ne_eq, Option.some.injEq]
  exact hlast

/-- A name that is put behind a path is followed by a slash before the next one. -/
theorem front_concat (x : Path) {part : Bytes} (h : IsName part) :
    front (x ++ part) = x ++ part ++ [slash] := by
  have hne : x ++ part ≠ [] := by simp [h.ne_nil]
  unfold front
  rw [if_neg]
  simp only [Bool.or_eq_true, List.isEmpty_iff, beq_iff_eq, not_or]
  exact ⟨hne, getLast?_concat_ne x h⟩

/-- Going down name by name leads where the path of the names leads. -/
theorem foldl_join {names : List Bytes} (hne : names ≠ []) (h : AreNames names) (p : Path) :
    names.foldl join p = join p (ofNames names) := by
  induction names generalizing p with
  | nil => exact absurd rfl hne
  | cons a names ih =>
      have ha : IsName a := h a (by simp)
      cases names with
      | nil => rw [ofNames_singleton, List.foldl_cons, List.foldl_nil]
      | cons b names =>
          have hrest : AreNames (b :: names) := fun part hpart => h part (by simp [hpart])
          rw [List.foldl_cons, ih (by simp) hrest, join_ofNames _ hrest, join_ofNames _ h,
            join_name p ha, front_concat _ ha, ofNames_cons_cons]
          simp

theorem front_cases (p : Path) :
    (p = [] ∧ front p = []) ∨
      ∃ x, front p = x ++ [slash] ∧ (p = x ++ [slash] ∨ p = x ∧ p ≠ []) := by
  unfold front
  by_cases hempty : p = []
  · left
    subst hempty
    exact ⟨rfl, rfl⟩
  · right
    by_cases hlast : p.getLast? = some slash
    · obtain ⟨x, hx⟩ := List.getLast?_eq_some_iff.1 hlast
      refine ⟨x, ?_, .inl hx⟩
      rw [if_pos (by simp [hlast])]
      exact hx
    · refine ⟨p, ?_, .inr ⟨rfl, hempty⟩⟩
      rw [if_neg (by simp [hlast, hempty])]

theorem length_le_front (p : Path) : p.length ≤ (front p).length := by
  unfold front
  split
  · exact Nat.le_refl _
  · simp

/-- A name is put behind nothing, or behind a slash. -/
theorem front_closed (p : Path) : front p = [] ∨ ∃ x, front p = x ++ [slash] := by
  rcases front_cases p with ⟨-, hfront⟩ | ⟨x, hfront, -⟩
  · exact .inl hfront
  · exact .inr ⟨x, hfront⟩

section Concat

variable {x part : Bytes}

theorem reverse_dropWhile_slash (hx : x = [] ∨ ∃ y, x = y ++ [slash]) (hpart : slash ∉ part) :
    (x ++ part).reverse.dropWhile (· != slash) = x.reverse := by
  have hall : ∀ b ∈ part.reverse, (b != slash) = true := by
    intro b hb
    rw [bne_iff_ne]
    rintro rfl
    exact hpart (List.mem_reverse.1 hb)
  rw [List.reverse_append, List.dropWhile_append_of_pos hall]
  rcases hx with rfl | ⟨y, rfl⟩
  · rfl
  · rw [List.reverse_append]
    rfl

/-- Nothing is trimmed off behind a name. -/
theorem trimmed_concat (hpart : IsName part) :
    trimmed (x ++ part) = x ++ part := by
  obtain ⟨init, last, hlast, hslash⟩ := hpart.exists_last
  have hkept : trimmed.dropEnd (x ++ part).reverse = (x ++ part).reverse := by
    rw [hlast, ← List.append_assoc, List.reverse_concat]
    cases hrest : (x ++ init).reverse with
    | nil => simp [trimmed.dropEnd, hslash]
    | cons c rest =>
        have hdot : ¬(last == dot && c == slash) = true := by
          intro h
          simp only [Bool.and_eq_true, beq_iff_eq] at h
          obtain ⟨rfl, rfl⟩ := h
          rw [List.reverse_append] at hrest
          cases hinit : init.reverse with
          | nil =>
              have hnil : init = [] := List.reverse_eq_nil_iff.1 hinit
              rw [hnil] at hlast
              exact hpart.ne_dot hlast
          | cons d more =>
              rw [hinit] at hrest
              have hd : d = slash := (List.cons.inj hrest).1
              have hmem : slash ∈ init := by
                rw [← List.mem_reverse, hinit, hd]
                simp
              exact hpart.slash_notMem (by simp [hlast, hmem])
        simp only [trimmed.dropEnd, beq_iff_eq, if_neg hslash, if_neg hdot]
  have hne : (x ++ part).reverse ≠ [] := by simp [hpart.ne_nil]
  unfold trimmed
  rw [hkept]
  split
  · contradiction
  · exact List.reverse_reverse _

theorem trimmed_concat_slash {y : Path} (h : y ≠ []) : trimmed (y ++ [slash]) = trimmed y := by
  obtain ⟨c, rest, hrest⟩ := List.exists_cons_of_ne_nil (List.reverse_ne_nil_iff.2 h)
  unfold trimmed
  rw [List.reverse_concat, hrest, trimmed.dropEnd, if_pos (beq_self_eq_true slash),
    isAbsolute_append h]

theorem getLast?_components_concat (hx : x = [] ∨ ∃ y, x = y ++ [slash]) (hpart : IsName part) :
    (components (x ++ part)).getLast? = some (.name part) := by
  have hstep : componentOf part = some (.name part) := componentOf_name hpart
  obtain ⟨front, hparts⟩ : ∃ front, parts (x ++ part) = front ++ [part] := by
    rcases hx with rfl | ⟨y, rfl⟩
    · exact ⟨[], splitOn_of_notMem hpart.slash_notMem⟩
    · refine ⟨parts y, ?_⟩
      rw [List.append_assoc, List.singleton_append, parts, splitOn_append_cons,
        splitOn_of_notMem hpart.slash_notMem]
      rfl
  have hsteps : (parts (x ++ part)).filterMap componentOf =
      front.filterMap componentOf ++ [.name part] := by
    rw [hparts, List.filterMap_append, List.filterMap_cons_some hstep, List.filterMap_nil]
  rw [components_eq, hsteps, ← List.append_assoc, List.getLast?_concat]

/-- What a name is put behind is what lies above. -/
theorem parent_concat (hx : x = [] ∨ ∃ y, x = y ++ [slash]) (hpart : IsName part) :
    parent (x ++ part) = some (trimmed x) := by
  unfold parent
  rw [getLast?_components_concat hx hpart]
  dsimp only
  rw [trimmed_concat hpart, reverse_dropWhile_slash hx hpart.slash_notMem, List.reverse_reverse]

end Concat

theorem trimmed_front (p : Path) : trimmed (front p) = trimmed p := by
  rcases front_cases p with ⟨hp, hfront⟩ | ⟨x, hfront, hp | ⟨hp, hne⟩⟩
  · rw [hfront, hp]
  · rw [hfront, hp]
  · rw [hfront, ← hp, trimmed_concat_slash hne]

/-- A path of names behind another path ends with its last name. -/
theorem front_ofNames_concat (p : Path) (names : List Bytes) (last : Bytes) :
    ∃ x, (x = [] ∨ ∃ y, x = y ++ [slash]) ∧ front p ++ ofNames (names ++ [last]) = x ++ last := by
  cases names with
  | nil =>
      rw [List.nil_append, ofNames_singleton]
      exact ⟨front p, front_closed p, rfl⟩
  | cons a names =>
      refine ⟨front p ++ ofNames (a :: names) ++ [slash], .inr ⟨_, rfl⟩, ?_⟩
      rw [ofNames_concat (by simp)]
      simp

/-- Above a path of names behind another path stands the path with one name less, and above the
first name the other path itself. -/
theorem parent_front_ofNames (p : Path) {names : List Bytes} {last : Bytes}
    (h : AreNames (names ++ [last])) :
    parent (front p ++ ofNames (names ++ [last])) =
      some (if names = [] then trimmed p else front p ++ ofNames names) := by
  have hlast : IsName last := h last (by simp)
  rcases List.eq_nil_or_concat' names with rfl | ⟨before, b, rfl⟩
  · rw [List.nil_append, ofNames_singleton, parent_concat (front_closed p) hlast, trimmed_front,
      if_pos rfl]
  · have hb : IsName b := h b (by simp)
    have hne : before ++ [b] ≠ [] := by simp
    obtain ⟨x, hx, hbytes⟩ := front_ofNames_concat p before b
    have hslash : front p ++ ofNames (before ++ [b] ++ [last]) =
        front p ++ ofNames (before ++ [b]) ++ [slash] ++ last := by
      rw [ofNames_concat hne]
      simp
    have hnil : x ++ b ≠ [] := by simp [hb.ne_nil]
    rw [if_neg hne, hslash, parent_concat (.inr ⟨_, rfl⟩) hlast, hbytes, trimmed_concat_slash hnil,
      trimmed_concat hb]

/-- The second path is the first one or one above it. -/
inductive IsAbove (p : Path) : Path → Prop where
  | self : IsAbove p p
  | trimmed {q : Path} (hq : IsAbove p q) : IsAbove p (trimmed q)
  | parent {q above : Path} (hq : IsAbove p q) (h : parent q = some above) : IsAbove p above

theorem IsAbove.trans {p q a : Path} (hq : IsAbove p q) (ha : IsAbove q a) : IsAbove p a := by
  induction ha with
  | self => exact hq
  | trimmed _ ih => exact .trimmed ih
  | parent _ h ih => exact .parent ih h

/-- Above a path of names behind another path stand paths of fewer names behind it, and what stands
above the other path. -/
theorem isAbove_front_ofNames {p a : Path} {names : List Bytes} (hne : names ≠ [])
    (hnames : AreNames names) (h : IsAbove (front p ++ ofNames names) a) :
    (∃ init rest, init ≠ [] ∧ names = init ++ rest ∧ a = front p ++ ofNames init) ∨
      IsAbove p a := by
  induction h with
  | self => exact .inl ⟨names, [], hne, (List.append_nil _).symm, rfl⟩
  | trimmed hq ih =>
      rcases ih with ⟨init, rest, hinit, hsplit, rfl⟩ | hp
      · refine .inl ⟨init, rest, hinit, hsplit, ?_⟩
        obtain ⟨before, last, rfl⟩ := (List.eq_nil_or_concat' init).resolve_left hinit
        obtain ⟨x, -, hbytes⟩ := front_ofNames_concat p before last
        rw [hbytes, trimmed_concat (hnames last (by simp [hsplit]))]
      · exact .inr (.trimmed hp)
  | parent hq hparent ih =>
      rcases ih with ⟨init, rest, hinit, hsplit, rfl⟩ | hp
      · obtain ⟨before, last, rfl⟩ := (List.eq_nil_or_concat' init).resolve_left hinit
        have hbefore : AreNames (before ++ [last]) := fun part hpart =>
          hnames part (by rw [hsplit]; exact List.mem_append_left rest hpart)
        rw [parent_front_ofNames p hbefore] at hparent
        have habove := Option.some.inj hparent
        by_cases hnil : before = []
        · rw [if_pos hnil] at habove
          exact .inr (habove ▸ .trimmed .self)
        · rw [if_neg hnil] at habove
          refine .inl ⟨before, last :: rest, hnil, ?_, habove.symm⟩
          rw [hsplit, List.append_assoc, List.singleton_append]
      · exact .inr (.parent hp hparent)

/-- A path that does not end with a slash has none to be cut off. -/
theorem withoutSlashes_of_getLast? {p : Path} (h : p.getLast? ≠ some slash) :
    withoutSlashes p = p := by
  rcases List.eq_nil_or_concat' p with rfl | ⟨init, last, rfl⟩
  · rfl
  · have hlast : last ≠ slash := by
      rintro rfl
      exact h (by simp)
    unfold withoutSlashes
    rw [List.reverse_concat, List.dropWhile_cons_of_neg (by simpa using hlast)]
    show (last :: init.reverse).reverse = init ++ [last]
    rw [List.reverse_cons, List.reverse_reverse]

theorem withoutSlashes_concat {x part : Path} (h : IsName part) :
    withoutSlashes (x ++ part) = x ++ part :=
  withoutSlashes_of_getLast? (getLast?_concat_ne x h)

/-- What is cut off at the end of a path are slashes. -/
theorem withoutSlashes_append (p : Path) :
    ∃ slashes : Bytes, (∀ b ∈ slashes, b = slash) ∧ p = withoutSlashes p ++ slashes := by
  have hsplit := (List.takeWhile_append_dropWhile (p := (· == slash)) (l := p.reverse)).symm
  have htaken : ∀ b ∈ p.reverse.takeWhile (· == slash), b = slash := fun b hb =>
    beq_iff_eq.1 (List.mem_takeWhile_imp (p := (· == slash)) hb)
  unfold withoutSlashes
  split
  · rename_i hnil
    rw [hnil, List.append_nil] at hsplit
    refine ⟨p.drop 1, fun b hb => ?_, (List.take_append_drop 1 p).symm⟩
    refine htaken b ?_
    rw [← hsplit, List.mem_reverse]
    exact List.mem_of_mem_drop hb
  · refine ⟨(p.reverse.takeWhile (· == slash)).reverse, fun b hb => ?_, ?_⟩
    · exact htaken b (List.mem_reverse.1 hb)
    · rw [← List.reverse_append, ← hsplit, List.reverse_reverse]

theorem withoutSlashes_ne_nil {p : Path} (h : p ≠ []) : withoutSlashes p ≠ [] := by
  unfold withoutSlashes
  split
  · cases p with
    | nil => exact absurd rfl h
    | cons b p => simp
  · rename_i hne
    rw [ne_eq, List.reverse_eq_nil_iff]
    exact hne

/-- A path of names behind another path ends without slashes. -/
theorem withoutSlashes_front_ofNames (p : Path) {names : List Bytes} (hne : names ≠ [])
    (h : AreNames names) :
    withoutSlashes (front p ++ ofNames names) = front p ++ ofNames names := by
  obtain ⟨before, last, rfl⟩ := (List.eq_nil_or_concat' names).resolve_left hne
  obtain ⟨x, -, hbytes⟩ := front_ofNames_concat p before last
  rw [hbytes, withoutSlashes_concat (h last (by simp))]

theorem front_ofNames_ne_nil (p : Path) {names : List Bytes} (hne : names ≠ [])
    (h : AreNames names) : front p ++ ofNames names ≠ [] := by
  obtain ⟨before, last, rfl⟩ := (List.eq_nil_or_concat' names).resolve_left hne
  obtain ⟨x, -, hbytes⟩ := front_ofNames_concat p before last
  rw [hbytes]
  simp [(h last (by simp)).ne_nil]

/-- The parts of a path behind another path, and where its first part starts. -/
theorem parts_front {p : Path} (hp : p ≠ []) (q : Path) :
    ∃ steps, steps ≠ [] ∧ (parts p = steps ∨ parts p = steps ++ [[]]) ∧
      parts (front p ++ q) = steps ++ parts q ∧ isAbsolute (front p ++ q) = isAbsolute p := by
  have hcut : ∀ x : Path, parts (x ++ [slash] ++ q) = parts x ++ parts q := by
    intro x
    rw [List.append_assoc, List.singleton_append, parts, splitOn_append_cons, parts, parts]
  have hparts : ∀ x : Path, parts x ≠ [] := fun x => splitOn_ne_nil slash x
  rcases front_cases p with ⟨hnil, -⟩ | ⟨x, hfront, hx | ⟨hx, -⟩⟩
  · exact absurd hnil hp
  · refine ⟨parts x, hparts x, .inr ?_, ?_, ?_⟩
    · rw [hx, parts_concat_slash]
    · rw [hfront, hcut]
    · rw [hfront, ← hx, isAbsolute_append hp]
  · refine ⟨parts p, hparts p, .inl rfl, ?_, ?_⟩
    · rw [hfront, hcut, hx]
    · rw [hfront, ← hx, List.append_assoc, isAbsolute_append hp]

/-! ## Steps behind a path -/

/-- The steps of a path that is put behind another one follow those of the other one. -/
theorem components_join {p q : Path} (hp : p ≠ []) (hq : isAbsolute q = false) :
    components (join p q) = components p ++ (parts q).filterMap componentOf := by
  obtain ⟨steps, hne, hsteps, hparts, habsolute⟩ := parts_front hp q
  obtain ⟨first, rest, rfl⟩ := List.exists_cons_of_ne_nil hne
  have hhead : (parts p).head? = some first := by
    rcases hsteps with heq | heq <;> rw [heq] <;> rfl
  have hbehind : (parts p).filterMap componentOf = (first :: rest).filterMap componentOf := by
    have hempty : [[]].filterMap componentOf = [] := by decide
    rcases hsteps with heq | heq
    · rw [heq]
    · rw [heq, List.filterMap_append, hempty, List.append_nil]
  rw [join_of_relative p hq, components_eq, components_eq, habsolute, hparts, hhead, hbehind,
    List.filterMap_append, List.append_assoc]
  rfl

/-- The steps of a path are these names, and it starts anywhere. -/
structure Spells (q : Path) (names : List Bytes) : Prop where
  relative : isAbsolute q = false
  steps : (parts q).filterMap componentOf = names.map .name

theorem spells_ofNames {names : List Bytes} (hne : names ≠ []) (h : AreNames names) :
    Spells (ofNames names) names := by
  refine ⟨isAbsolute_ofNames h, ?_⟩
  rw [parts_ofNames hne h, List.filterMap_eq_map_iff_forall_eq_some]
  intro part hpart
  exact componentOf_name (h part hpart)

theorem components_ofNames {names : List Bytes} (hne : names ≠ []) (h : AreNames names) :
    components (ofNames names) = names.map .name := by
  obtain ⟨first, rest, rfl⟩ := List.exists_cons_of_ne_nil hne
  have hspells := spells_ofNames hne h
  have hfirst : (parts (ofNames (first :: rest))).head? ≠ some [dot] := by
    rw [parts_ofNames hne h]
    simpa using (h first (by simp)).ne_dot
  rw [components_eq, hspells.relative, if_neg Bool.false_ne_true, if_neg hfirst, hspells.steps,
    List.nil_append]

/-- Behind any path, the empty one too, a path of names adds its names to the steps. -/
theorem components_join_ofNames (p : Path) {names : List Bytes} (hne : names ≠ [])
    (h : AreNames names) :
    components (join p (ofNames names)) = components p ++ names.map .name := by
  have hspells := spells_ofNames hne h
  by_cases hp : p = []
  · subst hp
    rw [join_ofNames [] h]
    exact components_ofNames hne h
  · rw [components_join hp hspells.relative, hspells.steps]

end Path

end PluginHost

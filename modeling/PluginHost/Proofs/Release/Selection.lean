import PluginHost.Release.Selection

/-!
# Which asset is chosen

The candidates for a system are the assets that name it and are no checksums (`IsCandidate`).  The
first candidate that also names the machine is chosen, or else the first candidate: two searches
through the same list, one behind the other (`select_eq`).

From the two searches follows what other assets can do.  Those that are no candidates make no
difference wherever they stand (`select_without`).  Those that are appended are chosen only where
nothing was, or in the place of an asset that does not name the machine (`select_append`).
-/

namespace PluginHost.Release

theorem occursIn_iff {α : Type} [BEq α] [LawfulBEq α] {part all : List α} :
    occursIn part all = true ↔ part <:+: all := by
  induction all with
  | nil => simp [occursIn]
  | cons a rest ih =>
      rw [occursIn, Bool.or_eq_true, List.isPrefixOf_iff_prefix, ih, List.infix_cons_iff]

/-- One of the words stands in the name of the asset, in any letter case. -/
def Asset.HasWord (a : Asset) (words : List String) : Prop :=
  ∃ word ∈ words, word.toList <:+: (Text.lowercase a.name).toList

/-- The asset names the system, and it is no checksum. -/
structure IsCandidate (system : String) (a : Asset) : Prop where
  hasWord : a.HasWord (systemWords system)
  noChecksum : ¬".sha256".toList <:+ (Text.lowercase a.name).toList

/-- The asset names the machine. -/
def IsMadeFor (machine : String) (a : Asset) : Prop := a.HasWord (machineWords machine)

/-- The asset is the first one with a property. -/
def IsFirst (P : Asset → Prop) (assets : List Asset) (a : Asset) : Prop :=
  ∃ before behind, assets = before ++ a :: behind ∧ P a ∧ ∀ b ∈ before, ¬P b

theorem Asset.names_iff {a : Asset} {words : List String} :
    a.names words = true ↔ a.HasWord words := by
  simp only [Asset.names, List.any_eq_true, occursIn_iff, Asset.HasWord, Asset.key]

theorem Asset.isChecksum_iff {a : Asset} :
    a.isChecksum = true ↔ ".sha256".toList <:+ (Text.lowercase a.name).toList := by
  rw [Asset.isChecksum, List.isPrefixOf_iff_prefix, List.reverse_prefix]
  rfl

theorem Asset.isFor_iff {a : Asset} {system : String} :
    a.isFor system = true ↔ IsCandidate system a := by
  rw [Asset.isFor, Bool.and_eq_true, Bool.not_eq_true', Asset.names_iff, ← Bool.not_eq_true,
    Asset.isChecksum_iff]
  exact ⟨fun ⟨hchecksum, hword⟩ => ⟨hword, hchecksum⟩, fun h => ⟨h.noChecksum, h.hasWord⟩⟩

theorem find?_eq_some_iff_isFirst {P : Asset → Prop} {p : Asset → Bool}
    (hp : ∀ a, p a = true ↔ P a) {assets : List Asset} {a : Asset} :
    assets.find? p = some a ↔ IsFirst P assets a := by
  simp only [List.find?_eq_some_iff_append, hp, IsFirst, Bool.not_eq_true', ← Bool.not_eq_true]
  constructor
  · rintro ⟨ha, before, behind, hsplit, hbefore⟩
    exact ⟨before, behind, hsplit, ha, hbefore⟩
  · rintro ⟨before, behind, hsplit, ha, hbefore⟩
    exact ⟨ha, before, behind, hsplit, hbefore⟩

/-- The asset is a candidate that names the machine. -/
def isBest (system machine : String) (a : Asset) : Bool :=
  a.isFor system && a.names (machineWords machine)

theorem isBest_iff {system machine : String} {a : Asset} :
    isBest system machine a = true ↔ IsCandidate system a ∧ IsMadeFor machine a := by
  rw [isBest, Bool.and_eq_true, Asset.isFor_iff, Asset.names_iff, IsMadeFor]

section Choice

variable (assets : List Asset) (system machine : String)

/-- Two searches: for a candidate that names the machine, and for a candidate. -/
theorem select_eq :
    select assets system machine =
      (assets.find? (isBest system machine)).or (assets.find? (·.isFor system)) := by
  have hbest : isBest system machine =
      fun a => decide (a.isFor system = true ∧ a.names (machineWords machine) = true) := by
    funext a
    rw [isBest, Bool.decide_and, Bool.decide_eq_true, Bool.decide_eq_true]
  rw [select, List.find?_filter, List.head?_filter, hbest]

theorem select_eq_some_iff {a : Asset} :
    select assets system machine = some a ↔
      IsFirst (fun b => IsCandidate system b ∧ IsMadeFor machine b) assets a ∨
        (∀ b ∈ assets, IsCandidate system b → ¬IsMadeFor machine b) ∧
          IsFirst (IsCandidate system) assets a := by
  have hnone : assets.find? (isBest system machine) = none ↔
      ∀ b ∈ assets, IsCandidate system b → ¬IsMadeFor machine b := by
    simp only [List.find?_eq_none, isBest_iff, not_and]
  rw [select_eq, Option.or_eq_some_iff, hnone, find?_eq_some_iff_isFirst fun _ => isBest_iff,
    find?_eq_some_iff_isFirst fun _ => Asset.isFor_iff]

theorem select_eq_none_iff :
    select assets system machine = none ↔ ∀ a ∈ assets, ¬IsCandidate system a := by
  rw [select_eq, Option.or_eq_none_iff, List.find?_eq_none, List.find?_eq_none]
  simp only [isBest_iff, Asset.isFor_iff]
  exact ⟨fun h => h.2, fun h => ⟨fun a ha hbest => h a ha hbest.1, h⟩⟩

variable {system machine}

/-- What is no candidate might as well be missing. -/
theorem select_without {others : List Asset} (hothers : ∀ b ∈ others, ¬IsCandidate system b)
    (before behind : List Asset) :
    select (before ++ others ++ behind) system machine = select (before ++ behind) system machine := by
  have hnone : others.filter (·.isFor system) = [] := by
    rw [List.filter_eq_nil_iff]
    exact fun b hb hfor => hothers b hb (Asset.isFor_iff.1 hfor)
  simp only [select, List.filter_append, hnone, List.append_nil]

/-- What is appended is chosen where nothing was, or in the place of an asset that does not name the
machine. -/
theorem select_append (more : List Asset) :
    select (assets ++ more) system machine = select assets system machine ∨
      ∃ b ∈ more, select (assets ++ more) system machine = some b ∧
        (select assets system machine = none ∨
          ∃ a, select assets system machine = some a ∧ ¬IsMadeFor machine a ∧
            IsMadeFor machine b) := by
  rw [select_eq assets, select_eq (assets ++ more), List.find?_append, List.find?_append]
  cases hbest : assets.find? (isBest system machine) with
  | some a => exact .inl rfl
  | none =>
      simp only [Option.none_or]
      cases hfirst : assets.find? (·.isFor system) with
      | some a =>
          have hother : ¬IsMadeFor machine a := by
            intro hmade
            have hfound := List.find?_some hfirst
            have hcandidate : IsCandidate system a := Asset.isFor_iff.1 hfound
            exact List.find?_eq_none.1 hbest a (List.mem_of_find?_eq_some hfirst)
              (isBest_iff.2 ⟨hcandidate, hmade⟩)
          cases hmore : more.find? (isBest system machine) with
          | none => exact .inl rfl
          | some b =>
              have hmade := (isBest_iff.1 (List.find?_some hmore)).2
              exact .inr ⟨b, List.mem_of_find?_eq_some hmore, rfl, .inr ⟨a, rfl, hother, hmade⟩⟩
      | none =>
          simp only [Option.none_or]
          cases hmore : (more.find? (isBest system machine)).or (more.find? (·.isFor system)) with
          | none => exact .inl rfl
          | some b =>
              refine .inr ⟨b, ?_, rfl, .inl trivial⟩
              rcases Option.or_eq_some_iff.1 hmore with hb | ⟨-, hb⟩
              · exact List.mem_of_find?_eq_some hb
              · exact List.mem_of_find?_eq_some hb

end Choice

/-- The first candidate for the system that names the machine is chosen, or the first candidate if
none does, and nothing exactly if there is no candidate.  So checksums, and assets that do not name
the system, make no difference wherever they stand; and appended assets change the choice only from
none, or from an asset that does not name the machine to one that does. -/
theorem select_ranked (assets : List Asset) (system machine : String) :
    (∀ a, select assets system machine = some a ↔
        IsFirst (fun b => IsCandidate system b ∧ IsMadeFor machine b) assets a ∨
          (∀ b ∈ assets, IsCandidate system b → ¬IsMadeFor machine b) ∧
            IsFirst (IsCandidate system) assets a) ∧
      (select assets system machine = none ↔ ∀ a ∈ assets, ¬IsCandidate system a) ∧
      (∀ before others behind, assets = before ++ others ++ behind →
        (∀ b ∈ others, ".sha256".toList <:+ (Text.lowercase b.name).toList ∨
          ¬b.HasWord (systemWords system)) →
        select assets system machine = select (before ++ behind) system machine) ∧
      ∀ more, select (assets ++ more) system machine = select assets system machine ∨
        ∃ b ∈ more, select (assets ++ more) system machine = some b ∧
          (select assets system machine = none ∨
            ∃ a, select assets system machine = some a ∧ ¬IsMadeFor machine a ∧
              IsMadeFor machine b) := by
  refine ⟨fun a => select_eq_some_iff assets system machine,
    select_eq_none_iff assets system machine, ?_, fun more => select_append assets more⟩
  rintro before others behind rfl hothers
  apply select_without
  intro b hb hcandidate
  rcases hothers b hb with hchecksum | hword
  · exact hcandidate.noChecksum hchecksum
  · exact hword hcandidate.hasWord

/-- Assets for two systems, with the checksum of one of them. -/
def publishedAssets : List Asset :=
  [⟨"foo_Linux_arm64", "", 0⟩, ⟨"foo_linux_amd64.SHA256", "", 0⟩, ⟨"foo_linux_amd64", "", 0⟩,
    ⟨"foo_darwin_amd64", "", 0⟩]

/-- Without the checksum in front of it, the asset that names system and machine is still chosen. -/
theorem select_ranked_published :
    select publishedAssets "linux" "x86_64" =
        select [⟨"foo_Linux_arm64", "", 0⟩, ⟨"foo_linux_amd64", "", 0⟩, ⟨"foo_darwin_amd64", "", 0⟩]
          "linux" "x86_64" ∧
      select publishedAssets "linux" "x86_64" = some ⟨"foo_linux_amd64", "", 0⟩ := by
  refine ⟨(select_ranked publishedAssets "linux" "x86_64").2.2.1 [⟨"foo_Linux_arm64", "", 0⟩]
    [⟨"foo_linux_amd64.SHA256", "", 0⟩] [⟨"foo_linux_amd64", "", 0⟩, ⟨"foo_darwin_amd64", "", 0⟩]
    rfl ?_, by decide +kernel⟩
  intro b hb
  rw [List.mem_singleton.1 hb]
  exact .inl (Asset.isChecksum_iff.1 (by decide +kernel))

end PluginHost.Release

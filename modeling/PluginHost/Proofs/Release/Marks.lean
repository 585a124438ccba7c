import Mathlib.Tactic.SplitIfs
import PluginHost.Proofs.Release.Selection

/-!
# Names that mark another system

The words for a system are looked for anywhere in the name of an asset.  A word marks the asset for
its system if it shares no character with a word for another system (`Asset.IsMarkedFor`).

Words for different systems can share characters in four ways (`sharings`): `darwin` ends as the
words for Windows start, and `freebsd` ends as `darwin` starts.  `exists_sharing` goes through all
pairs of words, once; from it `isMarkedFor_iff` reads off a word and what stands beside it whether
the asset is marked.

`select_marked_iff` says it of what is chosen.  The choice looks at the words alone, so an asset
such as `tool-darwin64` is chosen for Windows.
-/

namespace PluginHost.Release

/-- A word stands at a place of a text. -/
def StandsAt (word text : List Char) (i : Nat) : Prop :=
  ∃ before behind, text = before ++ word ++ behind ∧ before.length = i

/-- Two words at their places have no character in common. -/
def Apart (word : List Char) (i : Nat) (other : List Char) (j : Nat) : Prop :=
  i + word.length ≤ j ∨ j + other.length ≤ i

/-- A word for the system stands in the name of the asset and has no character in common with a word
for another system. -/
def Asset.IsMarkedFor (system : String) (a : Asset) : Prop :=
  ∃ word ∈ systemWords system, ∃ i, StandsAt word.toList (Text.lowercase a.name).toList i ∧
    ∀ other, other ≠ system → ∀ foreign ∈ systemWords other, ∀ j,
      StandsAt foreign.toList (Text.lowercase a.name).toList j →
        Apart word.toList i foreign.toList j

/-! ## Words that share characters -/

/-- A text that two words fill: the first is all but the rest, the second all but the front. -/
structure Sharing where
  front : String
  shared : String
  rest : String
  deriving DecidableEq

/-- The word that stands first. -/
def Sharing.first (s : Sharing) : String := s.front ++ s.shared

/-- The word that goes on behind it. -/
def Sharing.second (s : Sharing) : String := s.shared ++ s.rest

/-- The words for different systems that share characters. -/
def sharings : List Sharing :=
  [⟨"dar", "win", "dows"⟩, ⟨"dar", "win", "64"⟩, ⟨"dar", "win", "32"⟩, ⟨"freebs", "d", "arwin"⟩]

/-- What stands beside the word does not make a word for another system out of a part of it. -/
def StandsWhole (word : String) (before behind : List Char) : Prop :=
  ∀ s ∈ sharings, (word = s.first → ¬s.rest.toList <+: behind) ∧
    (word = s.second → ¬s.front.toList <:+ before)

instance (word : String) (before behind : List Char) : Decidable (StandsWhole word before behind) :=
  List.decidableBAll _ sharings

/-- The systems that have words. -/
def knownSystems : List String := ["linux", "macos", "windows", "freebsd"]

theorem mem_knownSystems {system word : String} (h : word ∈ systemWords system) :
    system ∈ knownSystems := by
  unfold systemWords at h
  simp only [beq_iff_eq] at h
  split_ifs at h with hlinux hmacos hwindows hfreebsd
  · simp [knownSystems, hlinux]
  · simp [knownSystems, hmacos]
  · simp [knownSystems, hwindows]
  · simp [knownSystems, hfreebsd]
  · cases h

/-- The pairs of words for different systems. -/
def foreignPairs : List (String × String) :=
  knownSystems.flatMap fun system => (knownSystems.filter (· != system)).flatMap fun other =>
    (systemWords system).flatMap fun word => (systemWords other).map fun foreign => (word, foreign)

theorem mem_foreignPairs {system other word foreign : String} (hne : other ≠ system)
    (hword : word ∈ systemWords system) (hforeign : foreign ∈ systemWords other) :
    (word, foreign) ∈ foreignPairs := by
  simp only [foreignPairs, List.mem_flatMap, List.mem_filter, List.mem_map, bne_iff_ne]
  exact ⟨system, mem_knownSystems hword, other, ⟨mem_knownSystems hforeign, hne⟩, word, hword,
    foreign, hforeign, rfl⟩

/-- From a place in a word on, another word agrees with it as far as both go.  Of words for different
systems, these are the ones that share characters. -/
theorem exists_sharing_of_agree : ∀ pair ∈ foreignPairs, ∀ d < pair.1.length,
    pair.1.toList.drop d <+: pair.2.toList ∨ pair.2.toList <+: pair.1.toList.drop d →
      ∃ s ∈ sharings, pair.1 = s.first ∧ pair.2 = s.second ∧ d = s.front.length := by
  decide +kernel

theorem sharings_foreign : ∀ s ∈ sharings, ∀ system ∈ knownSystems,
    (s.first ∈ systemWords system →
      ∃ other ∈ knownSystems, other ≠ system ∧ s.second ∈ systemWords other) ∧
    (s.second ∈ systemWords system →
      ∃ other ∈ knownSystems, other ≠ system ∧ s.first ∈ systemWords other) := by
  decide +kernel

theorem shared_ne_nil : ∀ s ∈ sharings, 0 < s.shared.toList.length := by
  decide +kernel

/-! ## Words in a name -/

/-- A word for another system that starts within a word goes on behind it, in one of the ways that
are known. -/
theorem exists_sharing {system other word foreign : String} (hne : other ≠ system)
    (hword : word ∈ systemWords system) (hforeign : foreign ∈ systemWords other)
    {before behind before' behind' : List Char}
    (htext : before ++ word.toList ++ behind = before' ++ foreign.toList ++ behind')
    (hle : before.length ≤ before'.length)
    (hlt : before'.length < before.length + word.toList.length) :
    ∃ s ∈ sharings, word = s.first ∧ foreign = s.second ∧ s.rest.toList <+: behind ∧
      s.front.toList <:+ before' := by
  rw [List.append_assoc, List.append_assoc] at htext
  obtain ⟨front, hfront⟩ : before <+: before' :=
    List.prefix_of_prefix_length_le (List.prefix_append ..) ⟨_, htext.symm⟩ hle
  subst hfront
  rw [List.append_assoc, List.append_cancel_left_eq] at htext
  rw [List.length_append] at hlt
  obtain ⟨more, hmore⟩ : front <+: word.toList :=
    List.prefix_of_prefix_length_le ⟨_, htext.symm⟩ (List.prefix_append ..) (by omega)
  rw [← hmore, List.append_assoc, List.append_cancel_left_eq] at htext
  have hdrop : word.toList.drop front.length = more := by
    rw [← hmore, List.drop_left]
  have hagree : more <+: foreign.toList ∨ foreign.toList <+: more :=
    List.prefix_or_prefix_of_prefix (List.prefix_append more behind)
      (htext ▸ List.prefix_append ..)
  have hplace : front.length < word.length := by
    rw [← String.length_toList]
    omega
  obtain ⟨s, hs, hfirst, hsecond, hlength⟩ :=
    exists_sharing_of_agree (word, foreign) (mem_foreignPairs hne hword hforeign) front.length
      hplace (hdrop ▸ hagree)
  dsimp only at hfirst hsecond
  rw [hfirst, Sharing.first, String.toList_append] at hmore
  rw [← String.length_toList] at hlength
  obtain ⟨hsame, hshared⟩ := List.append_inj hmore hlength
  rw [hsecond, Sharing.second, String.toList_append, hshared, List.append_assoc,
    List.append_cancel_left_eq] at htext
  exact ⟨s, hs, hfirst, hsecond, ⟨behind', htext.symm⟩, ⟨before, by rw [hsame]⟩⟩

/-- A word that shares no character with a word for another system stands whole: what would be drawn
together with it is such a word, and shares characters with it. -/
theorem standsWhole_of_apart {system word : String} (hword : word ∈ systemWords system)
    {before behind : List Char}
    (hapart : ∀ other, other ≠ system → ∀ foreign ∈ systemWords other, ∀ j,
      StandsAt foreign.toList (before ++ word.toList ++ behind) j →
        Apart word.toList before.length foreign.toList j) : StandsWhole word before behind := by
  intro s hs
  have hshared := shared_ne_nil s hs
  obtain ⟨hsecond, hfirst⟩ := sharings_foreign s hs system (mem_knownSystems hword)
  constructor
  · intro heq hrest
    subst heq
    obtain ⟨behind', rfl⟩ := hrest
    obtain ⟨other, -, hne, hforeign⟩ := hsecond hword
    have hstands : StandsAt s.second.toList
        (before ++ s.first.toList ++ (s.rest.toList ++ behind'))
        (before ++ s.front.toList).length :=
      ⟨_, behind', by simp [Sharing.first, Sharing.second], rfl⟩
    have hclear := hapart other hne s.second hforeign _ hstands
    simp only [Apart, Sharing.first, Sharing.second, String.toList_append,
      List.length_append] at hclear
    omega
  · intro heq hfront
    subst heq
    obtain ⟨before', rfl⟩ := hfront
    obtain ⟨other, -, hne, hforeign⟩ := hfirst hword
    have hstands : StandsAt s.first.toList
        (before' ++ s.front.toList ++ s.second.toList ++ behind) before'.length :=
      ⟨before', s.rest.toList ++ behind, by simp [Sharing.first, Sharing.second], rfl⟩
    have hclear := hapart other hne s.first hforeign _ hstands
    simp only [Apart, Sharing.first, Sharing.second, String.toList_append,
      List.length_append] at hclear
    omega

/-- A word that stands whole shares no character with a word for another system.  Whichever of the
two starts first, the other one does not start within it. -/
theorem apart_of_standsWhole {system other word foreign : String} (hne : other ≠ system)
    (hword : word ∈ systemWords system) (hforeign : foreign ∈ systemWords other)
    {before behind before' behind' : List Char}
    (htext : before ++ word.toList ++ behind = before' ++ foreign.toList ++ behind')
    (hwhole : StandsWhole word before behind) :
    Apart word.toList before.length foreign.toList before'.length := by
  unfold Apart
  by_cases hle : before.length ≤ before'.length
  · by_cases hlt : before'.length < before.length + word.toList.length
    · exfalso
      obtain ⟨s, hs, hfirst, -, hrest, -⟩ := exists_sharing hne hword hforeign htext hle hlt
      exact (hwhole s hs).1 hfirst hrest
    · omega
  · by_cases hlt : before.length < before'.length + foreign.toList.length
    · exfalso
      obtain ⟨s, hs, -, hsecond, -, hfront⟩ :=
        exists_sharing hne.symm hforeign hword htext.symm (by omega) hlt
      exact (hwhole s hs).2 hsecond hfront
    · omega

/-- An asset is marked for a system exactly if a word for the system stands whole in its name. -/
theorem isMarkedFor_iff {system : String} {a : Asset} :
    a.IsMarkedFor system ↔ ∃ word ∈ systemWords system, ∃ before behind,
      (Text.lowercase a.name).toList = before ++ word.toList ++ behind ∧
        StandsWhole word before behind := by
  constructor
  · intro h
    obtain ⟨word, hword, i, ⟨before, behind, htext, rfl⟩, hclear⟩ := h
    rw [htext] at hclear
    exact ⟨word, hword, before, behind, htext, standsWhole_of_apart hword hclear⟩
  · intro h
    obtain ⟨word, hword, before, behind, htext, hwhole⟩ := h
    refine ⟨word, hword, before.length, ⟨before, behind, htext, rfl⟩, ?_⟩
    intro other hne foreign hforeign j hstands
    obtain ⟨before', behind', htext', rfl⟩ := hstands
    exact apart_of_standsWhole hne hword hforeign (htext.symm.trans htext') hwhole

/-- The places of a name can be gone through one by one. -/
theorem isMarkedFor_iff_places {system : String} {a : Asset} :
    a.IsMarkedFor system ↔ ∃ word ∈ systemWords system, ∃ i ≤ (Text.lowercase a.name).toList.length,
      word.toList <+: (Text.lowercase a.name).toList.drop i ∧
        StandsWhole word ((Text.lowercase a.name).toList.take i)
          ((Text.lowercase a.name).toList.drop (i + word.toList.length)) := by
  rw [isMarkedFor_iff]
  constructor
  · intro h
    obtain ⟨word, hword, before, behind, htext, hwhole⟩ := h
    refine ⟨word, hword, before.length, ?_⟩
    rw [htext, ← List.length_append, List.drop_left, List.append_assoc, List.drop_left,
      List.take_left, List.length_append]
    exact ⟨Nat.le_add_right .., List.prefix_append .., hwhole⟩
  · intro h
    obtain ⟨word, hword, i, -, ⟨behind, hbehind⟩, hwhole⟩ := h
    refine ⟨word, hword, (Text.lowercase a.name).toList.take i, behind, ?_, ?_⟩
    · rw [List.append_assoc, hbehind, List.take_append_drop]
    · rwa [← List.drop_drop, ← hbehind, List.drop_left] at hwhole

instance (system : String) (a : Asset) : Decidable (a.IsMarkedFor system) :=
  decidable_of_iff' _ isMarkedFor_iff_places

/-! ## What is chosen -/

/-- A name in which a word shares characters with a word for another system holds both, one behind
the other. -/
theorem infix_of_not_standsWhole {word : String} {before behind : List Char}
    (h : ¬StandsWhole word before behind) :
    ∃ s ∈ sharings, (s.front ++ s.shared ++ s.rest).toList <:+: before ++ word.toList ++ behind := by
  simp only [StandsWhole, Classical.not_forall, Classical.not_and_iff_not_or_not,
    Classical.not_not, exists_prop] at h
  obtain ⟨s, hs, ⟨heq, behind', hrest⟩ | ⟨heq, before', hfront⟩⟩ := h
  · refine ⟨s, hs, before, behind', ?_⟩
    simp [heq, ← hrest, Sharing.first]
  · refine ⟨s, hs, before', behind, ?_⟩
    simp [heq, ← hfront, Sharing.second]

theorem first_second_ne_linux : ∀ s ∈ sharings, s.first ≠ "linux" ∧ s.second ≠ "linux" := by
  decide +kernel

/-- Whether the chosen asset is marked for the system.  It is exactly if a word for the system stands
in its name whole, that is without being drawn into a word for another system by what stands beside
it.  For Linux it always is.  For another system it is unless its name holds one of four texts, in
which words for different systems share characters. -/
theorem select_marked_iff {assets : List Asset} {system machine : String} {a : Asset}
    (h : select assets system machine = some a) :
    (a.IsMarkedFor system ↔ ∃ word ∈ systemWords system, ∃ before behind,
        (Text.lowercase a.name).toList = before ++ word.toList ++ behind ∧
          StandsWhole word before behind) ∧
      (system = "linux" → a.IsMarkedFor system) ∧
      (¬a.IsMarkedFor system → ∃ s ∈ sharings,
        (s.front ++ s.shared ++ s.rest).toList <:+: (Text.lowercase a.name).toList) := by
  have hcandidate : IsCandidate system a := by
    rcases (select_eq_some_iff assets system machine).1 h with hbest | ⟨-, hfirst⟩
    · obtain ⟨_, _, _, hchosen, _⟩ := hbest
      exact hchosen.1
    · obtain ⟨_, _, _, hchosen, _⟩ := hfirst
      exact hchosen
  obtain ⟨word, hword, before, behind, htext⟩ := hcandidate.hasWord
  have hmarked : StandsWhole word before behind → a.IsMarkedFor system := fun hwhole =>
    isMarkedFor_iff.2 ⟨word, hword, before, behind, htext.symm, hwhole⟩
  refine ⟨isMarkedFor_iff, fun hlinux => ?_, fun hunmarked => ?_⟩
  · apply hmarked
    intro s hs
    rw [hlinux] at hword
    obtain rfl : word = "linux" := List.mem_singleton.1 hword
    obtain ⟨hfirst, hsecond⟩ := first_second_ne_linux s hs
    exact ⟨fun heq => absurd heq.symm hfirst, fun heq => absurd heq.symm hsecond⟩
  · rw [← htext]
    exact infix_of_not_standsWhole (mt hmarked hunmarked)

/-- An asset for another system is chosen: what names Windows in it is a part of `darwin64`. -/
theorem select_marked_darwin64 :
    select [⟨"tool-darwin64", "", 0⟩] "windows" "x86_64" = some ⟨"tool-darwin64", "", 0⟩ ∧
      ¬(⟨"tool-darwin64", "", 0⟩ : Asset).IsMarkedFor "windows" ∧
      ∃ s ∈ sharings, (s.front ++ s.shared ++ s.rest).toList <:+:
        (Text.lowercase "tool-darwin64").toList := by
  have hchosen : select [⟨"tool-darwin64", "", 0⟩] "windows" "x86_64" =
      some ⟨"tool-darwin64", "", 0⟩ := by
    decide +kernel
  have hunmarked : ¬(⟨"tool-darwin64", "", 0⟩ : Asset).IsMarkedFor "windows" := by
    decide +kernel
  exact ⟨hchosen, hunmarked, (select_marked_iff hchosen).2.2 hunmarked⟩

end PluginHost.Release

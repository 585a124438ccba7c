import Mathlib.Data.String.Basic
import Mathlib.Tactic.SplitIfs
import PluginHost.Json.Value

/-!
# Members in the order of their keys

Putting a member behind all others leaves them in order, so members that are in order already stay
as they are (`membersOf_of_pairwise`).  Whatever is put into such a list goes to its place
(`pairwise_insertMember`), so every list of members is brought into order (`pairwise_membersOf`).
-/

namespace PluginHost.Json

variable {α : Type}

/-- A key behind all others is put behind them. -/
theorem insertMember_of_lt {key : String} {value : α} {members : List (String × α)}
    (h : ∀ m ∈ members, m.1 < key) :
    insertMember key value members = members ++ [(key, value)] := by
  induction members with
  | nil => rfl
  | cons m members ih =>
      obtain ⟨k, v⟩ := m
      have hk : k < key := h (k, v) (by simp)
      have hne : ¬(key == k) = true := by
        intro heq
        rw [beq_iff_eq.1 heq] at hk
        exact String.lt_irrefl k hk
      rw [insertMember, if_neg hne, if_neg (String.lt_asymm hk),
        ih (fun m hm => h m (by simp [hm])), List.cons_append]

/-- Members behind others, with all their keys in order, are put behind them one after the other. -/
theorem foldl_insertMember (before members : List (String × α))
    (hkeys : ((before ++ members).map (·.1)).Pairwise (· < ·)) :
    members.foldl (fun acc (k, v) => insertMember k v acc) before = before ++ members := by
  induction members generalizing before with
  | nil => simp
  | cons m members ih =>
      have hlast : ∀ k ∈ before, k.1 < m.1 := by
        intro k hk
        rw [List.map_append, List.map_cons, List.pairwise_append] at hkeys
        exact hkeys.2.2 k.1 (List.mem_map_of_mem hk) m.1 (by simp)
      have hmore := ih (before ++ [m]) (by simpa using hkeys)
      have hput : insertMember m.1 m.2 before = before ++ [m] := insertMember_of_lt hlast
      simp only [List.foldl_cons]
      rw [hput, hmore, List.append_assoc, List.cons_append, List.nil_append]

/-- Members with their keys in order are left in their order. -/
theorem membersOf_of_pairwise {members : List (String × α)}
    (hkeys : (members.map (·.1)).Pairwise (· < ·)) : membersOf members = members := by
  have hfold := foldl_insertMember [] members (by simpa using hkeys)
  rwa [List.nil_append] at hfold

theorem mem_keys_insertMember {key k : String} {value : α} {members : List (String × α)}
    (h : k ∈ (insertMember key value members).map (·.1)) : k = key ∨ k ∈ members.map (·.1) := by
  induction members with
  | nil => exact .inl (by simpa [insertMember] using h)
  | cons m members ih =>
      obtain ⟨l, v⟩ := m
      rw [insertMember] at h
      split_ifs at h with heq hlt
      · rw [List.map_cons, List.mem_cons] at h
        exact h.imp_right fun hmem => List.mem_cons_of_mem _ hmem
      · rwa [List.map_cons, List.mem_cons] at h
      · rw [List.map_cons, List.mem_cons] at h
        rcases h with rfl | hmem
        · exact .inr (by simp)
        · exact (ih hmem).imp_right fun hmem => List.mem_cons_of_mem _ hmem

/-- Keys in order stay in order. -/
theorem pairwise_insertMember (key : String) (value : α) {members : List (String × α)}
    (hkeys : (members.map (·.1)).Pairwise (· < ·)) :
    ((insertMember key value members).map (·.1)).Pairwise (· < ·) := by
  induction members with
  | nil => simp [insertMember]
  | cons m members ih =>
      obtain ⟨k, v⟩ := m
      have hall := hkeys
      rw [List.map_cons, List.pairwise_cons] at hkeys
      obtain ⟨hfirst, hrest⟩ := hkeys
      rw [insertMember]
      split_ifs with heq hlt
      · rw [beq_iff_eq.1 heq]
        exact hall
      · rw [List.map_cons, List.pairwise_cons]
        refine ⟨fun l hl => ?_, hall⟩
        rw [List.map_cons, List.mem_cons] at hl
        rcases hl with rfl | hl
        · exact hlt
        · exact String.lt_trans hlt (hfirst l hl)
      · have hbehind : k < key := by
          rcases lt_trichotomy k key with h | h | h
          · exact h
          · exact absurd (beq_iff_eq.2 h.symm) heq
          · exact absurd h hlt
        rw [List.map_cons, List.pairwise_cons]
        refine ⟨fun l hl => ?_, ih hrest⟩
        rcases mem_keys_insertMember hl with rfl | hl
        · exact hbehind
        · exact hfirst l hl

theorem pairwise_membersOf (members : List (String × α)) :
    ((membersOf members).map (·.1)).Pairwise (· < ·) := by
  have hfold : ∀ before : List (String × α), (before.map (·.1)).Pairwise (· < ·) →
      ((members.foldl (fun acc (k, v) => insertMember k v acc) before).map (·.1)).Pairwise
        (· < ·) := by
    induction members with
    | nil => exact fun _ h => h
    | cons m members ih => exact fun before h => ih _ (pairwise_insertMember m.1 m.2 h)
  exact hfold [] .nil

/-- The members of other keys than one. -/
theorem member?_filter (key other : String) (members : List (String × α)) :
    member? other (members.filter (·.1 != key)) =
      if other = key then none else member? other members := by
  induction members with
  | nil => simp [member?]
  | cons m members ih =>
      obtain ⟨k, v⟩ := m
      by_cases hk : k = key
      · subst hk
        rw [List.filter_cons_of_neg (by simp), ih, member?]
        split_ifs with hother heq
        · rfl
        · exact absurd (beq_iff_eq.1 heq).symm hother
        · rfl
      · rw [List.filter_cons_of_pos (by simpa using hk), member?, member?, ih]
        split_ifs with heq hother
        · exact absurd ((beq_iff_eq.1 heq).trans hother) hk
        · rfl
        · rfl
        · rfl

end PluginHost.Json

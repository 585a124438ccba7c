import PluginHost.Text.Numeral
import PluginHost.Toml.Reader

/-!
# The numbers of a TOML document

A document holds no number above the largest signed one of 64 bits, at whatever place
(`parse?_bounded`).

`Value.Bounded` says so of a value and all values in it, `Node.Bounded` of what stands at a key
while the document is read.  There are three layers, each with one lemma for each function: changing
the tree of tables (`changeAt_bounded`, `assign_bounded`), reading a value (`readValue_bounded`),
and reading the lines (`readLines_bounded`).
-/

namespace PluginHost.Toml

open Text

/-- No number of the value is too large. -/
inductive Value.Bounded : Value → Prop where
  | string {s : String} : Bounded (.string s)
  | integer {i : Int} : i ≤ maxInt64 → Bounded (.integer i)
  | float : Bounded .float
  | boolean {b : Bool} : Bounded (.boolean b)
  | datetime {text : String} : Bounded (.datetime text)
  | array {items : List Value} : (∀ v ∈ items, Bounded v) → Bounded (.array items)
  | table {members : List (String × Value)} :
      (∀ m ∈ members, Bounded m.2) → Bounded (.table members)

/-- No number below the node is too large. -/
inductive Node.Bounded : Node → Prop where
  | value {v : Value} : v.Bounded → Bounded (.value v)
  | table {origin : Origin} {members : List (String × Node)} :
      (∀ m ∈ members, Bounded m.2) → Bounded (.table origin members)
  | tables {elements : List (List (String × Node))} :
      (∀ e ∈ elements, ∀ m ∈ e, Bounded m.2) → Bounded (.tables elements)

/-- No number of the members is too large. -/
def Members.Bounded (members : Members) : Prop := ∀ m ∈ members, m.2.Bounded

/-! ## The tree of tables -/

theorem bounded_nil : Members.Bounded [] := fun _ hm => absurd hm List.not_mem_nil

theorem find?_bounded {key : String} {members : Members} {n : Node} (h : members.Bounded)
    (hfind : find? key members = some n) : n.Bounded := by
  induction members with
  | nil => cases hfind
  | cons m rest ih =>
      rw [Members.Bounded, List.forall_mem_cons] at h
      rw [find?] at hfind
      split at hfind
      · cases hfind
        exact h.1
      · exact ih h.2 hfind

theorem put_bounded {key : String} {members : Members} {n : Node} (h : members.Bounded)
    (hn : n.Bounded) : (put key n members).Bounded := by
  induction members with
  | nil => exact List.forall_mem_singleton.2 hn
  | cons m rest ih =>
      rw [Members.Bounded, List.forall_mem_cons] at h
      rw [put]
      split
      · exact List.forall_mem_cons.2 ⟨hn, h.2⟩
      · exact List.forall_mem_cons.2 ⟨h.1, ih h.2⟩

/-- Repeated tables whose last one has been changed. -/
theorem tables_bounded {elements before : List (List (String × Node))} {last last' : Members}
    (h : (Node.tables elements).Bounded) (hreverse : elements.reverse = last :: before)
    (hlast : last.Bounded → last'.Bounded) :
    (Node.tables (before.reverse ++ [last'])).Bounded := by
  cases h with
  | tables helements =>
      rw [← List.reverse_reverse elements, hreverse, List.reverse_cons] at helements
      refine .tables fun e he => ?_
      rcases List.mem_append.1 he with he | he
      · exact helements e (List.mem_append_left _ he)
      · rw [List.mem_singleton] at he
        exact he ▸ hlast (helements last (by simp))

theorem changeAt_bounded {change : Members → Option Members}
    (hchange : ∀ m m', change m = some m' → m.Bounded → m'.Bounded) {path : List String}
    {members members' : Members} (h : members.Bounded)
    (hrun : changeAt change path members = some members') : members'.Bounded := by
  induction path generalizing members members' with
  | nil => exact hchange _ _ hrun h
  | cons key path ih =>
      rw [changeAt] at hrun
      split at hrun
      · obtain ⟨inner, hinner, ⟨⟩⟩ := Option.bind_eq_some_iff.1 hrun
        exact put_bounded h (.table (ih bounded_nil hinner))
      · cases hrun
      · rename_i origin inner hfind
        obtain ⟨inner', hinner, ⟨⟩⟩ := Option.bind_eq_some_iff.1 hrun
        cases find?_bounded h hfind with
        | table hmembers => exact put_bounded h (.table (ih hmembers hinner))
      · rename_i elements hfind
        split at hrun
        · cases hrun
        · rename_i last before hreverse
          obtain ⟨last', hlast, ⟨⟩⟩ := Option.bind_eq_some_iff.1 hrun
          exact put_bounded h (tables_bounded (find?_bounded h hfind) hreverse (ih · hlast))

theorem setNew_bounded {key : String} {v : Value} {members members' : Members} (hv : v.Bounded)
    (h : members.Bounded) (hrun : setNew key v members = some members') : members'.Bounded := by
  rw [setNew] at hrun
  split at hrun
  · cases hrun
    exact put_bounded h (.value hv)
  · cases hrun

theorem assign_bounded {key : String} {v : Value} (hv : v.Bounded) {path : List String}
    {members members' : Members} (h : members.Bounded)
    (hrun : assign key v path members = some members') : members'.Bounded := by
  induction path generalizing members members' with
  | nil => exact setNew_bounded hv h hrun
  | cons first path ih =>
      rw [assign] at hrun
      split at hrun
      · obtain ⟨inner, hinner, ⟨⟩⟩ := Option.bind_eq_some_iff.1 hrun
        exact put_bounded h (.table (ih bounded_nil hinner))
      · rename_i inner hfind
        obtain ⟨inner', hinner, ⟨⟩⟩ := Option.bind_eq_some_iff.1 hrun
        cases find?_bounded h hfind with
        | table hmembers => exact put_bounded h (.table (ih hmembers hinner))
      · rename_i inner hfind
        split at hrun
        · cases hrun
        · obtain ⟨inner', hinner, ⟨⟩⟩ := Option.bind_eq_some_iff.1 hrun
          cases find?_bounded h hfind with
          | table hmembers => exact put_bounded h (.table (ih hmembers hinner))
      · rename_i elements hfind
        split at hrun
        · rename_i last before hreverse
          split at hrun
          · cases hrun
          · obtain ⟨last', hlast, ⟨⟩⟩ := Option.bind_eq_some_iff.1 hrun
            exact put_bounded h (tables_bounded (find?_bounded h hfind) hreverse (ih · hlast))
        · cases hrun
      · cases hrun

theorem openTable_bounded {key : String} {members members' : Members}
    (hrun : openTable key members = some members') (h : members.Bounded) : members'.Bounded := by
  rw [openTable] at hrun
  split at hrun
  · cases hrun
    exact put_bounded h (.table bounded_nil)
  · rename_i inner hfind
    cases hrun
    cases find?_bounded h hfind with
    | table hmembers => exact put_bounded h (.table hmembers)
  · cases hrun

theorem addTable_bounded {key : String} {members members' : Members}
    (hrun : addTable key members = some members') (h : members.Bounded) : members'.Bounded := by
  rw [addTable] at hrun
  split at hrun
  · cases hrun
    exact put_bounded h (.tables (List.forall_mem_singleton.2 bounded_nil))
  · rename_i elements hfind
    cases hrun
    cases find?_bounded h hfind with
    | tables helements =>
        refine put_bounded h (.tables fun e he => ?_)
        rcases List.mem_append.1 he with he | he
        · exact helements e he
        · rw [List.mem_singleton] at he
          exact he ▸ bounded_nil
  · cases hrun

mutual

theorem toValue_bounded : ∀ {n : Node}, n.Bounded → n.toValue.Bounded
  | .value _, .value hv => hv
  | .table _ _, .table h => .table (valuesOf_bounded h)
  | .tables _, .tables h => .array (tablesOf_bounded h)

theorem valuesOf_bounded : ∀ {members : List (String × Node)},
    (∀ m ∈ members, m.2.Bounded) → ∀ m ∈ valuesOf members, m.2.Bounded
  | [], _ => fun _ hm => absurd hm List.not_mem_nil
  | (k, n) :: rest, h => List.forall_mem_cons.2
      ⟨toValue_bounded (h (k, n) (by simp)), valuesOf_bounded fun m hm => h m (by simp [hm])⟩

theorem tablesOf_bounded : ∀ {elements : List (List (String × Node))},
    (∀ e ∈ elements, ∀ m ∈ e, m.2.Bounded) → ∀ v ∈ tablesOf elements, v.Bounded
  | [], _ => fun _ hv => absurd hv List.not_mem_nil
  | members :: rest, h => List.forall_mem_cons.2
      ⟨.table (valuesOf_bounded (h members (by simp))),
        tablesOf_bounded fun e he => h e (by simp [he])⟩

end

/-! ## Values -/

theorem inRange_le {i j : Int} (h : inRange i = some j) : j ≤ maxInt64 := by
  unfold inRange at h
  split at h
  · rename_i hrange
    cases h
    rw [Bool.and_eq_true, decide_eq_true_eq, decide_eq_true_eq] at hrange
    exact hrange.2
  · cases h

theorem integer?_le {cs : List Char} {i : Int} (h : integer? cs = some i) : i ≤ maxInt64 := by
  unfold integer? at h
  split at h <;>
  · obtain ⟨n, -, hn⟩ := Option.bind_eq_some_iff.1 h
    exact inRange_le hn

theorem scalar?_bounded {cs : List Char} {v : Value} (h : scalar? cs = some v) : v.Bounded := by
  unfold scalar? at h
  split at h
  · cases h
    exact .boolean
  · split at h
    · cases h
      exact .boolean
    · split at h
      · rename_i i hi
        cases h
        exact .integer (integer?_le hi)
      · split at h
        · cases h
          exact .datetime
        · split at h
          · cases h
            exact .float
          · cases h

/-- Whatever the reader gives holds no number that is too large. -/
def Reader.Bounded (item : Reader Value) : Prop :=
  ∀ cs v rest, item cs = some (v, rest) → v.Bounded

theorem readScalar_bounded : Reader.Bounded readScalar := by
  intro cs v rest h
  have halone : ∀ run behind, (scalar? run).map (·, behind) = some (v, rest) → v.Bounded := by
    intro run behind hrun
    obtain ⟨w, hw, hpair⟩ := Option.map_eq_some_iff.1 hrun
    cases hpair
    exact scalar?_bounded hw
  unfold readScalar at h
  dsimp only at h
  split at h
  · split at h
    · cases h
      exact .datetime
    · exact halone _ _ h
  · exact halone _ _ h

theorem arrayItems_bounded {item : Reader Value} (hitem : Reader.Bounded item) {fuel : Nat}
    {cs rest : List Char} {items : List Value} (h : arrayItems item fuel cs = some (items, rest)) :
    ∀ v ∈ items, v.Bounded := by
  induction fuel generalizing cs items with
  | zero => cases h
  | succ fuel ih =>
      obtain ⟨start, -, h⟩ := Option.bind_eq_some_iff.1 h
      split at h
      · cases h
        exact fun v hv => absurd hv List.not_mem_nil
      · obtain ⟨⟨v, behind⟩, hv, h⟩ := Option.bind_eq_some_iff.1 h
        obtain ⟨next, -, h⟩ := Option.bind_eq_some_iff.1 h
        split at h
        · obtain ⟨⟨more, after⟩, hmore, h⟩ := Option.bind_eq_some_iff.1 h
          cases h
          exact List.forall_mem_cons.2 ⟨hitem _ _ _ hv, ih hmore⟩
        · cases h
          exact List.forall_mem_singleton.2 (hitem _ _ _ hv)
        · cases h

theorem inlineMembers_bounded {item : Reader Value} (hitem : Reader.Bounded item) {fuel : Nat}
    {members members' : Members} {cs rest : List Char} (hmembers : members.Bounded)
    (h : inlineMembers item fuel members cs = some (members', rest)) : members'.Bounded := by
  induction fuel generalizing members cs with
  | zero => cases h
  | succ fuel ih =>
      obtain ⟨⟨⟨path, key⟩, behind⟩, -, h⟩ := Option.bind_eq_some_iff.1 h
      dsimp only at h
      split at h
      · obtain ⟨⟨v, behind⟩, hv, h⟩ := Option.bind_eq_some_iff.1 h
        obtain ⟨next, hassign, h⟩ := Option.bind_eq_some_iff.1 h
        have hnext := assign_bounded (hitem _ _ _ hv) hmembers hassign
        split at h
        · exact ih hnext h
        · cases h
          exact hnext
        · cases h
      · cases h

theorem readValue_bounded (levels : Nat) : Reader.Bounded (readValue levels) := by
  -- Arrays and inline tables are read with the readers of fewer levels.
  induction levels using Nat.strongRecOn with
  | ind levels ih =>
      intro cs v rest h
      unfold readValue at h
      split at h
      · obtain ⟨s, -, hs⟩ := Option.bind_eq_some_iff.1 h
        cases hs
        exact .string
      · obtain ⟨s, -, hs⟩ := Option.bind_eq_some_iff.1 h
        cases hs
        exact .string
      · split at h
        · cases h
        · rename_i lower
          obtain ⟨items, hitems, hv⟩ := Option.bind_eq_some_iff.1 h
          cases hv
          exact .array (arrayItems_bounded (ih lower (Nat.lt_succ_self lower)) hitems)
      · split at h
        · cases h
        · rename_i lower
          split at h
          · cases h
            exact .table fun _ hm => absurd hm List.not_mem_nil
          · obtain ⟨members, hmembers, hv⟩ := Option.bind_eq_some_iff.1 h
            cases hv
            exact .table (valuesOf_bounded
              (inlineMembers_bounded (ih lower (Nat.lt_succ_self lower)) bounded_nil hmembers))
      · exact readScalar_bounded _ _ _ h

/-! ## Documents -/

theorem header_bounded {doc doc' : Document} {cs rest : List Char} (hdoc : doc.root.Bounded)
    (h : header doc cs = some (doc', rest)) : doc'.root.Bounded := by
  unfold header at h
  split at h
  · obtain ⟨⟨⟨path, key⟩, behind⟩, -, h⟩ := Option.bind_eq_some_iff.1 h
    dsimp only at h
    split at h
    · obtain ⟨root, hroot, h⟩ := Option.bind_eq_some_iff.1 h
      obtain ⟨next, -, h⟩ := Option.bind_eq_some_iff.1 h
      cases h
      exact changeAt_bounded (fun _ _ => addTable_bounded) hdoc hroot
    · cases h
  · obtain ⟨⟨⟨path, key⟩, behind⟩, -, h⟩ := Option.bind_eq_some_iff.1 h
    dsimp only at h
    split at h
    · obtain ⟨root, hroot, h⟩ := Option.bind_eq_some_iff.1 h
      obtain ⟨next, -, h⟩ := Option.bind_eq_some_iff.1 h
      cases h
      exact changeAt_bounded (fun _ _ => openTable_bounded) hdoc hroot
    · cases h

theorem assignment_bounded {doc doc' : Document} {cs rest : List Char} (hdoc : doc.root.Bounded)
    (h : assignment doc cs = some (doc', rest)) : doc'.root.Bounded := by
  obtain ⟨⟨⟨path, key⟩, behind⟩, -, h⟩ := Option.bind_eq_some_iff.1 h
  dsimp only at h
  split at h
  · obtain ⟨⟨v, behind⟩, hv, h⟩ := Option.bind_eq_some_iff.1 h
    obtain ⟨next, -, h⟩ := Option.bind_eq_some_iff.1 h
    obtain ⟨root, hroot, h⟩ := Option.bind_eq_some_iff.1 h
    cases h
    exact changeAt_bounded
      (fun _ _ hassign hmembers => assign_bounded (readValue_bounded _ _ _ _ hv) hmembers hassign)
      hdoc hroot
  · cases h

theorem readLines_bounded {fuel : Nat} {doc final : Document} {cs : List Char}
    (hdoc : doc.root.Bounded) (h : readLines fuel doc cs = some final) : final.root.Bounded := by
  induction fuel generalizing doc cs with
  | zero => cases h
  | succ fuel ih =>
      rw [readLines] at h
      split at h
      · cases h
        exact hdoc
      · obtain ⟨rest, -, h⟩ := Option.bind_eq_some_iff.1 h
        exact ih hdoc h
      · exact ih hdoc h
      · obtain ⟨rest, -, h⟩ := Option.bind_eq_some_iff.1 h
        exact ih hdoc h
      · obtain ⟨⟨next, rest⟩, hheader, h⟩ := Option.bind_eq_some_iff.1 h
        exact ih (header_bounded hdoc hheader) h
      · obtain ⟨⟨next, rest⟩, hassignment, h⟩ := Option.bind_eq_some_iff.1 h
        exact ih (assignment_bounded hdoc hassignment) h

/-- No number in a document is too large. -/
theorem parse?_bounded {s : String} {members : List (String × Value)}
    (h : parse? s = some members) : ∀ m ∈ members, m.2.Bounded := by
  obtain ⟨doc, hdoc, hmembers⟩ := Option.bind_eq_some_iff.1 h
  cases hmembers
  exact valuesOf_bounded (readLines_bounded bounded_nil hdoc)

end PluginHost.Toml

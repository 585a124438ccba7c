import PluginHost.Proofs.Json.Values

/-!
# What a JSON text is read as

Whatever stands in a text, the value that is read of it could have been written: its whole numbers
have 64 bits, its keys are in order, and it is nested no deeper than reading goes.  Unless it holds a
number with a fraction, it is therefore read back (`readsBack_of_readValue`).

* Numbers.  A number that is kept exactly comes from digits that have been taken one by one
  (`takeDigits_le`); everything behind a point or an exponent is a fraction.
* Lists and objects.  `readItems_forall` and `readMembers_keeps` carry what holds of one item, or is
  kept by one member, to all of them.
* Records.  `read_keeps` does so for the fields of a record, in an object as in a list.
-/

namespace PluginHost.Json

open PluginHost.Decimal PluginHost.Text

/-! ## Values without fractions -/

/-- No number in the value has a fraction. -/
inductive Value.IsWhole : Value → Prop where
  | null : IsWhole .null
  | bool (b : Bool) : IsWhole (.bool b)
  | integer (i : Int) : IsWhole (.number (.integer i))
  | string (s : String) : IsWhole (.string s)
  | array {items : List Value} (hitems : ∀ v ∈ items, IsWhole v) : IsWhole (.array items)
  | object {members : List (String × Value)} (hmembers : ∀ m ∈ members, IsWhole m.2) :
      IsWhole (.object members)

/-- A value of the data format: whole numbers fit into 64 bits, with a sign or without, and objects
have their keys in order, each of them once. -/
inductive Value.Proper : Value → Prop where
  | null : Proper .null
  | bool (b : Bool) : Proper (.bool b)
  | integer {i : Int} (hlow : -(maxInt64 + 1 : Int) ≤ i) (hhigh : i ≤ maxUInt64) :
      Proper (.number (.integer i))
  | fraction (x : Double) : Proper (.number (.fraction x))
  | string (s : String) : Proper (.string s)
  | array {items : List Value} (hitems : ∀ v ∈ items, Proper v) : Proper (.array items)
  | object {members : List (String × Value)} (hkeys : (members.map (·.1)).Pairwise (· < ·))
      (hmembers : ∀ m ∈ members, Proper m.2) : Proper (.object members)

mutual

/-- How deep lists and objects are nested in a value. -/
def Value.depth : Value → Nat
  | .array items => itemsDepth items + 1
  | .object members => membersDepth members + 1
  | _ => 0

/-- The depth of the deepest item. -/
def itemsDepth : List Value → Nat
  | [] => 0
  | v :: rest => max v.depth (itemsDepth rest)

/-- The depth of the deepest member. -/
def membersDepth : List (String × Value) → Nat
  | [] => 0
  | (_, v) :: rest => max v.depth (membersDepth rest)

end

theorem depth_le_itemsDepth {v : Value} {items : List Value} (h : v ∈ items) :
    v.depth ≤ itemsDepth items := by
  induction items with
  | nil => cases h
  | cons w items ih =>
      rw [itemsDepth]
      rcases List.mem_cons.1 h with rfl | h
      · exact Nat.le_max_left _ _
      · exact Nat.le_trans (ih h) (Nat.le_max_right _ _)

theorem depth_le_membersDepth {m : String × Value} {members : List (String × Value)}
    (h : m ∈ members) : m.2.depth ≤ membersDepth members := by
  induction members with
  | nil => cases h
  | cons n members ih =>
      rw [membersDepth]
      rcases List.mem_cons.1 h with rfl | h
      · exact Nat.le_max_left _ _
      · exact Nat.le_trans (ih h) (Nat.le_max_right _ _)

/-- A value without fractions is read back with as many levels as it has. -/
theorem readsBack_of_depth {v : Value} (hproper : v.Proper) (hwhole : v.IsWhole) {levels : Nat}
    (hdepth : v.depth ≤ levels) : ReadsBack levels v := by
  induction hproper generalizing levels with
  | null => exact .null
  | bool b => exact .bool b
  | integer hlow hhigh => exact .integer hlow hhigh
  | fraction x => cases hwhole
  | string s => exact .string s
  | array hitems ih =>
      cases hwhole with
      | array hwholes =>
          rw [Value.depth] at hdepth
          obtain ⟨levels, rfl⟩ : ∃ n, levels = n + 1 := ⟨levels - 1, by omega⟩
          refine .array fun v hv => ih v hv (hwholes v hv) ?_
          have hitem := depth_le_itemsDepth hv
          omega
  | object hkeys hmembers ih =>
      cases hwhole with
      | object hwholes =>
          rw [Value.depth] at hdepth
          obtain ⟨levels, rfl⟩ : ∃ n, levels = n + 1 := ⟨levels - 1, by omega⟩
          refine .object hkeys fun m hm => ih m hm (hwholes m hm) ?_
          have hmember := depth_le_membersDepth hm
          omega

/-! ## Numbers -/

theorem scaled_fraction {negative : Bool} {digits : Nat} {exponent : Int} {n : Number}
    (h : scaled negative digits exponent = .ok n) : ∃ x, n = .fraction x := by
  unfold scaled at h
  split at h
  · cases h
    exact ⟨_, rfl⟩
  · cases h

theorem readExponent_fraction {negative : Bool} {digits : Nat} {start : Int} {cs rest : List Char}
    {n : Number} (h : readExponent negative digits start cs = .ok (n, rest)) :
    ∃ x, n = .fraction x := by
  unfold readExponent at h
  -- the sign first: what stands behind it is read in the same way
  split at h
  simp only [bind, Except.bind, pure, Except.pure] at h
  split at h
  · cases h
  · split at h
    · cases h
    · split at h
      · split at h
        · cases h
        · cases h
          exact ⟨_, rfl⟩
      · split at h
        · cases h
        · rename_i m hscaled
          cases h
          exact scaled_fraction hscaled

theorem readScale_fraction {negative : Bool} {digits : Nat} {exponent : Int} {cs rest : List Char}
    {n : Number} (h : readScale negative digits exponent cs = .ok (n, rest)) :
    ∃ x, n = .fraction x := by
  rw [readScale.eq_def] at h
  split at h
  · exact readExponent_fraction h
  · exact readExponent_fraction h
  · simp only [bind, Except.bind, pure, Except.pure] at h
    split at h
    · cases h
    · rename_i m hscaled
      cases h
      exact scaled_fraction hscaled

theorem readFraction_fraction {negative : Bool} {digits : Nat} {exponent : Int}
    {cs rest : List Char} {n : Number}
    (h : readFraction negative digits exponent cs = .ok (n, rest)) : ∃ x, n = .fraction x := by
  simp only [readFraction] at h
  split at h
  · split at h
    · cases h
    · exact readScale_fraction h
  · split at h
    · exact readScale_fraction h
    · split at h
      · cases h
      · exact readScale_fraction h

/-- What is taken of digits fits into 64 bits. -/
theorem takeDigits_le {acc : Nat} (hacc : acc ≤ maxUInt64) (cs : List Char) :
    (takeDigits acc cs).1 ≤ maxUInt64 := by
  induction cs generalizing acc with
  | nil => exact hacc
  | cons c cs ih =>
      rw [takeDigits]
      split
      · rename_i htake
        simp only [Bool.and_eq_true, decide_eq_true_eq] at htake
        exact ih htake.2
      · exact hacc

theorem wholeNumber_integer {negative : Bool} {digits : Nat} (hdigits : digits ≤ maxUInt64) {i : Int}
    (h : wholeNumber negative digits = .integer i) :
    -(maxInt64 + 1 : Int) ≤ i ∧ i ≤ maxUInt64 := by
  unfold wholeNumber at h
  split at h
  · cases h
    simp only [maxInt64, maxUInt64] at *
    omega
  · split at h
    · rename_i hbounds
      cases h
      simp only [Bool.and_eq_true, decide_eq_true_eq] at hbounds
      simp only [maxInt64, maxUInt64] at *
      omega
    · cases h

theorem readAfterWhole_integer {negative : Bool} {digits : Nat} (hdigits : digits ≤ maxUInt64)
    {cs rest : List Char} {i : Int}
    (h : readAfterWhole negative digits cs = .ok (.integer i, rest)) :
    -(maxInt64 + 1 : Int) ≤ i ∧ i ≤ maxUInt64 := by
  rw [readAfterWhole.eq_def] at h
  split at h
  · obtain ⟨x, hx⟩ := readFraction_fraction h
    cases hx
  · obtain ⟨x, hx⟩ := readExponent_fraction h
    cases hx
  · obtain ⟨x, hx⟩ := readExponent_fraction h
    cases hx
  · exact wholeNumber_integer hdigits (Prod.mk.inj (Except.ok.inj h)).1

/-- A number that is kept exactly has 64 bits. -/
theorem readNumber_integer {negative : Bool} {cs rest : List Char} {i : Int}
    (h : readNumber negative cs = .ok (.integer i, rest)) :
    -(maxInt64 + 1 : Int) ≤ i ∧ i ≤ maxUInt64 := by
  rw [readNumber.eq_def] at h
  split at h
  · cases h
  · split at h
    · split at h
      · cases h
      · exact readAfterWhole_integer (Nat.zero_le _) h
    · exact readAfterWhole_integer (Nat.zero_le _) h
  · dsimp only at h
    split at h
    · cases h
    · split at h
      · exact readAfterWhole_integer (takeDigits_le (Nat.zero_le _) _) h
      · split at h
        · obtain ⟨x, hx⟩ := readFraction_fraction h
          cases hx
        · obtain ⟨x, hx⟩ := readScale_fraction h
          cases hx

/-! ## Lists and objects -/

/-- What holds of every item that is read holds of all items of a list. -/
theorem readItems_forall {α : Type} {item : Reader α} {P : α → Prop}
    (hitem : ∀ cs a rest, item cs = .ok (a, rest) → P a) {fuel : Nat} {first : Bool}
    {cs rest : List Char} {as : List α} (h : readItems item fuel first cs = .ok (as, rest)) :
    ∀ a ∈ as, P a := by
  induction fuel generalizing first cs as with
  | zero => cases h
  | succ fuel ih =>
      simp only [readItems, bind, Except.bind, pure, Except.pure] at h
      split at h
      · cases h
      · split at h
        · split at h
          · cases h
          · cases h
            exact fun a ha => absurd ha List.not_mem_nil
        · split at h
          · cases h
          · rename_i p hread
            split at h
            · cases h
            · rename_i q hmore
              obtain ⟨others, behind⟩ := q
              cases h
              intro a ha
              rcases List.mem_cons.1 ha with rfl | ha
              · exact hitem _ _ p.2 hread
              · exact ih hmore a ha

section Invariants

variable {σ : Type} {record : Record σ} {P : σ → Prop}

/-- What every member keeps, the whole object keeps. -/
theorem readMembers_keeps {member : σ → String → Reader σ}
    (hmember : ∀ s key cs s' rest, member s key cs = .ok (s', rest) → P s → P s') {fuel : Nat}
    {first : Bool} {s s' : σ} {cs rest : List Char}
    (h : readMembers member fuel first s cs = .ok (s', rest)) (hs : P s) : P s' := by
  induction fuel generalizing first s cs with
  | zero => cases h
  | succ fuel ih =>
      simp only [readMembers, bind, Except.bind, pure, Except.pure] at h
      split at h
      · cases h
      · split at h
        · split at h
          · cases h
          · obtain ⟨rfl, -⟩ := Prod.mk.inj (Except.ok.inj h)
            exact hs
        · split at h
          · cases h
          · rename_i p hread
            exact ih h (hmember _ _ _ p.1 p.2 hread hs)

/-! ## Records -/

/-- What is refused is never read. -/
theorem refuse_ne_ok {α : Type} (expected : String) (cs : List Char) (a : α) :
    refuse expected cs ≠ .ok a := by
  intro h
  simp only [refuse, bind, Except.bind] at h
  repeat' split at h
  all_goals cases h

theorem readFields_keeps {levels : Nat} {fields : List (Json.Field σ)}
    (hfields : ∀ field ∈ fields, ∀ s cs s' rest,
      field.read levels s cs = .ok (s', rest) → P s → P s') {index : Nat} {s s' : σ}
    {cs rest : List Char} (h : record.readFields levels fields index s cs = .ok (s', rest))
    (hs : P s) : P s' := by
  induction fields generalizing index s cs with
  | nil =>
      obtain ⟨rfl, -⟩ := Prod.mk.inj (Except.ok.inj h)
      exact hs
  | cons field fields ih =>
      simp only [Record.readFields, bind, Except.bind] at h
      split at h
      · cases h
      · split at h
        · split at h
          · exact ih (fun g hg => hfields g (by simp [hg])) h hs
          · cases h
        · split at h
          · cases h
          · rename_i p hread
            exact ih (fun g hg => hfields g (by simp [hg])) h
              (hfields field (by simp) _ _ p.1 p.2 hread hs)

/-- What every field keeps, read one level further in, the whole record keeps, from an object as
from a list. -/
theorem read_keeps {levels : Nat}
    (hfields : ∀ field ∈ record.fields, ∀ s cs s' rest,
      field.read levels s cs = .ok (s', rest) → P s → P s') {s s' : σ} {cs rest : List Char}
    (h : record.read (levels + 1) s cs = .ok (s', rest)) (hs : P s) : P s' := by
  have hmember : ∀ s key cs s' rest,
      record.readMember levels s key cs = .ok (s', rest) → P s → P s' := by
    intro s key cs s' rest h hs
    simp only [Record.readMember, bind, Except.bind, pure, Except.pure] at h
    split at h
    · rename_i field hfind
      split at h
      · cases h
      · split at h
        · cases h
        · exact hfields field (List.mem_of_find?_eq_some hfind) s _ s' rest h hs
    · split at h
      · cases h
      · split at h
        · cases h
        · obtain ⟨rfl, -⟩ := Prod.mk.inj (Except.ok.inj h)
          exact hs
  simp only [Record.read, bind, Except.bind, pure, Except.pure] at h
  split at h
  · cases h
  · split at h
    · cases h
    · rename_i p hread
      split at h
      · cases h
      · obtain ⟨rfl, -⟩ := Prod.mk.inj (Except.ok.inj h)
        exact readFields_keeps hfields hread hs
  · exact readMembers_keeps hmember h hs
  · exact absurd h (refuse_ne_ok _ _ _)

end Invariants

/-! ## Values -/

theorem mem_insertMember {α : Type} {key : String} {value : α} {members : List (String × α)}
    {m : String × α} (h : m ∈ insertMember key value members) : m = (key, value) ∨ m ∈ members := by
  induction members with
  | nil => exact .inl (List.mem_singleton.1 h)
  | cons n members ih =>
      rw [insertMember] at h
      split at h
      · exact (List.mem_cons.1 h).imp_right (List.mem_cons_of_mem n)
      · split at h
        · exact List.mem_cons.1 h
        · rcases List.mem_cons.1 h with rfl | h
          · exact .inr (List.mem_cons_self ..)
          · exact (ih h).imp_right (List.mem_cons_of_mem n)

/-- Members in order, each of which is read back unless it holds a fraction. -/
def ReadMembers (levels : Nat) (members : List (String × Value)) : Prop :=
  (members.map (·.1)).Pairwise (· < ·) ∧ ∀ m ∈ members, m.2.IsWhole → ReadsBack levels m.2

theorem readMemberValue_keeps {levels : Nat}
    (hvalue : ∀ cs v rest, readValue levels cs = .ok (v, rest) → v.IsWhole → ReadsBack levels v)
    {members members' : List (String × Value)} {key : String} {cs rest : List Char}
    (h : readMemberValue levels members key cs = .ok (members', rest))
    (hmembers : ReadMembers levels members) : ReadMembers levels members' := by
  simp only [readMemberValue, bind, Except.bind, pure, Except.pure] at h
  split at h
  · cases h
  · split at h
    · cases h
    · rename_i p hread
      cases h
      refine ⟨pairwise_insertMember key p.1 hmembers.1, fun m hm hwhole => ?_⟩
      rcases mem_insertMember hm with rfl | hm
      · exact hvalue _ _ p.2 hread hwhole
      · exact hmembers.2 m hm hwhole

theorem readsBack_of_readNumber {levels : Nat} {negative : Bool} {cs rest : List Char} {n : Number}
    (h : readNumber negative cs = .ok (n, rest)) (hwhole : (Value.number n).IsWhole) :
    ReadsBack levels (.number n) := by
  cases hwhole with
  | integer i =>
      obtain ⟨hlow, hhigh⟩ := readNumber_integer h
      exact .integer hlow hhigh

/-- What a value that has been read can be, and what it is made of. -/
theorem readValue_cases {levels : Nat} {cs rest : List Char} {v : Value}
    (h : readValue levels cs = .ok (v, rest)) :
    (v = .null ∧ ∃ more, skipSpace cs = 'n' :: more) ∨ (∃ b, v = .bool b) ∨
      (∃ s, v = .string s) ∨
      (∃ negative cs n, v = .number n ∧ readNumber negative cs = .ok (n, rest)) ∨
      (∃ fewer cs items, levels = fewer + 1 ∧ v = .array items ∧
        readItems (readValue fewer) (cs.length + 1) true cs = .ok (items, rest)) ∨
      ∃ fewer cs members, levels = fewer + 1 ∧ v = .object members ∧
        readMembers (readMemberValue fewer) (cs.length + 1) true [] cs = .ok (members, rest) := by
  rw [readValue.eq_def] at h
  simp only [bind, Except.bind, pure, Except.pure] at h
  split at h
  · cases h
  · rename_i hnull
    split at h <;> cases h
    exact .inl ⟨rfl, _, hnull⟩
  · split at h <;> cases h
    exact .inr (.inl ⟨true, rfl⟩)
  · split at h <;> cases h
    exact .inr (.inl ⟨false, rfl⟩)
  · split at h
    · cases h
    · cases h
      exact .inr (.inr (.inl ⟨_, rfl⟩))
  · split at h
    · cases h
    · rename_i hnumber
      cases h
      exact .inr (.inr (.inr (.inl ⟨true, _, _, rfl, hnumber⟩)))
  · split at h
    · cases h
    · rename_i fewer
      split at h
      · cases h
      · rename_i hitems
        cases h
        exact .inr (.inr (.inr (.inr (.inl ⟨fewer, _, _, rfl, rfl, hitems⟩))))
  · split at h
    · cases h
    · rename_i fewer
      split at h
      · cases h
      · rename_i hmembers
        cases h
        exact .inr (.inr (.inr (.inr (.inr ⟨fewer, _, _, rfl, rfl, hmembers⟩))))
  · split at h
    · split at h
      · cases h
      · rename_i hnumber
        cases h
        exact .inr (.inr (.inr (.inl ⟨false, _, _, rfl, hnumber⟩)))
    · cases h

/-- A value that has been read, and that holds no fraction, is read back. -/
theorem readsBack_of_readValue {levels : Nat} {cs rest : List Char} {v : Value}
    (h : readValue levels cs = .ok (v, rest)) (hwhole : v.IsWhole) : ReadsBack levels v := by
  induction levels using Nat.strong_induction_on generalizing cs rest v with
  | _ levels ih =>
      rcases readValue_cases h with ⟨rfl, -⟩ | ⟨b, rfl⟩ | ⟨s, rfl⟩ | ⟨negative, cs, n, rfl, hread⟩ |
        ⟨fewer, cs, items, rfl, rfl, hread⟩ | ⟨fewer, cs, members, rfl, rfl, hread⟩
      · exact .null
      · exact .bool b
      · exact .string s
      · exact readsBack_of_readNumber hread hwhole
      · cases hwhole with
        | array hwholes =>
            have hitems := readItems_forall
              (P := fun v => v.IsWhole → ReadsBack fewer v)
              (fun _ v _ hv hwhole => ih fewer (Nat.lt_succ_self _) hv hwhole) hread
            exact .array fun v hv => hitems v hv (hwholes v hv)
      · cases hwhole with
        | object hwholes =>
            have hmembers : ReadMembers fewer members := by
              refine readMembers_keeps (fun _ _ _ _ _ hmember => readMemberValue_keeps ?_ hmember)
                hread ⟨List.Pairwise.nil, fun m hm => absurd hm List.not_mem_nil⟩
              exact fun _ v _ hv hwhole => ih fewer (Nat.lt_succ_self _) hv hwhole
            exact .object hmembers.1 fun m hm => hmembers.2 m hm (hwholes m hm)

end PluginHost.Json

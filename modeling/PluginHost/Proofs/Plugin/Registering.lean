import Mathlib.Data.List.Basic
import Mathlib.Tactic.SplitIfs
import PluginHost.Proofs.Plugin.Dispatch
import PluginHost.Proofs.Text.Numerals

/-!
# What calls that register plugins leave behind

Two rules pull in opposite directions: a name stands for the command that was added last, but names
are listed in the order in which they were seen first.

* The last of a name.  `IsLastOf` says it of a list of commands, and `resolve_eq_some_iff` that a
  name stands for it.
* Names as they are first seen.  `FirstSeen` determines a list of names, and the commands that count
  are listed so (`firstSeen_effective`).
* One call.  It adds one command or nothing (`commands_call`), and it tells of the command that the
  name has stood for until then (`takenRecord_mem_recordsOf_iff`).
* All calls.  By induction along them, what is registered are the commands whose names are free, in
  the order of the calls (`commands_callAll`).
-/

namespace PluginHost

/-- Among the commands, the last one of a name. -/
def IsLastOf (commands : List PluginCommand) (name : String) (c : PluginCommand) : Prop :=
  ∃ before behind, commands = before ++ c :: behind ∧ c.name = name ∧ ∀ d ∈ behind, d.name ≠ name

/-- Each of the names is listed once, in the order in which they are first seen. -/
structure FirstSeen (names listed : List String) : Prop where
  nodup : listed.Nodup
  mem_iff : ∀ name, name ∈ listed ↔ name ∈ names
  ordered : listed.Pairwise fun a b => names.idxOf a < names.idxOf b

/-- The commands that calls add: those whose names are not reserved. -/
def addedBy (calls : List Registration) : List PluginCommand :=
  (calls.filter (·.plugin.name ∉ reservedNames)).map Registration.command

/-! ## Names as they are first seen -/

/-- What is left out in between does not change which of two comes first. -/
theorem idxOf_lt_of_filter {α : Type} [BEq α] [LawfulBEq α] {keeps : α → Bool} {a b : α}
    (ha : keeps a = true) (hb : keeps b = true) {as : List α}
    (h : (as.filter keeps).idxOf a < (as.filter keeps).idxOf b) : as.idxOf a < as.idxOf b := by
  induction as with
  | nil => simp at h
  | cons c as ih =>
      by_cases hc : keeps c = true
      · rw [List.filter_cons_of_pos hc] at h
        rw [List.idxOf_cons, List.idxOf_cons] at h ⊢
        cases hca : c == a <;> cases hcb : c == b <;> simp_all
      · have hne : ∀ {x : α}, keeps x = true → (c == x) = false := by
          intro x hx
          rw [beq_eq_false_iff_ne]
          rintro rfl
          exact hc hx
        rw [List.filter_cons_of_neg hc] at h
        rw [List.idxOf_cons, List.idxOf_cons, hne ha, hne hb]
        exact Nat.succ_lt_succ (ih h)

theorem pairwise_idxOf_eraseDups {α : Type} [BEq α] [LawfulBEq α] (as : List α) :
    as.eraseDups.Pairwise fun a b => as.idxOf a < as.idxOf b := by
  induction hlength : as.length using Nat.strongRecOn generalizing as with
  | _ n ih =>
      cases as with
      | nil => exact List.Pairwise.nil
      | cons a as =>
          have hother : ∀ {b : α}, b ∈ (as.filter fun b => !b == a).eraseDups → (b == a) = false := by
            intro b hb
            rw [List.mem_eraseDups, List.mem_filter] at hb
            simpa using hb.2
          have hrest : (as.filter fun b => !b == a).length < n := by
            subst hlength
            exact Nat.lt_succ_of_le (List.length_filter_le _ _)
          rw [List.eraseDups_cons, List.pairwise_cons]
          refine ⟨fun b hb => ?_, (ih _ hrest _ rfl).imp_of_mem fun {b c} hb hc hlt => ?_⟩
          · rw [List.idxOf_cons_self, List.idxOf_cons, BEq.comm, hother hb]
            exact Nat.succ_pos _
          · rw [List.idxOf_cons, List.idxOf_cons, BEq.comm, hother hb, BEq.comm, hother hc]
            refine Nat.succ_lt_succ (idxOf_lt_of_filter ?_ ?_ hlt)
            · rw [hother hb, Bool.not_false]
            · rw [hother hc, Bool.not_false]

theorem getLast?_toList_append {front back : String} {c : Char} (h : back.toList.getLast? = some c) :
    (front ++ back).toList.getLast? = some c := by
  rw [String.toList_append, List.getLast?_append, h, Option.some_or]

namespace Registry

/-- The commands that count are one for each name, as the names are first seen. -/
theorem firstSeen_effective (r : Registry) :
    FirstSeen (r.commands.map (·.name)) (r.effective.map (·.name)) := by
  rw [map_name_effective]
  exact ⟨nodup_eraseDups _, fun _ => List.mem_eraseDups, pairwise_idxOf_eraseDups _⟩

theorem resolve_of_mem_effective {r : Registry} {c : PluginCommand} (hc : c ∈ r.effective) :
    r.resolve c.name = some c := by
  obtain ⟨name, -, hresolve⟩ := List.mem_filterMap.1 hc
  rwa [resolve_name hresolve]

/-! ## What a name stands for -/

theorem resolve_eq_some_iff {r : Registry} {name : String} {c : PluginCommand} :
    r.resolve name = some c ↔ IsLastOf r.commands name c := by
  rw [resolve, List.find?_eq_some_iff_append]
  constructor
  · rintro ⟨hname, later, before, hcommands, hlater⟩
    refine ⟨before.reverse, later.reverse, ?_, by simpa using hname, fun d hd => ?_⟩
    · simpa using congrArg List.reverse hcommands
    · simpa using hlater d (List.mem_reverse.1 hd)
  · rintro ⟨before, behind, hcommands, hname, hbehind⟩
    refine ⟨by simpa using hname, behind.reverse, before.reverse, by simp [hcommands], ?_⟩
    intro d hd
    simpa using hbehind d (List.mem_reverse.1 hd)

/-! ## One call -/

theorem commands_call (r : Registry) (x : Registration) :
    (r.call x).2.commands = r.commands ++ addedBy [x] := by
  show (r.register x.place x.plugin).commands = _
  unfold register
  split_ifs with h
  · have hreserved : x.plugin.name ∈ reservedNames := by simpa using h
    simp [addedBy, hreserved]
  · have hfree : x.plugin.name ∉ reservedNames := by simpa using h
    simp [addedBy, hfree, Registration.command]

/-- A reserved name changes nothing. -/
theorem call_of_reserved (r : Registry) {x : Registration} (hx : x.plugin.name ∈ reservedNames) :
    r.call x = (⟨false, [reservedRecord x.plugin]⟩, r) := by
  have h : reservedNames.contains x.plugin.name = true := by simpa using hx
  rw [call, recordsOf, register, if_pos h, if_pos h, h]
  rfl

theorem recordsOf_of_free (r : Registry) {d : Descriptor} (hd : d.name ∉ reservedNames) :
    r.recordsOf d = (r.resolve d.name).toList.map (takenRecord d) := by
  have h : ¬reservedNames.contains d.name = true := by simpa using hd
  rw [recordsOf, if_neg h]

theorem isAdded_call (r : Registry) (x : Registration) :
    (r.call x).1.isAdded = false ↔ x.plugin.name ∈ reservedNames := by
  simp [call]

/-- The two records end differently, with a letter and with a digit. -/
theorem reservedRecord_ne_takenRecord (d : Descriptor) (previous : PluginCommand) :
    reservedRecord d ≠ takenRecord d previous := by
  have hletter : (reservedRecord d).message.toList.getLast? = some 'e' :=
    getLast?_toList_append (by decide)
  have hdigit : ∃ c, (takenRecord d previous).message.toList.getLast? = some c ∧
      Text.isDigit c = true := by
    refine ⟨(Nat.toDigits 10 previous.place).getLast Nat.toDigits_ne_nil, ?_,
      Text.isDigit_of_mem_toDigits (List.getLast_mem _)⟩
    refine getLast?_toList_append (getLast?_toList_append ?_)
    rw [Text.toList_toString, List.getLast?_eq_some_getLast]
  intro h
  obtain ⟨c, hc, hdigit⟩ := hdigit
  rw [← h, hletter] at hc
  cases hc
  contradiction

/-- It is told that a name is taken over exactly when it has stood for a command until then. -/
theorem takenRecord_mem_recordsOf_iff (r : Registry) (d : Descriptor) :
    (∃ previous, takenRecord d previous ∈ r.recordsOf d) ↔
      d.name ∉ reservedNames ∧ ∃ c ∈ r.commands, c.name = d.name := by
  by_cases hd : d.name ∈ reservedNames
  · have h : reservedNames.contains d.name = true := by simpa using hd
    rw [recordsOf, if_pos h]
    refine iff_of_false ?_ fun hfree => hfree.1 hd
    rintro ⟨previous, hmem⟩
    exact reservedRecord_ne_takenRecord d previous (List.mem_singleton.1 hmem).symm
  · have hstands : (∃ c ∈ r.commands, c.name = d.name) ↔ (r.resolve d.name).isSome = true := by
      rw [isSome_resolve_iff, List.mem_map]
    rw [recordsOf_of_free r hd, hstands]
    cases r.resolve d.name with
    | none => simp
    | some previous => simp [hd]

/-! ## All calls -/

theorem callAll_cons (r : Registry) (x : Registration) (xs : List Registration) :
    r.callAll (x :: xs) =
      ((r.call x).1 :: ((r.call x).2.callAll xs).1, ((r.call x).2.callAll xs).2) :=
  rfl

theorem callAll_append (r : Registry) (xs ys : List Registration) :
    r.callAll (xs ++ ys) =
      ((r.callAll xs).1 ++ ((r.callAll xs).2.callAll ys).1, ((r.callAll xs).2.callAll ys).2) := by
  induction xs generalizing r with
  | nil => rfl
  | cons x xs ih => rw [List.cons_append, callAll_cons, callAll_cons, ih, List.cons_append]

theorem commands_callAll (r : Registry) (calls : List Registration) :
    (r.callAll calls).2.commands = r.commands ++ addedBy calls := by
  induction calls generalizing r with
  | nil => simp [callAll, addedBy]
  | cons x calls ih =>
      have hcons : addedBy (x :: calls) = addedBy [x] ++ addedBy calls := by
        unfold addedBy
        rw [← List.map_append, ← List.filter_append, List.singleton_append]
      rw [callAll_cons, ih, commands_call, hcons, List.append_assoc]

/-- Plugins that are loaded in a row are registered by calls, each with its place. -/
theorem registerFrom_eq_callAll (r : Registry) (place : Nat) (ds : List Descriptor) :
    r.registerFrom place ds =
      ((r.callAll ((ds.zipIdx place).map fun (d, k) => ⟨k, d⟩)).2,
        (r.callAll ((ds.zipIdx place).map fun (d, k) => ⟨k, d⟩)).1.flatMap (·.records)) := by
  induction ds generalizing r place with
  | nil => rfl
  | cons d ds ih =>
      rw [registerFrom, ih, List.zipIdx_cons, List.map_cons, callAll_cons, List.flatMap_cons]
      rfl

/-- The registry is what calls have made of an empty one. -/
structure MadeBy (calls : List Registration) (r : Registry) : Prop where
  /-- Its commands are those that the calls have added, in their order. -/
  commands : r.commands = addedBy calls
  /-- A name stands for the last of them. -/
  last : ∀ name c, r.resolve name = some c ↔ IsLastOf r.commands name c
  /-- The commands that count are one for each name, as the names were first seen. -/
  firstSeen : FirstSeen (r.commands.map (·.name)) (r.effective.map (·.name))
  /-- They are what the names stand for. -/
  counts : ∀ c ∈ r.effective, r.resolve c.name = some c

theorem madeBy_callAll (calls : List Registration) : MadeBy calls (callAll {} calls).2 where
  commands := (commands_callAll {} calls).trans (List.nil_append _)
  last _ _ := resolve_eq_some_iff
  firstSeen := firstSeen_effective _
  counts _ := resolve_of_mem_effective

/-- A name has a command if it is not reserved and a call has borne it. -/
theorem exists_mem_addedBy_iff {calls : List Registration} {name : String} :
    (∃ c ∈ addedBy calls, c.name = name) ↔
      name ∉ reservedNames ∧ ∃ y ∈ calls, y.plugin.name = name := by
  constructor
  · rintro ⟨c, hc, rfl⟩
    obtain ⟨y, hy, rfl⟩ := List.mem_map.1 hc
    obtain ⟨hcall, hfree⟩ := List.mem_filter.1 hy
    exact ⟨of_decide_eq_true hfree, y, hcall, rfl⟩
  · rintro ⟨hfree, y, hcall, rfl⟩
    exact ⟨y.command, List.mem_map_of_mem (List.mem_filter.2 ⟨hcall, decide_eq_true hfree⟩), rfl⟩

/-- The registry after any calls, and one more call.  What was registered are the calls whose names
are free; a name stands for the last of them, and each name is listed once, where it was first seen.
One more call is answered with no exactly for a reserved name, and then nothing changes.  It is told
that a name is taken over exactly when a call before has borne it, and from which command. -/
theorem registered_by_calls (calls : List Registration) (x : Registration) :
    ∃ answers r answer next,
      callAll {} calls = (answers, r) ∧ callAll {} (calls ++ [x]) = (answers ++ [answer], next) ∧
      MadeBy calls r ∧
      (answer.isAdded = false ↔ x.plugin.name ∈ reservedNames) ∧
      (answer.isAdded = false → next = r) ∧
      ((∃ previous, takenRecord x.plugin previous ∈ answer.records) ↔
        x.plugin.name ∉ reservedNames ∧ ∃ y ∈ calls, y.plugin.name = x.plugin.name) ∧
      ∀ previous, answer.isAdded = true → IsLastOf r.commands x.plugin.name previous →
        answer.records = [takenRecord x.plugin previous] := by
  have hmade := madeBy_callAll calls
  generalize hcalls : callAll {} calls = made at hmade
  obtain ⟨answers, r⟩ := made
  refine ⟨answers, r, (r.call x).1, (r.call x).2, rfl, ?_, hmade, isAdded_call r x, ?_, ?_, ?_⟩
  · rw [callAll_append, hcalls]
    rfl
  · intro hrefused
    rw [call_of_reserved r ((isAdded_call r x).1 hrefused)]
  · show (∃ previous, takenRecord x.plugin previous ∈ r.recordsOf x.plugin) ↔ _
    rw [takenRecord_mem_recordsOf_iff, hmade.commands, exists_mem_addedBy_iff, and_self_left]
  · intro previous hadded hlast
    have hfree : x.plugin.name ∉ reservedNames := fun hreserved => by
      rw [(isAdded_call r x).2 hreserved] at hadded
      contradiction
    show r.recordsOf x.plugin = _
    rw [recordsOf_of_free r hfree, (hmade.last _ _).2 hlast]
    rfl

/-- A call for a plugin of the given name. -/
def callFor (name : String) (place : Nat) : Registration := ⟨place, ⟨name, "1.0", "", utf8 name⟩⟩

/-- Of two plugins named `foo` with a reserved name between them, the second has the name, and it is
told that a third one takes it over from that one. -/
theorem registered_by_calls_foo :
    ∃ answers answer next,
      callAll {} [callFor "foo" 0, callFor "bar" 1, callFor "help" 2, callFor "foo" 3,
        callFor "foo" 4] = (answers ++ [answer], next) ∧ answer.isAdded = true ∧
      answer.records = [takenRecord (callFor "foo" 4).plugin (callFor "foo" 3).command] := by
  obtain ⟨answers, r, answer, next, hcalls, hmore, hmade, hadded, -, -, hrecords⟩ :=
    registered_by_calls [callFor "foo" 0, callFor "bar" 1, callFor "help" 2, callFor "foo" 3]
      (callFor "foo" 4)
  have hyes : answer.isAdded = true :=
    (Bool.eq_false_or_eq_true _).resolve_right fun hno => absurd (hadded.1 hno) (by decide)
  have hlast : IsLastOf r.commands "foo" (callFor "foo" 3).command := by
    rw [hmade.commands]
    exact ⟨[(callFor "foo" 0).command, (callFor "bar" 1).command], [], by decide, rfl, nofun⟩
  exact ⟨answers, answer, next, hmore, hyes, hrecords _ hyes hlast⟩

end Registry

end PluginHost

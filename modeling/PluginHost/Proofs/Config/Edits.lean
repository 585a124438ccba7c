import PluginHost.Proofs.Config.Editing

/-!
# Edits one after the other

An edit changes a setting from a text, or puts or drops a token (`Config.edit`).  `edit_cases` says
all that an accepted edit can do.  Of several edits (`Config.editAll`) the last one that names a
setting decides it; `editAll_view` is the induction, for any part of the configuration that no other
edit touches, and `editAll_handshakeSeconds` and `editAll_runSeconds` are its two uses.

`edits_saved_iff` compares what is accepted with what can be written: a document takes seconds below
`2 ^ 63`, an edit accepts them up to `2 ^ 64`.  So the edits from the defaults can be saved unless
the last one of a limit goes beyond.
-/

namespace PluginHost.Config

open Text

/-- An edit of a configuration. -/
inductive Edit where
  | set (name value : String)
  | putToken (name value : String)
  | dropToken (name : String)
  deriving DecidableEq, Repr

/-- The configuration after an edit, if the edit is accepted. -/
def edit (c : Config) : Edit → Except ConfigError Config
  | .set name value => c.set name value
  | .putToken name value => .ok (c.putToken name value)
  | .dropToken name => .ok (c.dropToken name)

/-- The configuration after edits, if all of them are accepted. -/
def editAll (c : Config) (edits : List Edit) : Except ConfigError Config := edits.foldlM edit c

/-- The text that an edit changes a setting from. -/
def Edit.text? (key : Key) : Edit → Option String
  | .set name value => if name = key.name then some value else none
  | _ => none

/-- The text that edits change a setting from last. -/
def lastText? (key : Key) (edits : List Edit) : Option String :=
  edits.reverse.findSome? (Edit.text? key)

/-- The seconds that a text stands for. -/
def secondsOf? (text : String) : Option Nat := readNat maxUInt64 text.toList

/-- The seconds that edits give a setting last, if they give any. -/
def lastSeconds? (key : Key) (edits : List Edit) : Option Nat :=
  (lastText? key edits).bind secondsOf?

/-! ## One edit -/

theorem ofName?_eq_some_iff {name : String} {key : Key} :
    Key.ofName? name = some key ↔ name = key.name := by
  constructor
  · intro h
    have hname := List.find?_some (p := fun key : Key => key.name == name) h
    exact (beq_iff_eq.1 hname).symm
  · rintro rfl
    cases key <;> decide

theorem set_eq_ok_iff {c c' : Config} {name value : String} :
    c.set name value = .ok c' ↔ ∃ key : Key, name = key.name ∧ c.setKey key value = .ok c' := by
  unfold set
  cases hkey : Key.ofName? name with
  | none =>
      refine iff_of_false (by simp) ?_
      rintro ⟨key, hname, -⟩
      rw [ofName?_eq_some_iff.2 hname] at hkey
      cases hkey
  | some key =>
      have hname := ofName?_eq_some_iff.1 hkey
      dsimp only
      constructor
      · intro h
        split at h <;> cases h
        exact ⟨key, hname, ‹_›⟩
      · rintro ⟨key', hname', hset⟩
        have hsame : key' = key := by
          rw [ofName?_eq_some_iff.2 hname'] at hkey
          exact Option.some.inj hkey
        rw [← hsame, hset]

/-- An accepted edit changes the setting that it names, or tokens alone. -/
theorem edit_cases {c c' : Config} {e : Edit} (h : c.edit e = .ok c') :
    (∃ key text, c.setKey key text = .ok c' ∧
        ∀ other, e.text? other = if other = key then some text else none) ∨
      c' = { c with tokens := c'.tokens } ∧ ∀ key, e.text? key = none := by
  cases e with
  | set name value =>
      obtain ⟨key, rfl, hset⟩ := set_eq_ok_iff.1 h
      refine .inl ⟨key, value, hset, fun other => ?_⟩
      have hnames : key.name = other.name ↔ other = key := by
        cases key <;> cases other <;> decide
      simp only [Edit.text?, hnames]
  | putToken name value =>
      cases h
      exact .inr ⟨rfl, fun _ => rfl⟩
  | dropToken name =>
      cases h
      exact .inr ⟨rfl, fun _ => rfl⟩

theorem setKey_handshakeSeconds {c c' : Config} {text : String}
    (h : c.setKey .handshakeSeconds text = .ok c') :
    secondsOf? text = some c'.handshakeSeconds ∧ c'.handshakeSeconds ≠ 0 := by
  simp only [setKey] at h
  split at h
  · cases h
  · cases h
  · rename_i seconds hzero hread
    cases h
    exact ⟨hread, hzero⟩

theorem setKey_runSeconds {c c' : Config} {text : String}
    (h : c.setKey .runSeconds text = .ok c') : secondsOf? text = c'.runSeconds := by
  simp only [setKey] at h
  split at h
  · rename_i hnone
    cases h
    rw [Bool.or_eq_true, beq_iff_eq, beq_iff_eq] at hnone
    -- Neither of the two words for no limit is a number.
    have hempty : secondsOf? "" = none := by decide
    have hword : secondsOf? "none" = none := by decide
    rcases hnone with rfl | rfl
    · exact hempty
    · exact hword
  · split at h
    · cases h
    · rename_i hread
      cases h
      exact hread

/-! ## Several edits -/

theorem lastText?_cons (key : Key) (e : Edit) (edits : List Edit) :
    lastText? key (e :: edits) = (lastText? key edits).or (e.text? key) := by
  simp [lastText?, List.findSome?_append]

/-- The last edit that names a setting decides what only edits of that setting change. -/
theorem editAll_view {α : Type} (key : Key) (view : Config → α) (fits : String → α → Prop)
    (hset : ∀ c c' text, setKey c key text = .ok c' → fits text (view c'))
    (hother : ∀ c other c', other ≠ key → c.OnlyChanges other c' → view c' = view c)
    (htokens : ∀ (c : Config) tokens, view { c with tokens } = view c)
    {c c' : Config} {edits : List Edit} (h : c.editAll edits = .ok c') :
    match lastText? key edits with
    | some text => fits text (view c')
    | none => view c' = view c := by
  induction edits generalizing c with
  | nil =>
      cases h
      rfl
  | cons e edits ih =>
      simp only [editAll, List.foldlM_cons, bind, Except.bind] at h
      cases hedit : c.edit e with
      | error reason =>
          rw [hedit] at h
          cases h
      | ok c₁ =>
          rw [hedit] at h
          have hrest := ih h
          rw [lastText?_cons]
          cases hlast : lastText? key edits with
          | some text =>
              rw [hlast] at hrest
              exact hrest
          | none =>
              rw [hlast] at hrest
              dsimp only at hrest
              rw [Option.none_or, hrest]
              rcases edit_cases hedit with ⟨changed, text, hsetKey, htext⟩ | ⟨hsame, htext⟩
              · rw [htext]
                by_cases hkey : key = changed
                · subst hkey
                  rw [if_pos rfl]
                  exact hset c c₁ text hsetKey
                · rw [if_neg hkey]
                  exact hother c changed c₁ (Ne.symm hkey) (setKey_onlyChanges hsetKey)
              · rw [htext, hsame]
                exact htokens c c₁.tokens

theorem editAll_handshakeSeconds {c c' : Config} {edits : List Edit}
    (h : c.editAll edits = .ok c') :
    c'.handshakeSeconds = (lastSeconds? .handshakeSeconds edits).getD c.handshakeSeconds ∧
      lastSeconds? .handshakeSeconds edits ≠ some 0 := by
  have hview := editAll_view .handshakeSeconds (·.handshakeSeconds)
    (fun text n => secondsOf? text = some n ∧ n ≠ 0)
    (fun _ _ _ => setKey_handshakeSeconds) (fun _ _ _ hne honly => honly.handshakeSeconds hne)
    (fun _ _ => rfl) h
  unfold lastSeconds?
  cases hlast : lastText? .handshakeSeconds edits with
  | none =>
      rw [hlast] at hview
      exact ⟨hview, nofun⟩
  | some text =>
      rw [hlast] at hview
      rw [Option.bind_some, hview.1]
      exact ⟨rfl, fun hzero => hview.2 (Option.some.inj hzero)⟩

theorem editAll_runSeconds {c c' : Config} {edits : List Edit} (h : c.editAll edits = .ok c') :
    c'.runSeconds = (lastText? .runSeconds edits).elim c.runSeconds secondsOf? := by
  have hview := editAll_view .runSeconds (·.runSeconds)
    (fun text limit => secondsOf? text = limit)
    (fun _ _ _ => setKey_runSeconds) (fun _ _ _ hne honly => honly.runSeconds hne)
    (fun _ _ => rfl) h
  cases hlast : lastText? .runSeconds edits with
  | none =>
      rw [hlast] at hview
      exact hview
  | some text =>
      rw [hlast] at hview
      exact hview.symm

/-! ## Saving what has been accepted -/

/-- Saving fails for what the document cannot hold, once the directory is there. -/
theorem save_serialize_iff {c : Config} {t : FileTree} {dir : Path} :
    (c.save t dir).1 = .error .serialize ↔
      (t.makeDirectories dir).1 = .ok () ∧ ¬c.isWritable = true := by
  rw [← exists_document_iff]
  unfold save
  cases t.makeDirectories dir with
  | mk r t₁ =>
      cases r with
      | error e => simp
      | ok u =>
          dsimp only
          cases c.document? with
          | none => simp
          | some text =>
              dsimp only
              cases t₁.write (fileIn dir) (utf8 text) <;> simp

/-- The last edit of each limit, if it gives a number, gives one that a document can hold. -/
def FitsDocument (edits : List Edit) : Prop :=
  ∀ key ∈ [Key.handshakeSeconds, Key.runSeconds], ∀ n ∈ lastSeconds? key edits, n ≤ maxInt64

theorem isWritable_editAll {c : Config} {edits : List Edit}
    (h : default.editAll edits = .ok c) : c.isWritable = true ↔ FitsDocument edits := by
  obtain ⟨hhandshake, -⟩ := editAll_handshakeSeconds h
  have hrun : c.runSeconds = lastSeconds? .runSeconds edits := by
    rw [editAll_runSeconds h]
    unfold lastSeconds?
    cases lastText? .runSeconds edits <;> rfl
  have hdefault : default.handshakeSeconds ≤ maxInt64 := by decide
  unfold FitsDocument
  rw [isWritable_iff, hhandshake, hrun]
  simp only [List.forall_mem_cons, Option.mem_def]
  refine and_congr ?_ ?_
  · cases lastSeconds? .handshakeSeconds edits <;> simp [hdefault]
  · simp

/-- What has been accepted from the defaults on, of settings and tokens of any kind, can be saved
exactly if the last numbers fit into a document.  Otherwise saving refuses it, once the directory is
there. -/
theorem edits_saved_iff {c : Config} {edits : List Edit} (h : default.editAll edits = .ok c) :
    ((∃ document, c.document? = some document) ↔ FitsDocument edits) ∧
      ∀ t dir, (c.save t dir).1 = .error .serialize ↔
        (t.makeDirectories dir).1 = .ok () ∧ ¬FitsDocument edits := by
  rw [exists_document_iff, ← isWritable_editAll h]
  exact ⟨Iff.rfl, fun _ _ => save_serialize_iff⟩

/-- An accepted limit that is too large for a document, behind a token of any kind. -/
def patientEdits : List Edit :=
  [.putToken "two\nlines" "\"\"\"", .set "plugins.handshake_timeout_secs" "9223372036854775808"]

/-- The limit is accepted, but it is not saved. -/
theorem edits_saved_refused :
    ∃ c, default.editAll patientEdits = .ok c ∧ ¬FitsDocument patientEdits ∧
      c.document? = none ∧ (c.save brokenTree (utf8 "cfg")).1 = .error .serialize := by
  have hfits : ¬FitsDocument patientEdits := fun hfits =>
    absurd (hfits .handshakeSeconds (by simp) 9223372036854775808 (by decide)) (by decide)
  have hmade : (brokenTree.makeDirectories (utf8 "cfg")).1 = .ok () := by decide +kernel
  obtain ⟨c, hc⟩ : ∃ c, default.editAll patientEdits = .ok c := ⟨_, rfl⟩
  obtain ⟨hdocument, hsave⟩ := edits_saved_iff hc
  refine ⟨c, hc, hfits, ?_, (hsave _ _).2 ⟨hmade, hfits⟩⟩
  exact Option.eq_none_iff_forall_ne_some.2 fun document hsome => hfits (hdocument.1 ⟨_, hsome⟩)

end PluginHost.Config

import PluginHost.Proofs.Config.RoundTrip
import PluginHost.Proofs.Toml.Numbers

/-!
# Changes of a configuration

* `set_onlyChanges`, `putToken_onlyPuts` and `dropToken_onlyPuts`: a change from a text changes the
  setting that it names, and a change of a token the token of its name.  All else stays as it was.
* `load_ordered`: what is loaded has its tokens in order, so every change of it can be saved and
  loaded again (`RoundTrip`).
* `load_isWritable`: what is loaded can be written, for a document holds no number that it could not
  hold again.
-/

namespace PluginHost.Config

open Toml

/-- At most one setting is another one. -/
def OnlyChanges (c : Config) (key : Key) (c' : Config) : Prop :=
  match key with
  | .level => c' = { c with level := c'.level }
  | .format => c' = { c with format := c'.format }
  | .directory => c' = { c with directory := c'.directory }
  | .handshakeSeconds => c' = { c with handshakeSeconds := c'.handshakeSeconds }
  | .runSeconds => c' = { c with runSeconds := c'.runSeconds }

/-- At most the token of one name is another one, or there is none any more. -/
structure OnlyPuts (c : Config) (name : String) (token : Option String) (c' : Config) : Prop where
  settings : c' = { c with tokens := c'.tokens }
  tokens : ∀ other, c'.token? other = if other = name then token else c.token? other

/-! ## Settings -/

theorem setKey_onlyChanges {c c' : Config} {key : Key} {value : String}
    (h : c.setKey key value = .ok c') : c.OnlyChanges key c' := by
  cases key with
  | level =>
      simp only [setKey] at h
      split at h <;> cases h
      rfl
  | format =>
      simp only [setKey] at h
      split at h
      · cases h
        rfl
      · split at h <;> cases h
        rfl
  | directory =>
      cases h
      rfl
  | handshakeSeconds =>
      simp only [setKey] at h
      split at h <;> cases h
      rfl
  | runSeconds =>
      simp only [setKey] at h
      split at h
      · cases h
        rfl
      · split at h <;> cases h
        rfl

theorem set_onlyChanges {c c' : Config} {name value : String} (h : c.set name value = .ok c') :
    ∃ key, Key.ofName? name = some key ∧ c.OnlyChanges key c' := by
  unfold set at h
  cases hkey : Key.ofName? name with
  | none =>
      rw [hkey] at h
      cases h
  | some key =>
      rw [hkey] at h
      dsimp only at h
      cases hset : c.setKey key value with
      | ok c₁ =>
          rw [hset] at h
          cases h
          exact ⟨key, rfl, setKey_onlyChanges hset⟩
      | error reason =>
          rw [hset] at h
          cases h

theorem OnlyChanges.tokens {c c' : Config} {key : Key} (h : c.OnlyChanges key c') :
    c'.tokens = c.tokens := by
  unfold OnlyChanges at h
  cases key <;> rw [h]

theorem OnlyChanges.handshakeSeconds {c c' : Config} {key : Key} (h : c.OnlyChanges key c')
    (hkey : key ≠ .handshakeSeconds) : c'.handshakeSeconds = c.handshakeSeconds := by
  cases key with
  | handshakeSeconds => contradiction
  | _ => exact congrArg (·.handshakeSeconds) h

theorem OnlyChanges.runSeconds {c c' : Config} {key : Key} (h : c.OnlyChanges key c')
    (hkey : key ≠ .runSeconds) : c'.runSeconds = c.runSeconds := by
  cases key with
  | runSeconds => contradiction
  | _ => exact congrArg (·.runSeconds) h

/-! ## Tokens -/

theorem putToken_onlyPuts (c : Config) (name token : String) :
    c.OnlyPuts name (some token) (c.putToken name token) := by
  refine ⟨rfl, fun other => ?_⟩
  by_cases hother : other = name
  · rw [if_pos hother, hother]
    exact Json.member?_insertMember_self name token c.tokens
  · rw [if_neg hother]
    exact Json.member?_insertMember_of_ne hother token c.tokens

theorem dropToken_onlyPuts (c : Config) (name : String) :
    c.OnlyPuts name none (c.dropToken name) :=
  ⟨rfl, fun other => Json.member?_filter name other c.tokens⟩

/-! ## Order -/

theorem Ordered.set {c c' : Config} (h : c.Ordered) {name value : String}
    (hset : c.set name value = .ok c') : c'.Ordered := by
  obtain ⟨key, -, honly⟩ := set_onlyChanges hset
  unfold Ordered
  rw [honly.tokens]
  exact h

theorem Ordered.putToken {c : Config} (h : c.Ordered) (name token : String) :
    (c.putToken name token).Ordered :=
  Json.pairwise_insertMember name token h

theorem Ordered.dropToken {c : Config} (h : c.Ordered) (name : String) :
    (c.dropToken name).Ordered :=
  h.sublist (List.filter_sublist.map _)

/-- The values in a group. -/
def Group.values : Group → List Value
  | .named members => members.map (·.2)
  | .listed items => items

/-- What a group gives is the default or has been read from one of its values. -/
theorem Group.get_property {α : Type} {group : Group} {name : String} {place : Nat} {missing a : α}
    {read : Value → Option α} (h : group.get name place missing read = some a) {P : α → Prop}
    (hmissing : P missing) (hread : ∀ v ∈ group.values, ∀ b, read v = some b → P b) : P a := by
  unfold Group.get at h
  cases group with
  | named members =>
      cases hvalue : members.lookup name with
      | none =>
          simp only [hvalue, Option.some.injEq] at h
          exact h ▸ hmissing
      | some v =>
          simp only [hvalue] at h
          obtain ⟨before, behind, rfl, -⟩ := List.lookup_eq_some_iff.1 hvalue
          exact hread v (by simp [values]) a h
  | listed items =>
      cases hvalue : items[place]? with
      | none =>
          simp only [hvalue, Option.some.injEq] at h
          exact h ▸ hmissing
      | some v =>
          simp only [hvalue] at h
          exact hread v (List.mem_of_getElem? hvalue) a h

theorem tokensOf?_ordered {v : Value} {tokens : List (String × String)}
    (h : tokensOf? v = some tokens) : (tokens.map (·.1)).Pairwise (· < ·) := by
  unfold tokensOf? at h
  split at h
  · obtain ⟨members, -, rfl⟩ := Option.map_eq_some_iff.1 h
    exact Json.pairwise_membersOf members
  · cases h

theorem readLogging_ordered {group : Group} {c c' : Config} (h : c.Ordered)
    (hread : readLogging group c = some c') : c'.Ordered := by
  simp only [readLogging, bind, Option.bind_eq_some_iff, pure] at hread
  obtain ⟨level, -, format, -, hc⟩ := hread
  cases hc
  exact h

theorem readPlugins_ordered {group : Group} {c c' : Config} (h : c.Ordered)
    (hread : readPlugins group c = some c') : c'.Ordered := by
  simp only [readPlugins, bind, Option.bind_eq_some_iff, pure] at hread
  obtain ⟨directory, -, handshake, -, run, -, hc⟩ := hread
  cases hc
  exact h

theorem readTokens_ordered {group : Group} {c c' : Config} (h : c.Ordered)
    (hread : readTokens group c = some c') : c'.Ordered := by
  simp only [readTokens, bind, Option.bind_eq_some_iff, pure] at hread
  obtain ⟨tokens, htokens, hc⟩ := hread
  cases hc
  exact Group.get_property htokens h fun _ _ _ => tokensOf?_ordered

theorem readGroup_ordered {read : Group → Config → Option Config}
    (hordered : ∀ {group c c'}, c.Ordered → read group c = some c' → c'.Ordered) {c c' : Config}
    (h : c.Ordered) {v : Value} (hread : readGroup read c v = some c') : c'.Ordered := by
  simp only [readGroup, bind, Option.bind_eq_some_iff] at hread
  obtain ⟨group, -, hgroup⟩ := hread
  exact hordered h hgroup

theorem default_ordered : Config.default.Ordered := .nil

/-- The tokens of a document are in order, whatever the document has been. -/
theorem ofDocument?_ordered {text : String} {c : Config} (h : ofDocument? text = some c) :
    c.Ordered := by
  simp only [ofDocument?, ofMembers?, bind, Option.bind_eq_some_iff] at h
  obtain ⟨members, -, c₁, hlogging, c₂, hplugins, hgithub⟩ := h
  have hfirst : c₁.Ordered := Group.get_property hlogging default_ordered fun _ _ _ =>
    readGroup_ordered readLogging_ordered default_ordered
  have hsecond : c₂.Ordered := Group.get_property hplugins hfirst fun _ _ _ =>
    readGroup_ordered readPlugins_ordered hfirst
  exact Group.get_property hgithub hsecond fun _ _ _ =>
    readGroup_ordered readTokens_ordered hsecond

/-- What is loaded holds the defaults or has been read from a document. -/
theorem load_property {t : FileTree} {dir : Path} {c : Config} (h : load t dir = .ok c)
    {P : Config → Prop} (hdefault : P default)
    (hread : ∀ text c, ofDocument? text = some c → P c) : P c := by
  unfold load at h
  dsimp only at h
  split at h
  · cases h
    exact hdefault
  · split at h
    · cases h
    · split at h
      · cases h
      · split at h
        · rename_i hdocument
          cases h
          exact hread _ _ hdocument
        · cases h

theorem load_ordered {t : FileTree} {dir : Path} {c : Config} (h : load t dir = .ok c) :
    c.Ordered :=
  load_property h default_ordered fun _ _ => ofDocument?_ordered

/-! ## Numbers -/

theorem isWritable_iff {c : Config} :
    c.isWritable = true ↔
      c.handshakeSeconds ≤ Text.maxInt64 ∧ ∀ n, c.runSeconds = some n → n ≤ Text.maxInt64 := by
  simp only [isWritable, Bool.and_eq_true, decide_eq_true_eq, Option.all_eq_true]

theorem exists_document_iff {c : Config} :
    (∃ document, c.document? = some document) ↔ c.isWritable = true := by
  unfold document?
  split
  · rename_i hwritable
    exact iff_of_true ⟨_, rfl⟩ hwritable
  · rename_i hwritable
    exact iff_of_false nofun hwritable

theorem natOf?_le {v : Value} {n : Nat} (hv : v.Bounded) (h : natOf? v = some n) :
    n ≤ Text.maxInt64 := by
  unfold natOf? at h
  split at h
  · cases hv with
    | integer hle =>
        split at h
        · cases h
          exact Int.toNat_le.2 hle
        · cases h
  · cases h

theorem Group.ofValue?_bounded {v : Value} {group : Group} (hv : v.Bounded)
    (h : Group.ofValue? v = some group) : ∀ w ∈ group.values, w.Bounded := by
  cases hv with
  | array hitems =>
      cases h
      exact hitems
  | table hmembers =>
      cases h
      exact List.forall_mem_map.2 hmembers
  | datetime =>
      cases h
      exact List.forall_mem_singleton.2 .string
  | _ => cases h

theorem readLogging_isWritable {group : Group} {c c' : Config} (h : c.isWritable = true)
    (hread : readLogging group c = some c') : c'.isWritable = true := by
  simp only [readLogging, bind, Option.bind_eq_some_iff, pure] at hread
  obtain ⟨level, -, format, -, hc⟩ := hread
  cases hc
  exact h

theorem readTokens_isWritable {group : Group} {c c' : Config} (h : c.isWritable = true)
    (hread : readTokens group c = some c') : c'.isWritable = true := by
  simp only [readTokens, bind, Option.bind_eq_some_iff, pure] at hread
  obtain ⟨tokens, -, hc⟩ := hread
  cases hc
  exact h

theorem readPlugins_isWritable {group : Group} (hgroup : ∀ v ∈ group.values, v.Bounded)
    {c c' : Config} (h : c.isWritable = true) (hread : readPlugins group c = some c') :
    c'.isWritable = true := by
  simp only [readPlugins, bind, Option.bind_eq_some_iff, pure] at hread
  obtain ⟨directory, -, handshake, hhandshake, run, hrun, hc⟩ := hread
  cases hc
  rw [isWritable_iff] at h ⊢
  constructor
  · exact Group.get_property (P := (· ≤ Text.maxInt64)) hhandshake h.1 fun v hv _ =>
      natOf?_le (hgroup v hv)
  · refine Group.get_property (P := fun limit => ∀ n, limit = some n → n ≤ Text.maxInt64) hrun h.2
      fun v hv limit hlimit => ?_
    obtain ⟨n, hn, rfl⟩ := Option.map_eq_some_iff.1 hlimit
    rintro _ ⟨⟩
    exact natOf?_le (hgroup v hv) hn

theorem readGroup_isWritable {read : Group → Config → Option Config}
    (hwritable : ∀ {group c c'}, (∀ v ∈ group.values, v.Bounded) → c.isWritable = true →
      read group c = some c' → c'.isWritable = true)
    {c c' : Config} (h : c.isWritable = true) {v : Value} (hv : v.Bounded)
    (hread : readGroup read c v = some c') : c'.isWritable = true := by
  simp only [readGroup, bind, Option.bind_eq_some_iff] at hread
  obtain ⟨group, hgroup, hread⟩ := hread
  exact hwritable (Group.ofValue?_bounded hv hgroup) h hread

/-- What has been read from a document can be written again. -/
theorem ofDocument?_isWritable {text : String} {c : Config} (h : ofDocument? text = some c) :
    c.isWritable = true := by
  simp only [ofDocument?, ofMembers?, bind, Option.bind_eq_some_iff] at h
  obtain ⟨members, hmembers, c₁, hlogging, c₂, hplugins, hgithub⟩ := h
  have hbounded : ∀ v ∈ (Group.named members).values, v.Bounded :=
    List.forall_mem_map.2 (parse?_bounded hmembers)
  have hdefault : default.isWritable = true := by decide
  have hfirst : c₁.isWritable = true := Group.get_property hlogging hdefault fun v hv _ =>
    readGroup_isWritable (fun _ => readLogging_isWritable) hdefault (hbounded v hv)
  have hsecond : c₂.isWritable = true := Group.get_property hplugins hfirst fun v hv _ =>
    readGroup_isWritable (fun hgroup => readPlugins_isWritable hgroup) hfirst (hbounded v hv)
  exact Group.get_property hgithub hsecond fun v hv _ =>
    readGroup_isWritable (fun _ => readTokens_isWritable) hsecond (hbounded v hv)

theorem load_isWritable {t : FileTree} {dir : Path} {c : Config} (h : load t dir = .ok c) :
    c.isWritable = true :=
  load_property h (by decide) fun _ _ => ofDocument?_isWritable

end PluginHost.Config

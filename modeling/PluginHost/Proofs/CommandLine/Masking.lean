import Mathlib.Data.List.Forall2
import PluginHost.Proofs.CommandLine.ConfigEdits

/-!
# What a masked configuration tells

A masked token tells how many characters the token has, and the last four of them if it has more
than eight (`mask_eq_iff`).  A masked configuration tells this of its tokens, their names, and all
its settings (`masked_eq_iff`), and nothing else is used when the configuration is printed
(`run_configPrint`).

`masked_tells` puts this together for two runs on two hosts.
-/

namespace PluginHost

namespace Config

/-! ## One token -/

/-- How many characters of a token are hidden. -/
def hiddenCount (token : String) : Nat :=
  if token.length ≤ 8 then token.length else token.length - 4

/-- The two tokens are equally long, and if they are long they end in the same four characters. -/
def ShownAlike (token other : String) : Prop :=
  token.length = other.length ∧ (8 < token.length →
    token.toList.drop (token.length - 4) = other.toList.drop (other.length - 4))

theorem hiddenCount_le (token : String) : hiddenCount token ≤ token.length := by
  unfold hiddenCount
  split <;> omega

theorem toList_mask (token : String) :
    (mask token).toList =
      List.replicate (hiddenCount token) '*' ++ token.toList.drop (hiddenCount token) := by
  unfold mask hiddenCount
  rw [String.toList_ofList, String.length_toList]

theorem length_mask (token : String) : (mask token).length = token.length := by
  have hle := hiddenCount_le token
  rw [← String.length_toList, toList_mask, List.length_append, List.length_replicate,
    List.length_drop, String.length_toList]
  omega

/-- The same is shown of two tokens exactly if they agree in length and in the end of a long one. -/
theorem mask_eq_iff {token other : String} : mask token = mask other ↔ ShownAlike token other := by
  have hcount : token.length = other.length → hiddenCount token = hiddenCount other := by
    intro hlength
    unfold hiddenCount
    rw [hlength]
  constructor
  · intro hmask
    have hlength : token.length = other.length := by
      rw [← length_mask token, hmask, length_mask]
    refine ⟨hlength, fun hlong => ?_⟩
    have hlists := congrArg String.toList hmask
    rw [toList_mask, toList_mask, hcount hlength] at hlists
    have hends := List.append_cancel_left hlists
    have hhidden : hiddenCount other = other.length - 4 := if_neg (by omega)
    rw [hlength, ← hhidden]
    exact hends
  · rintro ⟨hlength, hends⟩
    rw [← String.toList_inj, toList_mask, toList_mask, hcount hlength]
    congr 1
    by_cases hlong : 8 < token.length
    · have hhidden : hiddenCount other = other.length - 4 := if_neg (by omega)
      rw [hhidden, ← hends hlong, hlength]
    · have hhidden : hiddenCount other = other.length := if_pos (by omega)
      rw [hhidden, List.drop_eq_nil_of_le (String.length_toList.trans_le hlength.le),
        List.drop_eq_nil_of_le String.length_toList.le]

theorem mask_mask (token : String) : mask (mask token) = mask token := by
  refine mask_eq_iff.2 ⟨length_mask token, fun hlong => ?_⟩
  rw [length_mask] at hlong ⊢
  have hhidden : hiddenCount token = token.length - 4 := if_neg (by omega)
  rw [toList_mask, hhidden]
  exact List.drop_left' List.length_replicate

/-! ## All tokens -/

/-- The two configurations are equal but for the values of their tokens, and the same is shown of
each of them. -/
structure MaskedAlike (c other : Config) : Prop where
  settings : other = { c with tokens := other.tokens }
  tokens : List.Forall₂ (fun m n => m.1 = n.1 ∧ ShownAlike m.2 n.2) c.tokens other.tokens

/-- The same is shown of two configurations exactly if they differ in nothing but the hidden part of
their tokens. -/
theorem masked_eq_iff {c other : Config} : c.masked = other.masked ↔ MaskedAlike c other := by
  have htokens : c.masked.tokens = other.masked.tokens ↔
      List.Forall₂ (fun m n => m.1 = n.1 ∧ ShownAlike m.2 n.2) c.tokens other.tokens := by
    unfold masked
    rw [← List.forall₂_eq_eq_eq, List.forall₂_map_left_iff, List.forall₂_map_right_iff]
    simp only [Prod.mk.injEq, mask_eq_iff]
  constructor
  · intro hmasked
    refine ⟨?_, htokens.1 (congrArg tokens hmasked)⟩
    have hsettings := congrArg (fun d : Config => { d with tokens := other.tokens }) hmasked
    exact hsettings.symm
  · rintro ⟨hsettings, hshown⟩
    have hsame : other.masked = { c with tokens := other.masked.tokens } := by
      conv => lhs; rw [hsettings]
      rfl
    rw [hsame, ← htokens.2 hshown]
    rfl

theorem masked_masked (c : Config) : c.masked.masked = c.masked := by
  unfold masked
  simp only [List.map_map, Function.comp_def, mask_mask]

end Config

namespace CommandLine

open Children Config

/-! ## Printing -/

/-- What is printed: a document, and where the plugins are. -/
def printedText (document : String) (plugins : Path) : Bytes :=
  utf8 document ++ utf8 ("# plugins directory: " ++ Path.display plugins ++ "\n")

theorem printConfig_run {s : Session} {document : String}
    (hdocument : s.config.masked.document? = some document) (h : Host) :
    s.printConfig h =
      (.ok (), { h with
        stdout := h.stdout ++ printedText document (s.pluginDirectory h.environment) }) := by
  have hprinted : s.printConfig h =
      (.ok (), { h with
        stdout := h.stdout ++ utf8 document ++ utf8 ("# plugins directory: "
          ++ Path.display (s.pluginDirectory h.environment) ++ "\n") }) := by
    unfold Session.printConfig
    rw [hdocument]
    rfl
  rw [hprinted, printedText, List.append_assoc]

/-- Opening a session leaves the environment. -/
theorem opening_environment (environment : Environment) (args : List Bytes) :
    OpeningMoves (Keeps fun h => h.environment = environment) args where
  loading _ :=
    { spawn := by
        intro path h henvironment
        rcases spawn_cases path (forwardedArgs args) hostOffer h with
          ⟨e, hrun⟩ | ⟨program, name, env, hrun⟩
        · exact hrun ▸ henvironment
        · obtain ⟨child, -, -, htends⟩ := start_opened h program name (forwardedArgs args) env
          exact hrun ▸ htends.environment.trans henvironment
      tends := fun _ _ htends henvironment => htends.environment.trans henvironment
      tracked := fun _ _ henvironment => henvironment
      note := fun _ _ henvironment => henvironment }
  listing _ := Step.moves_onWorld fun _ henvironment => henvironment
  shown _ _ henvironment := henvironment
  told _ _ henvironment := henvironment

/-- A run that is asked to print the configuration prints it behind what it has printed before, and
ends well. -/
theorem run_configPrint {args : List Bytes} {h h₁ : Host} {s : Session} {registry : Registry}
    (hopen : openSession args h = (.ok (s, registry), h₁))
    (hasks : requested s.command args = some .configPrint) {c : Config}
    (hload : Config.load h.world.files s.directory = .ok c) :
    ∃ document h', c.masked.document? = some document ∧ run args h = (.code 0, h') ∧
      h'.stdout = h₁.stdout ++ printedText document (c.pluginsIn h.environment s.directory) := by
  obtain ⟨⟨-, hconfig, -⟩, -⟩ := openSession_stages hopen
  have hsame : s.config = c := by
    rw [hconfig, hload]
    rfl
  have hsettings : c.masked.isWritable = c.isWritable := rfl
  obtain ⟨document, hdocument⟩ := exists_document_iff.2 (hsettings.trans (load_isWritable hload))
  have henvironment : h₁.environment = h.environment := by
    have hkept := openSession_moves (opening_environment h.environment args) h rfl
    rwa [hopen] at hkept
  have hprint := printConfig_run (hsame ▸ hdocument) h₁
  have hdirectory : s.pluginDirectory h₁.environment = c.pluginsIn h.environment s.directory := by
    unfold Session.pluginDirectory
    rw [hsame, henvironment]
  rw [hdirectory] at hprint
  generalize hprinted : ({ h₁ with
    stdout := h₁.stdout ++ printedText document (c.pluginsIn h.environment s.directory) } : Host) =
      h₂ at hprint
  have hanswer : s.answer registry args h₁ = (.ok 0, h₂) := by
    rw [answer_of_requested hasks]
    exact bind_of_ok hprint
  have hends : Moves (Keeps fun h => h.stdout = h₂.stdout)
      (s.plugins.terminate : Step Failure PluginSet) :=
    terminateAll_moves (fun _ _ htext => htext) (fun _ _ htext => htext) s.plugins
  obtain ⟨h₃, hrun, hstdout⟩ := runSession_of_answer (.ok 0) hopen hanswer hends
  refine ⟨document, h₃, hdocument, run_ok hrun, ?_⟩
  rw [hstdout rfl, ← hprinted]

/-- What a masked configuration tells.  Two configurations are masked alike exactly if they are
equal but for the values of their tokens, and these have the same numbers of characters and, where
there are more than eight, the same last four.  Then two runs that print what they have loaded print
the same, in the same environment.  Masking keeps the settings, the names of the tokens and their
lengths, and masking again changes nothing. -/
theorem masked_tells (c other : Config) :
    (c.masked = other.masked ↔ MaskedAlike c other) ∧
    (MaskedAlike c other → ∀ args args' h h' h₁ h₁' s s' registry registry',
      h'.environment = h.environment →
      openSession args h = (.ok (s, registry), h₁) →
      openSession args' h' = (.ok (s', registry'), h₁') →
      requested s.command args = some .configPrint →
      requested s'.command args' = some .configPrint →
      Config.load h.world.files s.directory = .ok c →
      Config.load h'.world.files s'.directory = .ok other →
      ∃ text, (run args h).1 = .code 0 ∧ (run args h).2.stdout = h₁.stdout ++ text ∧
        (run args' h').1 = .code 0 ∧ (run args' h').2.stdout = h₁'.stdout ++ text) ∧
    c.masked = { c with tokens := c.masked.tokens } ∧
    List.Forall₂ (fun m n => n.1 = m.1 ∧ n.2.length = m.2.length) c.tokens c.masked.tokens ∧
    c.masked.masked = c.masked := by
  refine ⟨masked_eq_iff, ?_, rfl, ?_, masked_masked c⟩
  · intro halike args args' h h' h₁ h₁' s s' registry registry' henvironment hopen hopen' hasks
      hasks' hload hload'
    obtain ⟨⟨hdirectory, -, -⟩, -⟩ := openSession_stages hopen
    obtain ⟨⟨hdirectory', -, -⟩, -⟩ := openSession_stages hopen'
    have hsame : s'.directory = s.directory := by
      rw [henvironment, hdirectory] at hdirectory'
      exact (Except.ok.inj hdirectory').symm
    obtain ⟨document, h₂, hdocument, hrun, hstdout⟩ := run_configPrint hopen hasks hload
    obtain ⟨document', h₂', hdocument', hrun', hstdout'⟩ := run_configPrint hopen' hasks' hload'
    have htext : document' = document := by
      rw [← masked_eq_iff.2 halike, hdocument] at hdocument'
      exact (Option.some.inj hdocument').symm
    have hplugins : other.pluginsIn h'.environment s'.directory =
        c.pluginsIn h.environment s.directory := by
      rw [henvironment, hsame, halike.settings]
      rfl
    rw [htext, hplugins] at hstdout'
    rw [hrun, hrun']
    exact ⟨_, rfl, hstdout, rfl, hstdout'⟩
  · unfold masked
    rw [List.forall₂_map_right_iff, List.forall₂_same]
    exact fun m _ => ⟨rfl, length_mask m.2⟩

/-- A host whose configuration file holds a token. -/
def tokenHost (token : String) : Host where
  world := {
    files := ⟨[([utf8 "cfg"], .directory), ([utf8 "cfg", utf8 "config.toml"], .file 0o600
      (utf8 ("[github.tokens]\nwork = \"" ++ token ++ "\"\n")))], []⟩
    client := .offline }
  executables _ := none
  environment := [(configDirectoryVariable, utf8 "cfg")]

/-- The configuration in this file. -/
def tokenConfig (token : String) : Config := { Config.default with tokens := [("work", token)] }

/-- A command line that prints the configuration. -/
def printConfigLine : List Bytes := [utf8 "config", utf8 "print"]

theorem asks_print (token : String) :
    Asks printConfigLine .configPrint (tokenHost token) := by
  have hrequested : requested programCommand printConfigLine = some .configPrint := by
    decide +kernel
  exact asks_of_requested hrequested fun _ _ _ _ _ _ => List.not_mem_nil

/-- Two tokens that end in the same four characters. -/
def twoTokens : List String := ["ghp_first-1234", "ghp_other-1234"]

theorem openSession_token {token : String} (htoken : token ∈ twoTokens) :
    ∃ s registry h₁, openSession printConfigLine (tokenHost token) = (.ok (s, registry), h₁) ∧
      h₁.stdout = [] ∧
      Config.load (tokenHost token).world.files s.directory = .ok (tokenConfig token) := by
  have hdirectory :
      Config.directoryOf [(configDirectoryVariable, utf8 "cfg")] = .ok (utf8 "cfg") := by
    decide +kernel
  have hruns : ∀ token ∈ twoTokens,
      (openSession printConfigLine (tokenHost token)).1.toOption.map (fun _ => ()) = some () ∧
        (openSession printConfigLine (tokenHost token)).2.stdout = [] ∧
        (Config.load (tokenHost token).world.files (utf8 "cfg")).toOption =
          some (tokenConfig token) := by
    decide +kernel
  obtain ⟨hopens, hstdout, hread⟩ := hruns token htoken
  obtain ⟨⟨s, registry⟩, h₁, hopen, -⟩ := Step.exists_ok_of_map hopens
  obtain ⟨⟨hfound, -, -⟩, -⟩ := openSession_stages hopen
  have hsame : utf8 "cfg" = s.directory := Except.ok.inj (hdirectory.symm.trans hfound)
  rw [hopen] at hstdout
  exact ⟨s, registry, h₁, hopen, hstdout, hsame ▸ ok_of_toOption hread⟩

/-- Of two tokens that end in the same four characters, the same is printed. -/
theorem masked_tells_twoTokens :
    MaskedAlike (tokenConfig "ghp_first-1234") (tokenConfig "ghp_other-1234") ∧
      tokenConfig "ghp_first-1234" ≠ tokenConfig "ghp_other-1234" ∧
      (run printConfigLine (tokenHost "ghp_first-1234")).1 = .code 0 ∧
      (run printConfigLine (tokenHost "ghp_first-1234")).2.stdout =
        (run printConfigLine (tokenHost "ghp_other-1234")).2.stdout := by
  have hfirst : "ghp_first-1234" ∈ twoTokens := by decide
  have hother : "ghp_other-1234" ∈ twoTokens := by decide
  obtain ⟨s, registry, h₁, hopen, hnone, hload⟩ := openSession_token hfirst
  obtain ⟨s', registry', h₁', hopen', hnone', hload'⟩ := openSession_token hother
  have hasks := asks_print "ghp_first-1234" s registry h₁ hopen
  have hasks' := asks_print "ghp_other-1234" s' registry' h₁' hopen'
  obtain ⟨halike, hprints, -⟩ :=
    masked_tells (tokenConfig "ghp_first-1234") (tokenConfig "ghp_other-1234")
  have hmasked : (tokenConfig "ghp_first-1234").masked = (tokenConfig "ghp_other-1234").masked := by
    decide +kernel
  have henvironment : (tokenHost "ghp_other-1234").environment =
      (tokenHost "ghp_first-1234").environment := rfl
  obtain ⟨text, hcode, hstdout, -, hstdout'⟩ := hprints (halike.1 hmasked) printConfigLine
    printConfigLine _ _ h₁ h₁' s s' registry registry' henvironment hopen hopen' hasks hasks' hload
    hload'
  refine ⟨halike.1 hmasked, by decide, hcode, ?_⟩
  rw [hstdout, hstdout', hnone, hnone']

end CommandLine

end PluginHost

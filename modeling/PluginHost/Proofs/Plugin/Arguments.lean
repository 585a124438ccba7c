import PluginHost.Children.Program
import PluginHost.Proofs.Plugin.Sparing
import PluginHost.Proofs.Rpc.Transparency

/-!
# What plugins are started with

Every child that loading starts is an executable of the host, started with the arguments of the
options (`StartsWith`).  Nothing else that the host does to its children changes what they were
started with (`StartsNone`), so loading keeps this (`loadAll_startsWith`).

A plugin that has been loaded has described itself over a connection to such a child
(`load_served`).  If the child runs a plugin program, the arguments have reached it as texts, and
running the plugin hands it these texts (`run_served`).
-/

namespace PluginHost

open Children Rpc

namespace Children

/-! ## Children that are not started -/

/-- The children are those that were there before, at the stages that they were at. -/
structure StartsNone (h h' : Host) : Prop where
  executables : h'.executables = h.executables
  children : ∀ c' ∈ h'.children, ∃ c ∈ h.children, c'.pid = c.pid ∧ c'.stage = c.stage

theorem StartsNone.of_children {h h' : Host} (hexecutables : h'.executables = h.executables)
    (hchildren : h'.children = h.children) : StartsNone h h' :=
  ⟨hexecutables, fun c hc => ⟨c, hchildren ▸ hc, rfl, rfl⟩⟩

instance : Std.Refl StartsNone := ⟨fun _ => .of_children rfl rfl⟩

instance : Trans StartsNone StartsNone StartsNone where
  trans h₁ h₂ := by
    refine ⟨h₂.executables.trans h₁.executables, fun c'' hc'' => ?_⟩
    obtain ⟨c', hc', hpid', hstage'⟩ := h₂.children c'' hc''
    obtain ⟨c, hc, hpid, hstage⟩ := h₁.children c' hc'
    exact ⟨c, hc, hpid'.trans hpid, hstage'.trans hstage⟩

theorem StartsNone.of_tends {h h' : Host} (htends : Tends h h') : StartsNone h h' := by
  refine ⟨htends.executables, fun c' hc' => ?_⟩
  obtain ⟨c, hc, hlater⟩ := htends.mem_children hc'
  exact ⟨c, hc, hlater.pid, hlater.stage⟩

theorem note_startsNone {ε : Type} (record : LogRecord) :
    Moves StartsNone (Step.note record : Step ε Unit) :=
  fun _ => .of_children rfl rfl

/-! ## Children that are started -/

/-- The child does what an executable does that has been started with the arguments. -/
def StartedWith (executables : Bytes → Option Executable) (args : List Bytes) (c : Child) : Prop :=
  ∃ data executable start, executables data = some executable ∧ start.args = args ∧
    start.pid = c.pid ∧ c.stage = (executable start).stage

/-- All children of the host have been started with the arguments. -/
structure StartsWith (executables : Bytes → Option Executable) (args : List Bytes) (h : Host) :
    Prop where
  same : h.executables = executables
  children : ∀ c ∈ h.children, StartedWith executables args c

variable {executables : Bytes → Option Executable} {args : List Bytes}

theorem StartsNone.keeps {h h' : Host} (hnone : StartsNone h h') :
    Keeps (StartsWith executables args) h h' := by
  intro hstarts
  refine ⟨hnone.executables.trans hstarts.same, fun c' hc' => ?_⟩
  obtain ⟨c, hc, hpid, hstage⟩ := hnone.children c' hc'
  obtain ⟨data, executable, start, hdata, hargs, hstart, hstage'⟩ := hstarts.children c hc
  exact ⟨data, executable, start, hdata, hargs, hstart.trans hpid.symm, hstage.trans hstage'⟩

theorem moves_keeps {ε α : Type} {x : Step ε α} (hx : Moves StartsNone x) :
    Moves (Keeps (StartsWith executables args)) x :=
  fun h => (hx h).keeps

/-- What holds of the host before a run that keeps it holds afterwards. -/
theorem StartsWith.of_run {ε α : Type} {x : Step ε α} {h h' : Host} {r : Except (Stop ε) α}
    (hstarts : StartsWith executables args h)
    (hx : Moves (Keeps (StartsWith executables args)) x) (hrun : x h = (r, h')) :
    StartsWith executables args h' := by
  have hkept := hx h hstarts
  rwa [hrun] at hkept

/-- What is started is an executable of the host. -/
theorem executable_of_programOf {t : FileTree} {path : Path} {program : Executable} {name : Bytes}
    (h : programOf t executables path = .ok (program, name)) :
    ∃ data, executables data = some program := by
  simp only [programOf, bind, Except.bind, pure, Except.pure] at h
  split at h
  · cases h
  · split at h
    · cases h
      exact ⟨_, ‹_›⟩
    · split at h
      · cases h
      · split at h
        · cases h
        · split at h
          · cases h
            exact ⟨_, ‹_›⟩
          · cases h

theorem start_startsWith {h : Host} (hstarts : StartsWith executables args h) {data : Bytes}
    {program : Executable} (hdata : executables data = some program) (name : Bytes)
    (environment : Environment) :
    StartsWith executables args (h.start program name args environment).2 := by
  obtain ⟨child, hpid, hstage, htends⟩ := start_opened h program name args environment
  have hstarted : StartedWith executables args child :=
    ⟨data, program, ⟨name, args, environment, h.nextPid⟩, hdata, rfl, hpid.symm, hstage⟩
  refine (StartsNone.of_tends htends).keeps ⟨hstarts.same, fun c hc => ?_⟩
  rcases List.mem_append.1 hc with hc | hc
  · exact hstarts.children c hc
  · rw [List.mem_singleton] at hc
    exact hc ▸ hstarted

theorem spawn_startsWith (path : Path) (offer : Offer) :
    Moves (Keeps (StartsWith executables args)) (spawn path args offer) := by
  intro h hstarts
  unfold spawn
  cases hspawn : h.spawn path args offer with
  | error e => exact hstarts
  | ok started =>
      simp only [Host.spawn, bind, Except.bind, pure, Except.pure] at hspawn
      split at hspawn
      · cases hspawn
      · split at hspawn
        · cases hspawn
        · rename_i found hfound
          cases hspawn
          rw [hstarts.same] at hfound
          obtain ⟨data, hdata⟩ := executable_of_programOf hfound
          exact start_startsWith hstarts hdata _ _

end Children

/-! ## Loading -/

section Loading

variable {executables : Bytes → Option Executable} {options : LoadOptions}

theorem loading_startsWith :
    LoadingMoves (Keeps (StartsWith executables options.args)) options where
  spawn path := spawn_startsWith path _
  tends _ _ htends := (StartsNone.of_tends htends).keeps
  tracked _ _ := StartsNone.keeps (.of_children rfl rfl)
  note record := moves_keeps (note_startsNone record)

theorem loadAll_startsWith (directory : Path) :
    Moves (Keeps (StartsWith executables options.args)) (PluginSet.loadAll options directory) :=
  moves_bind (moves_keeps (Step.moves_onWorld fun _ => .of_children rfl rfl)) fun paths =>
    loadEach_moves loading_startsWith paths

end Loading

/-! ## Plugins that have been loaded -/

/-- The plugin has described itself over a new connection to a child that runs the executable. -/
def ServedBy (executable : Executable) (start : Start) (p : LoadedPlugin) : Prop :=
  ∃ (transport : Transport) (socket : Bytes) (client : Client) (info : PluginInfo),
    (executable start).stage = .serving transport socket client.connection.peer ∧
    client.connection = { peer := client.connection.peer } ∧
    client.describe.outcome = .finished (.ok info) ∧ p.client = client.describe.client

/-- The plugin is served by an executable that has been started with the arguments. -/
def ServedWith (executables : Bytes → Option Executable) (args : List Bytes) (p : LoadedPlugin) :
    Prop :=
  ∃ data executable start, executables data = some executable ∧ start.args = args ∧
    ServedBy executable start p

theorem mem_of_listenerAt {h : Host} {transport : Transport} {socket : Bytes} {c : Child}
    {peer : Peer} (hlistener : h.listenerAt transport socket = some (c, peer)) :
    c ∈ h.children ∧ c.stage = .serving transport socket peer := by
  obtain ⟨d, hd, hfound⟩ := List.exists_of_findSome?_eq_some hlistener
  split at hfound
  · rename_i t s p hstage
    split_ifs at hfound with hhere
    cases hfound
    simp only [Bool.and_eq_true, beq_iff_eq] at hhere
    obtain ⟨⟨-, rfl⟩, rfl⟩ := hhere
    exact ⟨hd, hstage⟩
  · cases hfound

/-- A connection leads to a child that serves it. -/
theorem connect_ok {line : HandshakeLine} {limit : Option Duration} {h h' : Host} {server : Nat}
    {client : Client} (hrun : connect line limit h = (.ok (server, client), h')) :
    ∃ c ∈ h.children, ∃ socket,
      c.stage = .serving line.transport socket client.connection.peer ∧
        client.connection = { peer := client.connection.peer } := by
  unfold connect at hrun
  split at hrun
  · cases hrun
  · rename_i pid peer hconnect
    split_ifs at hrun
    · cases hrun
    · cases hrun
      unfold Host.connect at hconnect
      split at hconnect
      · cases hconnect
      · split at hconnect
        · rename_i hlistener
          cases hconnect
          obtain ⟨hmem, hstage⟩ := mem_of_listenerAt hlistener
          exact ⟨_, hmem, _, hstage, rfl⟩
        · cases hconnect

/-- A call that succeeds has been made over the connection, as it was or after the child has gone. -/
theorem performCall_ok {ε α : Type} {pid : Nat} {client client' : Client} {call : Client → Call α}
    {h h' : Host} {result : Except RpcError α}
    (hrun : (performCall pid client call : Step ε _) h = (.ok (result, client'), h')) :
    ∃ reached, (reached = client ∨
        reached = { client with connection := client.connection.abandon }) ∧
      (call reached).outcome = .finished result ∧ client' = (call reached).client := by
  unfold performCall at hrun
  dsimp only at hrun
  refine ⟨if h.isAlive pid then client
    else { client with connection := client.connection.abandon }, ?_, ?_⟩
  · split_ifs
    · exact .inl rfl
    · exact .inr rfl
  · generalize (if h.isAlive pid then client
      else { client with connection := client.connection.abandon }) = reached at hrun ⊢
    split at hrun
    · cases hrun
    · cases hrun
    · rename_i houtcome
      cases hrun
      exact ⟨houtcome, rfl⟩

/-- Nothing is described over a connection whose peer has gone. -/
theorem describe_abandoned (client : Client) (info : PluginInfo) :
    (Client.describe { client with connection := client.connection.abandon }).outcome ≠
      .finished (.ok info) := by
  rintro h
  cases h

/-- A plugin that describes itself is served by a child of the host. -/
theorem describe_served {options : LoadOptions} {process : PluginProcess} {h h' : Host}
    {p : LoadedPlugin} {executables : Bytes → Option Executable} {args : List Bytes}
    (hrun : LoadedPlugin.describe options process h = (.ok p, h'))
    (hstarts : StartsWith executables args h) : ServedWith executables args p := by
  obtain ⟨line, h₁, hline, hrun⟩ := bind_ok hrun
  obtain ⟨_, h₂, hnote, hrun⟩ := bind_ok hrun
  obtain ⟨⟨server, client⟩, h₃, hconnect, hrun⟩ := bind_ok hrun
  obtain ⟨⟨answer, client'⟩, h₄, hcall, hrun⟩ := bind_ok hrun
  have hstarts₁ := (StartsNone.of_tends ((awaitHandshake_tends _ _ _).of_ok hline)).keeps hstarts
  have hstarts₂ := hstarts₁.of_run (moves_keeps (note_startsNone _)) hnote
  obtain ⟨c, hc, socket, hserving, hnew⟩ := connect_ok (Step.wrapped_ok hconnect)
  obtain ⟨data, executable, start, hdata, hargs, -, hstage⟩ := hstarts₂.children c hc
  cases answer with
  | error e => cases hrun
  | ok info =>
      cases hrun
      obtain ⟨reached, hreached, houtcome, hclient⟩ := performCall_ok hcall
      rcases hreached with rfl | rfl
      · exact ⟨data, executable, start, hdata, hargs, _, socket, _, info, hstage ▸ hserving, hnew,
          houtcome, hclient⟩
      · exact absurd houtcome (describe_abandoned client info)

theorem load_served {options : LoadOptions} {path : Path} {h h' : Host} {p : LoadedPlugin}
    {executables : Bytes → Option Executable}
    (hrun : LoadedPlugin.load options path h = (.ok p, h'))
    (hstarts : StartsWith executables options.args h) : ServedWith executables options.args p := by
  obtain ⟨process, h₁, hspawn, hrun⟩ := bind_ok hrun
  have hstarts₁ := hstarts.of_run (spawn_startsWith path _) hspawn
  rw [bind_run, Step.attempt_run] at hrun
  cases hdescribe : LoadedPlugin.describe options process h₁ with
  | mk r h₂ =>
      rw [hdescribe] at hrun
      rcases r with (e | s) | described
      · obtain ⟨_, _, _, hrun⟩ := bind_ok hrun
        cases hrun
      · cases hrun
      · cases hrun
        exact describe_served hdescribe hstarts₁

/-- All plugins that have been loaded are served by children that were started with the arguments. -/
theorem loadEach_served {ε : Type} {options : LoadOptions} {paths : List Path} {h h' : Host}
    {plugins : PluginSet} {executables : Bytes → Option Executable}
    (hrun : (PluginSet.loadEach options paths : Step ε PluginSet) h = (.ok plugins, h'))
    (hstarts : StartsWith executables options.args h) :
    ∀ p ∈ plugins, ServedWith executables options.args p := by
  induction paths generalizing h plugins with
  | nil =>
      cases hrun
      exact fun p hp => absurd hp List.not_mem_nil
  | cons path paths ih =>
      rw [PluginSet.loadEach, bind_run, Step.attempt_run] at hrun
      cases hloaded : LoadedPlugin.load options path h with
      | mk r h₁ =>
          have hafter := hstarts.of_run (load_moves loading_startsWith path) hloaded
          rw [hloaded] at hrun
          rcases r with (e | s) | p
          · obtain ⟨_, h₂, hnote, hrun⟩ := bind_ok hrun
            exact ih hrun (hafter.of_run (moves_keeps (note_startsNone _)) hnote)
          · cases hrun
          · obtain ⟨_, h₂, hnote, hrun⟩ := bind_ok hrun
            have hnoted := hafter.of_run (moves_keeps (note_startsNone _)) hnote
            obtain ⟨others, h₃, hothers, hrun⟩ := bind_ok hrun
            cases hrun
            exact List.forall_mem_cons.2 ⟨load_served hloaded hstarts, ih hothers hnoted⟩

/-! ## Plugin programs -/

section Programs

variable {σ : Type} {program : Program σ} {initial : σ} {written : σ → Bytes} {offer : Offer}
  {transport : Transport} {address : String} {executable : Executable} {start : Start}
  {p : LoadedPlugin}

/-- A plugin program that serves has been given its arguments as texts. -/
theorem peer_of_launchUnder {t : Transport} {socket : Bytes} {peer : Peer}
    (hstage : (launchUnder offer program initial written transport address start).stage =
      .serving t socket peer) :
    peer = servingPeer program (start.args.map lossyText) initial written := by
  unfold launchUnder at hstage
  split at hstage
  · cases hstage
  · cases hstage
    rfl

/-- A plugin program that has been loaded has been asked for its description. -/
theorem serving_of_servedBy (hserved : ServedBy executable start p)
    (hlaunch : executable start =
      launchUnder offer program initial written transport address start) :
    Serving program (start.args.map lossyText) initial written (program.afterInfo initial) [.info]
      p.client.connection := by
  obtain ⟨_, _, client, info, hstage, hnew, -, hclient⟩ := hserved
  have hpeer := peer_of_launchUnder (hlaunch ▸ hstage)
  have hserving : Serving program (start.args.map lossyText) initial written initial []
      client.connection := by
    rw [hnew]
    exact ⟨hpeer, rfl, rfl, rfl, rfl, rfl⟩
  rw [hclient]
  exact (ask_serving hserving .info).2

theorem reaction_of_send {c sent : Connection} {line : Bytes} {r : Reaction}
    (hsend : c.send line = some (r, sent)) : r = c.peer c.received line := by
  unfold Connection.send at hsend
  split_ifs at hsend
  cases hsend
  rfl

theorem reaction_of_call {c : Client} {method : String} {r : Reaction}
    (hcall : (c.call method).reaction = some r) :
    r = c.connection.peer c.connection.received (requestLine c.nextId.toInt method) := by
  unfold Client.call at hcall
  dsimp only at hcall
  split at hcall
  · cases hcall
  · rename_i hsend
    rw [← reaction_of_send hsend]
    split at hcall <;> cases hcall <;> rfl

/-- A plugin program does not signal the host. -/
theorem signal_of_serving {texts : List String} {state : σ} {log : List PluginCall} {c : Client}
    (hserving : Serving program texts initial written state log c.connection) {method : String}
    {r : Reaction} (hcall : (c.call method).reaction = some r) : r.signal.isSome = false := by
  rw [reaction_of_call hcall, hserving.peer]
  unfold servingPeer
  dsimp only
  split <;> rfl

/-- A call that does not signal the host comes to its end, if the child is there. -/
theorem performCall_alive {ε α : Type} {pid : Nat} {client : Client} (call : Client → Call α)
    {h : Host} (halive : h.isAlive pid = true) {result : Except RpcError α}
    (houtcome : (call client).outcome = .finished result)
    (hsignal : ∀ r, (call client).reaction = some r → r.signal.isSome = false) :
    ∃ h', (performCall pid client call : Step ε _) h = (.ok (result, (call client).client), h') := by
  unfold performCall
  rw [halive]
  dsimp only
  rw [if_pos rfl]
  cases hreaction : (call client).reaction with
  | none =>
      rw [houtcome]
      exact ⟨h, rfl⟩
  | some r =>
      have hreact : (h.react pid r).1 = .ok () := by
        unfold Host.react
        rw [hsignal r hreaction]
        rfl
      rw [houtcome]
      refine ⟨(h.react pid r).2, ?_⟩
      dsimp only
      rw [hreact]

/-- A plugin program that is run while it is there gets the arguments as texts, once, and its own
result is the result. -/
theorem run_served {ε : Type} (hserved : ServedBy executable start p)
    (hlaunch : executable start =
      launchUnder offer program initial written transport address start) {h : Host}
    (halive : h.isAlive p.server = true) :
    let texts := start.args.map lossyText
    ∃ result p' h', (p.run : Step ε _) h = (.ok (result, p'), h') ∧
      Answer.run result = (program.ask texts (program.afterInfo initial) .run).1 ∧
      Serving program texts initial written (program.run (program.afterInfo initial) texts).2
        [.info, .run texts] p'.client.connection := by
  intro texts
  have hserving := serving_of_servedBy hserved hlaunch
  obtain ⟨hanswer, hafter⟩ := ask_serving hserving .run
  have hstate : (program.ask texts (program.afterInfo initial) .run).2 =
      (program.run (program.afterInfo initial) texts).2 := by
    unfold Program.ask
    cases program.run (program.afterInfo initial) texts with
    | mk r next => cases r <;> rfl
  rw [hstate] at hafter
  cases houtcome : p.client.run.outcome with
  | endless =>
      have hnone : (p.client.ask .run).1 = none := by
        show p.client.run.outcome.map Answer.run = none
        rw [houtcome]
        rfl
      rw [hnone] at hanswer
      cases hanswer
  | finished result =>
      have hsame : (p.client.ask .run).1 = some (Answer.run result) := by
        show p.client.run.outcome.map Answer.run = _
        rw [houtcome]
        rfl
      rw [hsame] at hanswer
      obtain ⟨h', hrun⟩ := performCall_alive (ε := ε) Client.run
        (h := Step.noted h (loaderRecord .debug ("Running plugin " ++ p.descriptor.name)))
        halive houtcome fun r hr => signal_of_serving hserving hr
      refine ⟨result, { p with client := p.client.run.client }, h', ?_, Option.some.inj hanswer,
        hafter⟩
      unfold LoadedPlugin.run
      rw [bind_run, Step.note_run]
      dsimp only
      rw [bind_run, hrun]
      rfl

end Programs

end PluginHost

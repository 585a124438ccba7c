import PluginHost.Proofs.Handshake
import PluginHost.Proofs.Plugin.Arguments
import PluginHost.Proofs.Plugin.Interrupt

/-!
# Plugins that answer at once

A plugin program that conforms, can be reached over its transport and answers at once is loaded if
the limits leave it any time at all (`load_answering`); with a limit of zero no plugin whatever is
loaded (`leavesTime_of_load`).

The child of the program is the last of the children until it has described itself (`Newest`).  It
is followed through the stages of loading: it has written its announcement when it is started
(`launched_newest`), the announcement is taken (`awaitHandshake_newest`), the connection leads to it
(`connect_newest`), and it gives its description (`describe_fresh`).
-/

namespace PluginHost

open Children Rpc Text Interrupt

/-- Neither limit is zero. -/
def LeavesTime (handshake : Duration) (answer : Option Duration) : Prop :=
  handshake.isZero = false ∧ ∀ limit ∈ answer, limit.isZero = false

/-- What the next child of the host is given, if it is started with these arguments. -/
def nextStart (name : Bytes) (args : List Bytes) (h : Host) : Start :=
  ⟨name, args, pluginEnvironment h.environment hostOffer, h.nextPid⟩

/-- The file runs a plugin program that speaks with this host, has a name, and listens at an address
where it can be reached and nobody else is. -/
structure Answering {σ : Type} (program : Program σ) (initial : σ) (written : σ → Bytes)
    (transport : Transport) (address : String) (args : List Bytes) (path : Path) (h : Host) :
    Prop where
  passable : refusedArgs args = none
  runs : ∃ executable name, programOf h.world.files h.executables path = .ok (executable, name) ∧
    executable (nextStart name args h) =
      launchUnder hostOffer program initial written transport address (nextStart name args h)
  named : trim (program.info initial).name ≠ ""
  isAddress : IsAddress address
  reachable : h.socketAt transport address = .ok (utf8 address)
  free : h.listenerAt transport (utf8 address) = none
  fresh : ∀ pid ∈ h.pids, pid < h.nextPid

/-! ## The limits are needed -/

theorem awaitHandshake_leavesTime {process : PluginProcess} {limit : Duration} {offer : Offer}
    {h h' : Host} {line : HandshakeLine}
    (hrun : awaitHandshake process limit offer h = (.ok line, h')) : limit.isZero = false := by
  unfold awaitHandshake at hrun
  split at hrun
  · cases hrun
  · rename_i c _
    cases hzero : limit.isZero with
    | false => rfl
    | true =>
        have htimeout : c.awaited limit = .timeout := by
          unfold Child.awaited
          rw [if_pos hzero]
        rw [htimeout] at hrun
        cases hrun

theorem connect_leavesTime {line : HandshakeLine} {limit : Option Duration} {h h' : Host}
    {reached : Nat × Client} (hrun : connect line limit h = (.ok reached, h')) :
    ∀ d ∈ limit, d.isZero = false := by
  unfold connect at hrun
  split at hrun
  · cases hrun
  · split_ifs at hrun with hzero
    · cases hrun
    · intro d hd
      obtain rfl := Option.mem_def.1 hd
      simpa using hzero

/-- Whatever is loaded has been given time. -/
theorem leavesTime_of_load {options : LoadOptions} {path : Path} {h h' : Host} {p : LoadedPlugin}
    (hrun : LoadedPlugin.load options path h = (.ok p, h')) :
    LeavesTime options.handshakeLimit options.answerLimit := by
  obtain ⟨process, h₁, -, hrun⟩ := bind_ok hrun
  obtain ⟨loaded, h₂, hattempt, hrun⟩ := bind_ok hrun
  cases hdescribe : LoadedPlugin.describe options process h₁ with
  | mk r h₃ =>
      rw [Step.attempt_run, hdescribe] at hattempt
      rcases r with (e | s) | described
      · cases hattempt
        obtain ⟨_, _, _, hrun⟩ := bind_ok hrun
        cases hrun
      · cases hattempt
      · obtain ⟨line, h₄, hline, hdescribe⟩ := bind_ok hdescribe
        obtain ⟨_, h₅, -, hdescribe⟩ := bind_ok hdescribe
        obtain ⟨reached, h₆, hconnect, -⟩ := bind_ok hdescribe
        exact ⟨awaitHandshake_leavesTime hline, connect_leavesTime (Step.wrapped_ok hconnect)⟩

/-! ## The newest child -/

namespace Children

/-- A child stands behind others, and has a number of its own. -/
structure Newest (others : List Child) (child : Child) (h : Host) : Prop where
  children : h.children = others ++ [child]
  apart : ∀ c ∈ others, c.pid ≠ child.pid

variable {others : List Child} {child : Child} {h : Host}

theorem Newest.child? (hnew : Newest others child h) : h.child? child.pid = some child := by
  have hnone : others.find? (·.pid == child.pid) = none :=
    List.find?_eq_none.2 fun c hc => by simpa using hnew.apart c hc
  unfold Host.child?
  rw [hnew.children, List.find?_append, hnone]
  simp

theorem Newest.updateChild (hnew : Newest others child h) {f : Child → Child}
    (hf : (f child).pid = child.pid) : Newest others (f child) (h.updateChild child.pid f) where
  children := by
    have hsame : others.map (fun c => if c.pid == child.pid then f c else c) = others := by
      refine (List.map_congr_left fun c hc => ?_).trans (List.map_id others)
      rw [if_neg (by simpa using hnew.apart c hc), id]
    unfold Host.updateChild
    dsimp only
    rw [hnew.children, List.map_append, hsame, List.map_singleton, beq_self_eq_true, if_pos rfl]
  apart := by
    rw [hf]
    exact hnew.apart

theorem Newest.isAlive (hnew : Newest others child h) : h.isAlive child.pid = child.isAlive := by
  unfold Host.isAlive
  rw [hnew.child?]

/-- The newest child is found at its socket, if nobody else listens there. -/
theorem Newest.listenerAt (hnew : Newest others child h) {before : Host} {transport : Transport}
    {socket : Bytes} (hothers : before.children = others)
    (hfree : before.listenerAt transport socket = none) {peer : Peer}
    (hstage : child.stage = .serving transport socket peer) (halive : child.isAlive = true) :
    h.listenerAt transport socket = some (child, peer) := by
  unfold Host.listenerAt at hfree ⊢
  rw [hothers] at hfree
  rw [hnew.children, List.findSome?_append, hfree, Option.none_or, List.findSome?_singleton, hstage,
    halive]
  simp

theorem Newest.takeOutput (hnew : Newest others child h) (stdout stderr : Bytes) :
    Newest others { child with output := (child.output.feed stdout).2 }
      (h.takeOutput child.pid stdout stderr) := by
  have hfed :=
    hnew.updateChild (f := fun c => { c with output := (child.output.feed stdout).2 }) rfl
  unfold Host.takeOutput
  rw [hnew.child?]
  exact ⟨hfed.children, hfed.apart⟩

/-- The child that a program becomes, with what it writes at once. -/
def launchedChild (h : Host) (launch : Launch) : Child where
  pid := h.nextPid
  isAlive := goesOn launch
  output := (FirstLine.feed {} launch.stdout).2
  stage := launch.stage

theorem launched_newest (launch : Launch) (hfresh : ∀ pid ∈ h.pids, pid < h.nextPid) :
    Newest h.children (launchedChild h launch) (launched h launch) := by
  have hopened : Newest h.children ⟨h.nextPid, goesOn launch, {}, false, launch.stage⟩
      (h.opened ⟨h.nextPid, goesOn launch, {}, false, launch.stage⟩) :=
    ⟨rfl, fun c hc => (hfresh c.pid (List.mem_map_of_mem hc)).ne⟩
  exact hopened.takeOutput launch.stdout launch.stderr

theorem launched_resolve (h : Host) (launch : Launch) : (launched h launch).resolve = h.resolve :=
  (takeOutput_tends _ _ _ _).resolve

/-- Where an address leads is up to the system. -/
theorem socketAt_congr {h h' : Host} (hresolve : h'.resolve = h.resolve) (transport : Transport)
    (address : String) : h'.socketAt transport address = h.socketAt transport address := by
  unfold Host.socketAt
  rw [hresolve]

/-! ## What a plugin writes -/

/-- A line that arrives in one piece is the first line, and it is complete. -/
theorem feed_line {s : String} (h : '\n' ∉ s.toList) :
    (FirstLine.feed {} (utf8 (s ++ "\n"))).2 = ⟨utf8 (s ++ "\n"), true⟩ := by
  obtain ⟨hline, hnone⟩ := utf8_line h
  rw [hline, FirstLine.feed_eq, FirstLine.cut_line hnone]
  rfl

end Children

theorem lookup_pluginEnvironment (environment : Environment) :
    (pluginEnvironment environment hostOffer).lookup hostOffer.cookieVariable =
        some (utf8 hostOffer.cookie) ∧
      (pluginEnvironment environment hostOffer).lookup versionsVariable =
        some (utf8 hostOffer.versionsValue) := by
  have hother : (hostOffer.cookieVariable == versionsVariable) = false := by decide
  have hkept : setVariable
      (setVariable environment hostOffer.cookieVariable (utf8 hostOffer.cookie))
      versionsVariable (utf8 hostOffer.versionsValue) =
        (versionsVariable, utf8 hostOffer.versionsValue) ::
          (hostOffer.cookieVariable, utf8 hostOffer.cookie) ::
            (environment.filter (·.1 != hostOffer.cookieVariable)).filter
              (·.1 != versionsVariable) := by
    unfold setVariable
    rw [List.filter_cons_of_pos (by decide)]
  unfold pluginEnvironment
  rw [hkept, List.lookup_cons, hother, List.lookup_cons_self, List.lookup_cons_self]
  exact ⟨rfl, rfl⟩

section Programs

variable {σ : Type} {program : Program σ} {initial : σ} {written : σ → Bytes}

/-- A plugin program that the host starts announces itself and serves. -/
theorem launchUnder_eq (program : Program σ) (initial : σ) (written : σ → Bytes)
    (transport : Transport) (address : String) {s : Start} {environment : Environment}
    (henvironment : s.environment = pluginEnvironment environment hostOffer) :
    launchUnder hostOffer program initial written transport address s =
      { stdout := utf8 ((HandshakeLine.new 1 transport address).display ++ "\n")
        stage := .serving transport (utf8 address)
          (servingPeer program (s.args.map lossyText) initial written) } := by
  obtain ⟨hcookie, hversions⟩ := lookup_pluginEnvironment environment
  have hspoken : ∀ v ∈ hostOffer.versions, v ≤ maxUInt32 := by decide
  have hannounce := announce_eq hostOffer hspoken
    (some (utf8 hostOffer.cookie))
  rw [if_pos rfl] at hannounce
  have hone : negotiate hostOffer.versions hostOffer.versions = some 1 := by decide
  rw [hone] at hannounce
  unfold launchUnder
  rw [henvironment, hcookie, hversions, hannounce]

/-- A plugin program that has not been asked yet gives its description, if that has a name. -/
theorem describe_fresh {texts : List String} (client : Client)
    (hnew : client.connection = { peer := servingPeer program texts initial written })
    (hnamed : trim (program.info initial).name ≠ "") :
    client.describe.outcome = .finished (.ok (program.info initial)) ∧
      ∀ r, client.describe.reaction = some r → r.signal.isSome = false := by
  have hserving : Serving program texts initial written initial [] client.connection := by
    rw [hnew]
    exact ⟨rfl, rfl, rfl, rfl, rfl, rfl⟩
  have hanswer :
      client.describe.outcome.map Answer.info = some (program.ask texts initial .info).1 :=
    (ask_serving hserving .info).1
  have hask : (program.ask texts initial .info).1 = .info (.ok (program.info initial)) := by
    unfold Program.ask
    rw [if_neg hnamed]
  rw [hask] at hanswer
  refine ⟨?_, fun r hr => signal_of_serving hserving hr⟩
  cases houtcome : client.describe.outcome with
  | endless =>
      rw [houtcome] at hanswer
      cases hanswer
  | finished result =>
      rw [houtcome] at hanswer
      cases hanswer
      rfl

end Programs

/-! ## The stages -/

section Stages

variable {others : List Child} {child : Child} {h : Host}

/-- The announcement of the newest child is taken. -/
theorem awaitHandshake_newest (hnew : Newest others child h) (process : PluginProcess)
    (hpid : process.pid = child.pid) {limit : Duration} (hlimit : limit.isZero = false)
    {offer : Offer} {line : HandshakeLine} {output : Bytes}
    (houtput : child.output = ⟨output, true⟩) (hfirst : child.isTaken = false)
    (hannounced : announced offer output = .ok line) :
    ∃ h', awaitHandshake process limit offer h = (.ok line, h') ∧
      Newest others { child with isTaken := true } h' := by
  have hawaited : child.awaited limit = .line output := by
    unfold Child.awaited
    simp [hlimit, hfirst, houtput]
  refine ⟨_, ?_, hnew.updateChild (f := fun c => { c with isTaken := true }) rfl⟩
  unfold awaitHandshake
  simp only [hpid, hnew.child?, hawaited, hannounced]

/-- A connection is made to the newest child. -/
theorem connect_newest (hnew : Newest others child h) {before : Host} (version : Nat)
    {transport : Transport} {address : String} {peer : Peer} {limit : Option Duration}
    (hlimit : ∀ d ∈ limit, d.isZero = false)
    (hreachable : h.socketAt transport address = .ok (utf8 address))
    (hothers : before.children = others)
    (hfree : before.listenerAt transport (utf8 address) = none)
    (hstage : child.stage = .serving transport (utf8 address) peer)
    (halive : child.isAlive = true) :
    connect (.new version transport address) limit h =
      (.ok (child.pid, { address, connection := { peer }, limit }), h) := by
  have hany : limit.any (·.isZero) = false := by
    rw [Option.any_eq_false]
    simpa using hlimit
  have hconnect : h.connect transport address = .ok (child.pid, peer) := by
    unfold Host.connect
    rw [hreachable]
    dsimp only
    rw [hnew.listenerAt hothers hfree hstage halive]
  unfold connect HandshakeLine.new
  rw [hconnect]
  dsimp only
  rw [hany]
  rfl

end Stages

section Loading

variable {σ : Type} {program : Program σ} {initial : σ} {written : σ → Bytes}
  {transport : Transport} {address : String} {options : LoadOptions} {path : Path} {h : Host}

/-- The file is started, announces itself and serves. -/
theorem Answering.launch
    (hplugin : Answering program initial written transport address options.args path h)
    (hoffer : options.offer = hostOffer) :
    ∃ launch, launch? options h h.nextPid path = some launch ∧
      launch.stdout = utf8 ((HandshakeLine.new 1 transport address).display ++ "\n") ∧
      launch.stage = .serving transport (utf8 address)
        (servingPeer program (options.args.map lossyText) initial written) := by
  obtain ⟨executable, name, hprogram, hruns⟩ := hplugin.runs
  have hlaunch := launchUnder_eq program initial written transport address
    (s := nextStart name options.args h) rfl
  refine ⟨executable (nextStart name options.args h), ?_, ?_, ?_⟩
  · unfold launch?
    rw [hplugin.passable, hprogram, hoffer]
    rfl
  · rw [hruns, hlaunch]
  · rw [hruns, hlaunch]
    rfl

/-- A plugin that answers at once is loaded, if it is given any time. -/
theorem load_answering
    (hplugin : Answering program initial written transport address options.args path h)
    (hoffer : options.offer = hostOffer)
    (htime : LeavesTime options.handshakeLimit options.answerLimit) :
    ∃ p h', LoadedPlugin.load options path h = (.ok p, h') ∧
      p.descriptor = .ofInfo (program.info initial) path := by
  obtain ⟨launch, hlaunch, hstdout, hstage⟩ := hplugin.launch hoffer
  have hspoken : announced hostOffer
      (utf8 ((HandshakeLine.new 1 transport address).display ++ "\n")) =
        .ok (HandshakeLine.new 1 transport address) :=
    (announces_display (by decide) (by decide) transport hplugin.isAddress).announced
  have hnewest := launched_newest launch hplugin.fresh
  have houtput : (launchedChild h launch).output =
      ⟨utf8 ((HandshakeLine.new 1 transport address).display ++ "\n"), true⟩ := by
    show (FirstLine.feed {} launch.stdout).2 = _
    rw [hstdout]
    exact feed_line (newline_notMem_display 1 transport hplugin.isAddress)
  have halive : (launchedChild h launch).isAlive = true := by
    show goesOn launch = true
    rw [goesOn, hstage]
  -- The child through the stages.
  obtain ⟨h₁, hline, htaken⟩ := awaitHandshake_newest hnewest
    { path, pid := h.nextPid } rfl htime.1 houtput rfl hspoken
  have htends := (awaitHandshake_tends { path, pid := h.nextPid } _ _).of_ok hline
  have hreachable : h₁.socketAt transport address = .ok (utf8 address) := by
    rw [socketAt_congr (htends.resolve.trans (launched_resolve h launch)), hplugin.reachable]
  have hreached := connect_newest htaken 1 htime.2 hreachable rfl hplugin.free hstage halive
  obtain ⟨houtcome, hsignal⟩ := describe_fresh
    { address, limit := options.answerLimit
      connection := { peer := servingPeer program (options.args.map lossyText) initial written } }
    rfl hplugin.named
  obtain ⟨h₂, hanswer⟩ := performCall_alive (ε := PluginError) Client.describe
    (htaken.isAlive.trans halive) houtcome hsignal
  have hstages : (stages options path h).1 = .ok (program.info initial) := by
    unfold stages described
    rw [bind_of_ok (spawn_of_launch hlaunch), hoffer, bind_of_ok hline, bind_run,
      Step.wrapped_run, hreached]
    dsimp only
    rw [bind_of_ok hanswer]
    rfl
  have hdescriptor := load_descriptor options path h
  rw [hstages] at hdescriptor
  cases hload : LoadedPlugin.load options path h with
  | mk r h' =>
      rw [hload] at hdescriptor
      cases r with
      | error stop => cases hdescriptor
      | ok p => exact ⟨p, h', rfl, Except.ok.inj hdescriptor⟩

end Loading

end PluginHost

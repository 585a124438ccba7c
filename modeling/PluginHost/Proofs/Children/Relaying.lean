import Mathlib.Data.List.Basic
import Mathlib.Tactic.SplitIfs
import PluginHost.Children.Supervise

/-!
# How the output of a child is split

The output of a child is its first line, up to a newline and with it, and the rest (`IsSplit`).

* However the output is cut into pieces, the same is kept as the line and the same is passed on.  Two
  pieces do as much as one (`feed_append`), and a reader that takes the pieces through its buffer does
  as much as if all came at once (`split_eq_feed`).
* Kept and passed on are the two parts of the output (`isSplit_feed`).
* While a child writes and ends (`Event`), its line is kept and what stands behind it goes to the
  output of the host: `happens_reads` for one event, `happenAll_reads` for all.
* Waiting for the handshake takes the line and changes nothing else, whatever the line is
  (`awaitHandshake_reads`).
-/

namespace PluginHost.Children

/-- An output is its first line, up to a newline and with it, and the rest.  Without a newline, all of
it is the line. -/
structure IsSplit (output line rest : Bytes) : Prop where
  whole : line ++ rest = output
  one : (10 : UInt8) ∉ line.dropLast
  ends : rest ≠ [] → line.getLast? = some 10

/-! ## Pieces -/

namespace FirstLine

theorem feed_of_complete (bytes piece : Bytes) : feed ⟨bytes, true⟩ piece = (piece, ⟨bytes, true⟩) := by
  rw [feed_eq]
  rfl

theorem feed_of_cut {piece front behind : Bytes} (h : cut piece = some (front, behind))
    (bytes : Bytes) : feed ⟨bytes, false⟩ piece = (behind, ⟨bytes ++ front, true⟩) := by
  rw [feed_eq, h]
  rfl

theorem feed_of_uncut {piece : Bytes} (h : cut piece = none) (bytes : Bytes) :
    feed ⟨bytes, false⟩ piece = ([], ⟨bytes ++ piece, false⟩) := by
  rw [feed_eq, h]
  rfl

/-- Two pieces do as much as one that is made up of both. -/
theorem feed_append (f : FirstLine) (front back : Bytes) :
    f.feed (front ++ back) =
      ((f.feed front).1 ++ ((f.feed front).2.feed back).1, ((f.feed front).2.feed back).2) := by
  rcases f with ⟨bytes, _ | _⟩
  · cases hfront : cut front with
    | some parts =>
        rw [feed_of_cut hfront, feed_of_cut (cut_append_of_some hfront back), feed_of_complete]
    | none =>
        have hboth := cut_append_of_none hfront back
        rw [feed_of_uncut hfront]
        cases hback : cut back with
        | some parts =>
            rw [hback] at hboth
            rw [feed_of_cut hboth, feed_of_cut hback, List.append_assoc, List.nil_append]
        | none =>
            rw [hback] at hboth
            rw [feed_of_uncut hboth, feed_of_uncut hback, List.append_assoc, List.append_nil]
  · rw [feed_of_complete, feed_of_complete, feed_of_complete]

theorem feed_nil (f : FirstLine) : f.feed [] = ([], f) := by
  rcases f with ⟨bytes, _ | _⟩
  · rw [feed_of_uncut rfl, List.append_nil]
  · exact feed_of_complete bytes []

/-- What is kept of an output and what is passed on are its two parts, and the line is complete if
there is a newline. -/
theorem isSplit_feed (output : Bytes) :
    IsSplit output (feed {} output).2.bytes (feed {} output).1 ∧
      ((feed {} output).2.isComplete = true ↔ (10 : UInt8) ∈ output) := by
  by_cases hnewline : (10 : UInt8) ∈ output
  · obtain ⟨line, rest, rfl, hline⟩ := List.eq_append_cons_of_mem hnewline
    rw [feed_of_cut (cut_line hline rest)]
    refine ⟨⟨by simp, ?_, fun _ => by simp⟩, iff_of_true rfl hnewline⟩
    simpa using hline
  · rw [feed_of_uncut (cut_eq_none_iff.2 hnewline)]
    refine ⟨⟨by simp, fun hmem => ?_, fun hrest => absurd rfl hrest⟩, iff_of_false nofun hnewline⟩
    exact hnewline (List.dropLast_subset output hmem)

/-- Until the line is complete, nothing is passed on. -/
theorem feed_of_incomplete {output : Bytes} (h : (10 : UInt8) ∉ output) :
    feed {} output = ([], ⟨output, false⟩) :=
  feed_of_uncut (cut_eq_none_iff.2 h) []

end FirstLine

/-- An output is split in one way. -/
theorem IsSplit.eq_feed {output line rest : Bytes} (h : IsSplit output line rest) :
    line = (FirstLine.feed {} output).2.bytes ∧ rest = (FirstLine.feed {} output).1 := by
  obtain ⟨rfl, hone, hends⟩ := h
  by_cases hnewline : (10 : UInt8) ∈ line
  · have hne := List.ne_nil_of_mem hnewline
    have hlast : line.getLast hne = 10 := by
      rw [← List.dropLast_concat_getLast hne, List.mem_append, List.mem_singleton] at hnewline
      exact (hnewline.resolve_left hone).symm
    have hline : line.dropLast ++ [10] = line := by
      rw [← hlast, List.dropLast_concat_getLast]
    have hcut := FirstLine.cut_line hone rest
    rw [List.append_cons, hline] at hcut
    rw [FirstLine.feed_of_cut hcut]
    exact ⟨rfl, rfl⟩
  · have hrest : rest = [] := by
      by_contra hne
      exact hnewline (List.mem_of_getLast? (hends hne))
    rw [hrest, List.append_nil, FirstLine.feed_of_incomplete hnewline]
    exact ⟨rfl, rfl⟩

/-- A reader that takes the pieces through its buffer does as much as if all came at once. -/
theorem Reader.split_eq_feed (pieces : List Bytes) :
    Reader.split pieces =
      (if (FirstLine.feed {} pieces.flatten).2.bytes = [] then none
        else some (FirstLine.feed {} pieces.flatten).2.bytes, (FirstLine.feed {} pieces.flatten).1) := by
  have hcases := Reader.readLine_cases [] { pipe := pieces }
  have hrest : Reader.rest { pipe := pieces } = pieces.flatten := List.nil_append _
  rw [hrest] at hcases
  unfold Reader.split
  rcases hcases with ⟨front, behind, after, hcut, hline, hbehind⟩ | ⟨after, hcut, hline, hbehind⟩
  · rw [hline, FirstLine.feed_of_cut hcut]
    simp [Reader.passOn_eq, hbehind]
  · rw [hline, FirstLine.feed_of_uncut hcut]
    simp [Reader.passOn_eq, hbehind]

/-! ## A child that writes -/

/-- What can happen to a child: it writes, or it ends. -/
inductive Event where
  | wrote (stdout stderr : Bytes)
  | ended
  deriving DecidableEq

/-- The output that is written while things happen. -/
def written (events : List Event) : Bytes :=
  events.flatMap fun
    | .wrote stdout _ => stdout
    | .ended => []

/-- The first line of a child is there once it is complete, or once the child has ended. -/
def Child.HasLine (c : Child) (events : List Event) : Prop :=
  (10 : UInt8) ∈ written events ∨ c.isAlive = false ∨ .ended ∈ events

/-- A child after what has happened to it. -/
def Child.afterAll (c : Child) (events : List Event) : Child :=
  { c with
    output := (c.output.feed (written events)).2
    isAlive := c.isAlive && !events.contains .ended }

/-- Something happens to a child of the host. -/
def Host.happens (pid : Nat) (h : Host) : Event → Host
  | .wrote stdout stderr => h.takeOutput pid stdout stderr
  | .ended => h.childEnds pid

/-- One thing after the other happens to a child. -/
def Host.happenAll (pid : Nat) (h : Host) (events : List Event) : Host :=
  events.foldl (Host.happens pid) h

theorem child?_updateChild {h : Host} {pid : Nat} {c : Child} (hc : h.child? pid = some c)
    {f : Child → Child} (hf : ∀ d : Child, (f d).pid = d.pid) :
    (h.updateChild pid f).child? pid = some (f c) := by
  have hpid : (c.pid == pid) = true := List.find?_some (p := fun d : Child => d.pid == pid) hc
  have hsame : ((fun d : Child => d.pid == pid) ∘ fun d => if d.pid == pid then f d else d) =
      fun d => d.pid == pid := by
    funext d
    rw [Function.comp_apply]
    split_ifs with hd
    · rw [hf]
    · rfl
  show (h.children.map _).find? _ = _
  rw [List.find?_map, hsame]
  show (h.child? pid).map _ = _
  rw [hc, Option.map_some, if_pos hpid]

variable {h : Host} {pid : Nat} {c : Child}

/-- One event: what is behind the line goes to the output of the host. -/
theorem happens_reads (hc : h.child? pid = some c) (e : Event) :
    (h.happens pid e).child? pid = some (c.afterAll [e]) ∧
      (h.happens pid e).stdout = h.stdout ++ (c.output.feed (written [e])).1 := by
  cases e with
  | wrote stdout stderr =>
      have hwritten : written [.wrote stdout stderr] = stdout := by simp [written]
      have hchild : c.afterAll [.wrote stdout stderr] =
          { c with output := (c.output.feed stdout).2 } := by simp [Child.afterAll, hwritten]
      rw [hwritten, hchild]
      show (h.takeOutput pid stdout stderr).child? pid = _ ∧ (h.takeOutput pid stdout stderr).stdout = _
      unfold Host.takeOutput
      rw [hc]
      exact ⟨child?_updateChild hc (f := fun d => { d with output := (c.output.feed stdout).2 })
        fun _ => rfl, rfl⟩
  | ended =>
      have hwritten : written [.ended] = [] := rfl
      have hchild : c.afterAll [.ended] = { c with isAlive := false } := by
        simp [Child.afterAll, hwritten, FirstLine.feed_nil]
      rw [hwritten, hchild, FirstLine.feed_nil, List.append_nil]
      exact ⟨child?_updateChild hc (f := fun d => { d with isAlive := false }) fun _ => rfl, rfl⟩

theorem written_append (before behind : List Event) :
    written (before ++ behind) = written before ++ written behind :=
  List.flatMap_append

theorem afterAll_cons (c : Child) (e : Event) (events : List Event) :
    (c.afterAll [e]).afterAll events = c.afterAll (e :: events) := by
  have hwritten : written (e :: events) = written [e] ++ written events := written_append [e] events
  unfold Child.afterAll
  rw [hwritten, FirstLine.feed_append]
  simp [Bool.and_assoc]

/-- All events: what is behind the line goes to the output of the host, in order. -/
theorem happenAll_reads (hc : h.child? pid = some c) (events : List Event) :
    (h.happenAll pid events).child? pid = some (c.afterAll events) ∧
      (h.happenAll pid events).stdout = h.stdout ++ (c.output.feed (written events)).1 := by
  induction events generalizing h c with
  | nil =>
      have hchild : c.afterAll [] = c := by simp [Child.afterAll, written, FirstLine.feed_nil]
      rw [hchild, show written [] = [] from rfl, FirstLine.feed_nil, List.append_nil]
      exact ⟨hc, rfl⟩
  | cons e events ih =>
      obtain ⟨hchild, hstdout⟩ := happens_reads hc e
      obtain ⟨hchild', hstdout'⟩ := ih hchild
      rw [afterAll_cons] at hchild'
      have hwritten : written (e :: events) = written [e] ++ written events :=
        written_append [e] events
      refine ⟨hchild', hstdout'.trans ?_⟩
      rw [hstdout, hwritten, FirstLine.feed_append, List.append_assoc]
      rfl

/-! ## The handshake -/

/-- What is made of a first line: without any output the child has ended early, a line that is no
text is malformed, and any other line is accepted or not. -/
def verdict (offer : Offer) (line : Bytes) : Except PluginError HandshakeLine :=
  if line = [] then .error .exitedEarly
  else
    match text? line with
    | none => .error (.handshake (.malformed (Text.trim (lossyText line))))
    | some text => (offer.accept text).mapError .handshake

theorem verdict_of_ne_nil (offer : Offer) {line : Bytes} (h : line ≠ []) :
    verdict offer line = (announced offer line).mapError .handshake := by
  rw [verdict, if_neg h, announced]
  cases text? line <;> rfl

/-- A child has something to judge if its line is complete, or if it has ended. -/
def Child.IsJudged (c : Child) (limit : Duration) : Prop :=
  limit.isZero = false ∧ (c.output.isComplete = true ∨ c.isAlive = false)

theorem awaited_of_isJudged {limit : Duration} (htaken : c.isTaken = false)
    (hline : c.output.isComplete = true → c.output.bytes ≠ []) (hjudged : c.IsJudged limit) :
    c.awaited limit = if c.output.bytes = [] then .nothing else .line c.output.bytes := by
  obtain ⟨hlimit, hthere⟩ := hjudged
  rw [Child.awaited, hlimit, htaken]
  by_cases hnil : c.output.bytes = []
  · have hincomplete : c.output.isComplete = false := by
      rw [← Bool.not_eq_true]
      exact fun hcomplete => hline hcomplete hnil
    have hended : c.isAlive = false := hthere.resolve_left (by simp [hincomplete])
    simp [hnil, hincomplete, hended]
  · rcases hthere with hcomplete | hended
    · simp [hnil, hcomplete]
    · simp [hnil, hended]

theorem awaited_of_not_isJudged {limit : Duration} (htaken : c.isTaken = false)
    (hjudged : ¬c.IsJudged limit) : c.awaited limit = .timeout := by
  rw [Child.awaited, htaken]
  cases hlimit : limit.isZero with
  | true => rfl
  | false =>
      have hthere : c.output.isComplete = false ∧ c.isAlive = true := by
        simpa [Child.IsJudged, hlimit] using hjudged
      simp [hthere]

/-- Waiting for the handshake judges the line once there is one, and changes nothing but that the line
is taken. -/
theorem awaitHandshake_reads {p : PluginProcess} (hc : h.child? p.pid = some c)
    (htaken : c.isTaken = false) (hline : c.output.isComplete = true → c.output.bytes ≠ [])
    (limit : Duration) (offer : Offer) :
    ∃ result h' taken, awaitHandshake p limit offer h = (result, h') ∧
      h'.child? p.pid = some { c with isTaken := taken } ∧ h'.stdout = h.stdout ∧
      (c.IsJudged limit → result = (verdict offer c.output.bytes).mapError .failed) ∧
      (¬c.IsJudged limit → result = .error (.failed (.handshakeTimeout limit))) := by
  unfold awaitHandshake
  rw [hc]
  dsimp only
  by_cases hjudged : c.IsJudged limit
  · rw [awaited_of_isJudged htaken hline hjudged]
    by_cases hnil : c.output.bytes = []
    · rw [if_pos hnil, hnil]
      exact ⟨_, h, c.isTaken, rfl, hc, rfl, fun _ => rfl, absurd hjudged⟩
    · have hkept := child?_updateChild hc (f := fun c => { c with isTaken := true }) fun _ => rfl
      rw [if_neg hnil, verdict_of_ne_nil offer hnil]
      dsimp only
      cases announced offer c.output.bytes <;>
        exact ⟨_, _, true, rfl, hkept, rfl, fun _ => rfl, absurd hjudged⟩
  · rw [awaited_of_not_isJudged htaken hjudged]
    exact ⟨_, h, c.isTaken, rfl, hc, rfl, fun hyes => absurd hyes hjudged, fun _ => rfl⟩

theorem FirstLine.feed_bytes_ne_nil {output : Bytes}
    (h : (feed {} output).2.isComplete = true) : (feed {} output).2.bytes ≠ [] := by
  intro hnil
  obtain ⟨hsplit, hcomplete⟩ := isSplit_feed output
  have hnone := hsplit.ends
  rw [hnil] at hsplit hnone
  have hrest : (feed {} output).1 = output := hsplit.whole
  rw [hrest] at hnone
  cases hnone (List.ne_nil_of_mem (hcomplete.1 h))

theorem isJudged_afterAll_iff (hnew : c.output = {}) {events : List Event} {limit : Duration} :
    (c.afterAll events).IsJudged limit ↔ limit.isZero = false ∧ c.HasLine events := by
  have hended : (c.afterAll events).isAlive = false ↔ c.isAlive = false ∨ .ended ∈ events := by
    cases halive : c.isAlive <;> simp [Child.afterAll, halive]
  rw [Child.IsJudged, Child.HasLine, hended, ← (FirstLine.isSplit_feed (written events)).2, ← hnew]
  rfl

/-- The output of a child is split without loss.  However it is cut into pieces, a reader takes the
bytes up to the first newline as the line and passes on all others, once and in order.  So does the
host, to whose output they go: those written before it waits for the handshake and those written
behind, until the child ends, whether the line is accepted or not.  What is judged is the line alone,
and all of the output if it has no newline.  It is judged if it is there when the host waits, unless
the host is given no time for it, and waiting for a line that is not there takes up the time. -/
theorem output_split {p : PluginProcess} (hchild : h.child? p.pid = some c) (hnew : c.output = {})
    (htaken : c.isTaken = false) {before behind : List Event}
    (hend : c.isAlive = false ∨ .ended ∈ before → written behind = [])
    (limit : Duration) (offer : Offer) :
    ∃ line rest, IsSplit (written (before ++ behind)) line rest ∧
      (∀ pieces : List Bytes, pieces.flatten = written (before ++ behind) →
        Reader.split pieces = (if line = [] then none else some line, rest)) ∧
      ∃ result h', awaitHandshake p limit offer (h.happenAll p.pid before) = (result, h') ∧
        (h'.happenAll p.pid behind).stdout = h.stdout ++ rest ∧
        (result = (verdict offer line).mapError .failed ∨
          result = .error (.failed (.handshakeTimeout limit))) ∧
        (c.HasLine before → limit.isZero = false →
          result = (verdict offer line).mapError .failed) ∧
        (¬c.HasLine before → result = .error (.failed (.handshakeTimeout limit))) := by
  obtain ⟨hbefore, hrelayed⟩ := happenAll_reads hchild before
  have houtput : (c.afterAll before).output = (FirstLine.feed {} (written before)).2 := by
    rw [← hnew]
    rfl
  have hfull : (c.afterAll before).output.isComplete = true →
      (c.afterAll before).output.bytes ≠ [] := by
    rw [houtput]
    exact FirstLine.feed_bytes_ne_nil
  obtain ⟨result, h', taken, hrun, hafter, hkept, hverdict, htimeout⟩ :=
    awaitHandshake_reads hbefore htaken hfull limit offer
  obtain ⟨-, hmore⟩ := happenAll_reads hafter behind
  have hfed := FirstLine.feed_append {} (written before) (written behind)
  rw [← written_append] at hfed
  rw [isJudged_afterAll_iff hnew] at hverdict htimeout
  have hline : limit.isZero = false ∧ c.HasLine before → result =
      (verdict offer (FirstLine.feed {} (written (before ++ behind))).2.bytes).mapError .failed := by
    intro hjudged
    have hsame : (FirstLine.feed {} (written before)).2.bytes =
        (FirstLine.feed {} (written (before ++ behind))).2.bytes := by
      rw [hfed]
      rcases hjudged.2 with hnewline | hended
      · have hcomplete := (FirstLine.isSplit_feed (written before)).2.2 hnewline
        rw [FirstLine.feed_eq _ (written behind), if_pos hcomplete]
      · rw [hend hended, FirstLine.feed_nil]
    rw [hverdict hjudged, houtput, hsame]
  refine ⟨_, _, (FirstLine.isSplit_feed (written (before ++ behind))).1, ?_, result, h', hrun, ?_,
    ?_, fun hthere hlimit => hline ⟨hlimit, hthere⟩, fun hthere => htimeout fun h => hthere h.2⟩
  · intro pieces hpieces
    rw [Reader.split_eq_feed, hpieces]
  · rw [hmore, hkept, hrelayed, hfed, hnew]
    dsimp only
    rw [houtput, List.append_assoc]
  · exact (Classical.em _).imp hline htimeout

/-- A child that has not written anything yet. -/
def silentChild : Child := { pid := 7, isAlive := true, output := {}, stage := .idle }

/-- A host with this child. -/
def silentHost : Host where
  world := { files := ⟨[], []⟩, client := .offline }
  executables _ := none
  environment := []
  children := [silentChild]

/-- What it writes up to where its line is judged: a line that is no text, and one byte more. -/
def garbledStart : List Event := [.wrote [0x31] [], .wrote [0xff, 10, 0x68] []]

/-- What happens to it then. -/
def garbledRest : List Event := [.wrote [0x69] [], .ended]

/-- The line is malformed.  What stands behind it is passed on all the same, both the byte that came
with the line and the one that is written when the line has been judged. -/
theorem output_split_garbled :
    silentHost.child? 7 = some silentChild ∧ silentChild.output = {} ∧
      silentChild.isTaken = false ∧
      (silentChild.isAlive = false ∨ .ended ∈ garbledStart → written garbledRest = []) ∧
      ∃ h', awaitHandshake { path := [], pid := 7 } ⟨60, 0⟩ hostOffer
          (silentHost.happenAll 7 garbledStart) =
            (.error (.failed (.handshake (.malformed "1\uFFFD"))), h') ∧
        (h'.happenAll 7 garbledRest).stdout = utf8 "hi" := by
  have hend : silentChild.isAlive = false ∨ .ended ∈ garbledStart → written garbledRest = [] := by
    decide
  obtain ⟨line, rest, hsplit, -, result, h', hrun, hstdout, -, hverdict, -⟩ :=
    output_split (h := silentHost) (p := { path := [], pid := 7 }) (c := silentChild) rfl rfl rfl
      hend ⟨60, 0⟩ hostOffer
  have hline : line = [0x31, 0xff, 10] := hsplit.eq_feed.1.trans (by decide +kernel)
  have hrest : rest = utf8 "hi" := hsplit.eq_feed.2.trans (by decide +kernel)
  have htext : text? [0x31, 0xff, 10] = none := by decide +kernel
  have hlossy : Text.trim (lossyText [0x31, 0xff, 10]) = "1\uFFFD" := by decide +kernel
  have hjudged := hverdict (.inl (by decide)) rfl
  rw [hline, verdict, if_neg (by decide), htext] at hjudged
  dsimp only at hjudged
  rw [hlossy] at hjudged
  refine ⟨rfl, rfl, rfl, hend, h', hrun.trans (by rw [hjudged]; rfl), ?_⟩
  rw [hstdout, hrest]
  rfl

end PluginHost.Children

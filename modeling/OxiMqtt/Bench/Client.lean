import OxiMqtt.Bench.Outbound

/-!
# A client of the benchmark

The task of one connection, of `oximqtt-bench/src/client.rs`: it connects, subscribes, publishes and
receives, and does so again when the session ends.  A step of it is what one turn of a loop does, or
what happens between two of its waits; what it hands to the writer is part of the step.  That the
connection fails is a step of its own.
-/

namespace OxiMqtt.Bench

open Collections
open Packets (Incoming classify)

/-- `SessionEnd` -/
inductive SessionEnd : Type
  | reconnect
  | finished
  deriving DecidableEq, Repr

/-- `Want` -/
inductive Want : Type
  | connAck
  | subAck
  deriving DecidableEq, Repr

/-- What both loops count for a PUBLISH. -/
def Stats.arrived (stats : Stats) (nowUs : UInt64) (payload : Wire.Bytes) (retain : Bool) : Stats :=
  let stats := stats.received payload.length retain
  match PayloadBuilder.parse payload with
  | some ts => stats.recordLatency (saturatingSub nowUs ts)
  | none => stats

/-- A turn of `wait_for`: the packets that it sends, and what the loop returns if it ends. -/
def waitFor (ctx : Ctx) (want : Want) (nowUs : UInt64) (stats : Stats) :
    Incoming → Stats × List Packet × Option (Except String (Option UInt16))
  | .connAck accepted reason receiveMax =>
      (stats, [],
        if want = .connAck then
          some (if accepted then .ok receiveMax else .error ("connection refused: " ++ reason))
        else none)
  | .subAck granted =>
      (stats, [],
        if want = .subAck then
          some (if granted.any Option.isNone then .error "subscription refused" else .ok none)
        else none)
  | .publish _ payload qos retain packetId =>
      (stats.arrived nowUs payload retain,
        ((Packets.replyFor qos packetId).map fun (kind, pid) => Packets.ack ctx kind pid).toList,
        none)
  | .serverDisconnect reason =>
      (stats, [], some (.error ("server disconnected during setup: " ++ reason)))
  | _ => (stats, [], none)

/-- `Vec::swap_remove` -/
def swapRemove {α : Type} (l : List α) (pos : Nat) : List α :=
  match l.getLast? with
  | some last => (l.set pos last).dropLast
  | none => l

/-- `on_incoming` -/
def onIncoming (ctx : Ctx) (nowUs : UInt64) (f : Flow) (awaitingRel : List UInt16) :
    Incoming → Except String (Flow × List UInt16)
  | .publish _ payload qos retain packetId =>
      let f := { f with stats := f.stats.arrived nowUs payload retain }
      if qos = 1 then
        .ok ({ f with
          pending := f.pending ++ (packetId.map (Packets.ack ctx .pubAck)).toList }, awaitingRel)
      else if qos = 2 then
        match packetId with
        | some pid =>
            let reply := { f with pending := f.pending ++ [Packets.ack ctx .pubRec pid] }
            if pid ∈ awaitingRel then
              .ok ({ reply with stats := f.stats.duplicated }, awaitingRel)
            else .ok (reply, awaitingRel ++ [pid])
        | none => .ok (f, awaitingRel)
      else .ok (f, awaitingRel)
  | .pubRel pid =>
      let awaitingRel :=
        match awaitingRel.findIdx? (· = pid) with
        | some pos => swapRemove awaitingRel pos
        | none => awaitingRel
      .ok ({ f with pending := f.pending ++ [Packets.ack ctx .pubComp pid] }, awaitingRel)
  | .pubAck pid => .ok (f.onAck pid, awaitingRel)
  | .pubComp pid => .ok (f.onAck pid, awaitingRel)
  | .pubRec pid => .ok (f.onPubrec ctx pid, awaitingRel)
  | .serverDisconnect reason => .error ("server sent DISCONNECT: " ++ reason)
  | .connAck false reason _ => .error ("connection dropped: " ++ reason)
  | _ => .ok (f, awaitingRel)

/-- A session ends only at a packet by which the server gives it up. -/
theorem onIncoming_error {ctx : Ctx} {nowUs : UInt64} {f : Flow} {awaitingRel : List UInt16}
    {inc : Incoming} {err : String} (h : onIncoming ctx nowUs f awaitingRel inc = .error err) :
    (∃ reason, inc = .serverDisconnect reason) ∨
      ∃ reason receiveMax, inc = .connAck false reason receiveMax := by
  cases inc with
  | publish topic payload qos retain packetId =>
      unfold onIncoming at h
      dsimp only at h
      split_ifs at h
      split at h
      · split_ifs at h
      · cases h
  | connAck accepted reason receiveMax =>
      cases accepted with
      | false => exact .inr ⟨reason, receiveMax, rfl⟩
      | true => cases h
  | serverDisconnect reason => exact .inl ⟨reason, rfl⟩
  | pubRel pid => cases h
  | pubAck pid => cases h
  | pubComp pid => cases h
  | pubRec pid => cases h
  | subAck granted => cases h
  | pingResp => cases h
  | ignored => cases h

/-- The state of `traffic`. -/
structure Traffic : Type where
  out : Outbound
  awaitingRel : List UInt16 := []
  pubDone : Bool := false
  deriving DecidableEq, Repr

/-- Where the task is. -/
inductive Phase : Type
  /-- `run`, before a session. -/
  | idle
  /-- `session`, in `transport::connect`. -/
  | connecting
  /-- `establish_and_run`, in `wait_for` of the CONNACK. -/
  | handshake
  /-- `establish_and_run`, in `wait_for` of the SUBACK. -/
  | subscribing (receiveMax : Option UInt16)
  | traffic (t : Traffic)
  | draining (t : Traffic)
  /-- `session`, with its outcome. -/
  | closing (outcome : Except String SessionEnd)
  /-- `run` has returned. -/
  | stopped

/-- The task of a connection.  `established` is whether it has a session whose CONNACK was accepted
and which is not closed. -/
structure Client : Type where
  phase : Phase := .idle
  established : Bool := false

/-- What a step leaves: the task, the statistics, and the packets that were handed to the writer. -/
structure Effect : Type where
  client : Client
  stats : Stats
  written : List Packet := []

/-- What happens to a task. -/
inductive Event : Type
  /-- A session begins. -/
  | start
  /-- The whole run has been asked to stop. -/
  | quit
  | connectFailed (e : String) (stopped : Bool)
  | connected
  | packet (pkt : Packet) (nowUs : UInt64)
  /-- The handshake takes too long. -/
  | timeout
  | readError (e : String)
  | writeError (e : String)
  | pubTick (clock : Nat → UInt64)
  | pingTick (due : Bool)
  | sweepTick (walk : Walk (UInt16 × InflightMsg)) (nowUs : UInt64)
  /-- `wait_stopped` returns. -/
  | stop
  | kick
  /-- The end of `drain`. -/
  | drained
  /-- The end of `session`, and of the turn of `run`. -/
  | close (stopped : Bool)

namespace Client

variable (ctx : Ctx) (no : Nat)

/-- The state of `traffic` at its start. -/
def startTraffic (receiveMax : Option UInt16) : Phase :=
  .traffic { out := Outbound.new ctx no receiveMax }

/-- `establish_and_run`, from the CONNACK to the next wait. -/
def establish (c : Client) (stats : Stats) (receiveMax : Option UInt16) (written : List Packet) :
    Effect :=
  let stats := stats.connEstablished
  if ctx.args.sub then
    let (filter, _) := expand ctx.processId ctx.args.topicPattern no (ctx.clientId no)
      (Rng.new (UInt64.ofNat no + 1))
    ⟨{ c with phase := .subscribing receiveMax, established := true }, stats,
      written ++ [Packets.subscribe ctx filter 1]⟩
  else
    ⟨{ c with phase := startTraffic ctx no receiveMax, established := true }, stats, written⟩

/-- The session ends. -/
def finish (c : Client) (outcome : Except String SessionEnd) : Client :=
  { c with phase := .closing outcome }

/-- A packet in `traffic` or `drain`. -/
def receive (c : Client) (stats : Stats) (t : Traffic) (phase : Traffic → Phase) (pkt : Packet)
    (nowUs : UInt64) : Effect :=
  match onIncoming ctx nowUs ⟨t.out, stats, []⟩ t.awaitingRel (classify pkt) with
  | .ok (f, awaitingRel) =>
      ⟨{ c with phase := phase { t with out := f.out, awaitingRel } }, f.stats, f.pending⟩
  | .error e => ⟨c.finish (.error e), stats, []⟩

/-- A packet is read. -/
def packet (c : Client) (stats : Stats) (pkt : Packet) (nowUs : UInt64) : Option Effect :=
  match c.phase with
  | .handshake =>
      match waitFor ctx .connAck nowUs stats (classify pkt) with
      | (stats, written, none) => some ⟨c, stats, written⟩
      | (stats, written, some (.ok receiveMax)) =>
          some (establish ctx no c stats receiveMax written)
      | (stats, written, some (.error e)) => some ⟨c.finish (.error e), stats, written⟩
  | .subscribing receiveMax =>
      match waitFor ctx .subAck nowUs stats (classify pkt) with
      | (stats, written, none) => some ⟨c, stats, written⟩
      | (stats, written, some (.ok _)) =>
          some ⟨{ c with phase := startTraffic ctx no receiveMax }, stats.subscribed, written⟩
      | (stats, written, some (.error e)) => some ⟨c.finish (.error e), stats, written⟩
  | .traffic t => some (receive ctx c stats t .traffic pkt nowUs)
  | .draining t => some (receive ctx c stats t .draining pkt nowUs)
  | _ => none

/-- The hint at a broker that does not take a PUBREL. -/
def hint (out : Outbound) : String :=
  if ctx.proto = .v5 ∧ out.unreleasedPubrel > 0 then
    " (session died with PUBREL unconfirmed: this broker rejects the" ++
      "                              spec PUBREL reason code, retry with --v5-pubrel-reason 0)"
  else ""

/-- A tick of the publishing timer. -/
def pubTick (c : Client) (stats : Stats) (t : Traffic) (clock : Nat → UInt64) : Effect :=
  let f := Flow.fill ctx (ctx.clientId no) clock ⟨t.out, stats, []⟩
  let pubDone := f.out.limitReached ctx
  if pubDone ∧ ctx.args.sub = false then ⟨c.finish (.ok .finished), f.stats, f.pending⟩
  else ⟨{ c with phase := .traffic { t with out := f.out, pubDone } }, f.stats, f.pending⟩

/-- The end of `session`: the connection is closed, and `run` goes on, or not. -/
def close (stats : Stats) (outcome : Except String SessionEnd) (stopped : Bool) : Effect :=
  let stats := stats.connClosed
  let goOn (stats : Stats) : Effect :=
    if stopped ∨ ctx.args.reconnInterval = 0 then ⟨⟨.stopped, false⟩, stats, [Packets.disconnect]⟩
    else ⟨⟨.idle, false⟩, stats.reconnected, [Packets.disconnect]⟩
  match outcome with
  | .ok .finished => ⟨⟨.stopped, false⟩, stats, [Packets.disconnect]⟩
  | .ok .reconnect => goOn stats
  | .error e => goOn (stats.connFailed e)

/-- A connection that was not made is not closed. -/
def connectFailed (stats : Stats) (e : String) (stopped : Bool) : Effect :=
  let stats := stats.connFailed ("tcp connect to " ++ ctx.endpoint no ++ " failed: " ++ e)
  if stopped ∨ ctx.args.reconnInterval = 0 then ⟨⟨.stopped, false⟩, stats, []⟩
  else ⟨⟨.idle, false⟩, stats.reconnected, []⟩

/-- An error of the reader. -/
def readError (c : Client) (stats : Stats) (e : String) : Option Effect :=
  match c.phase with
  | .handshake => some ⟨c.finish (.error e), stats, []⟩
  | .subscribing _ => some ⟨c.finish (.error e), stats, []⟩
  | .traffic t =>
      some ⟨c.finish (.error ("read error on " ++ ctx.clientId no ++ ": " ++ e ++ hint ctx t.out)),
        stats, []⟩
  | .draining _ => some ⟨c.finish (.ok .reconnect), stats, []⟩
  | _ => none

/-- An error of the writer. -/
def writeError (c : Client) (stats : Stats) (e : String) : Option Effect :=
  match c.phase with
  | .handshake => some ⟨c.finish (.error e), stats, []⟩
  | .subscribing _ => some ⟨c.finish (.error e), stats, []⟩
  | .traffic _ => some ⟨c.finish (.error e), stats, []⟩
  | .draining _ => some ⟨c.finish (.error e), stats, []⟩
  -- the flush of the publishing tick by which the session finishes
  | .closing (.ok .finished) => some ⟨c.finish (.error e), stats, []⟩
  | _ => none

/-- The handshake takes too long. -/
def timeout (c : Client) (stats : Stats) : Option Effect :=
  match c.phase with
  | .handshake =>
      some ⟨c.finish (.error ("CONNACK timeout from " ++ ctx.endpoint no)), stats, []⟩
  | .subscribing _ =>
      some ⟨c.finish (.error ("SUBACK timeout from " ++ ctx.endpoint no)), stats, []⟩
  | _ => none

/-- The state of `traffic`, where the task is in it. -/
def publishing (c : Client) : Option Traffic :=
  match c.phase with
  | .traffic t => some t
  | _ => none

/-- The next step of a task, by what happens to it. -/
def step (c : Client) (stats : Stats) : Event → Option Effect
  | .start =>
      match c.phase with
      | .idle => some ⟨{ c with phase := .connecting }, stats.connAttempt, []⟩
      | _ => none
  | .quit =>
      match c.phase with
      | .idle => some ⟨{ c with phase := .stopped }, stats, []⟩
      | _ => none
  | .connectFailed e stopped =>
      match c.phase with
      | .connecting => some (connectFailed ctx no stats e stopped)
      | _ => none
  | .connected =>
      match c.phase with
      | .connecting =>
          some ⟨{ c with phase := .handshake }, stats, [Packets.connect ctx (ctx.clientId no)]⟩
      | _ => none
  | .packet pkt nowUs => packet ctx no c stats pkt nowUs
  | .timeout => timeout ctx no c stats
  | .readError e => readError ctx no c stats e
  | .writeError e => writeError c stats e
  | .pubTick clock => do
      let t ← c.publishing
      if ctx.args.pubSwitch ∧ t.pubDone = false then some (pubTick ctx no c stats t clock) else none
  | .pingTick due => do
      let _ ← c.publishing
      if due then some ⟨c, stats.pinged, [Packets.pingReq]⟩ else some ⟨c, stats, []⟩
  | .sweepTick walk nowUs => do
      let t ← c.publishing
      let f := Flow.sweepTimeouts ctx walk nowUs ⟨t.out, stats, []⟩
      some ⟨{ c with phase := .traffic { t with out := f.out } }, f.stats, []⟩
  | .stop => do
      let t ← c.publishing
      if ctx.args.drain > 0 then some ⟨{ c with phase := .draining t }, stats, []⟩
      else some ⟨c.finish (.ok .reconnect), stats, []⟩
  | .kick => do
      let _ ← c.publishing
      some ⟨c.finish (.ok .reconnect), stats, []⟩
  | .drained =>
      match c.phase with
      | .draining _ => some ⟨c.finish (.ok .reconnect), stats, []⟩
      | _ => none
  | .close stopped =>
      match c.phase with
      | .closing outcome => some (close ctx stats outcome stopped)
      | _ => none

section

variable {ctx : Ctx} {no : Nat} {c : Client} {stats : Stats} {e : Effect}

theorem timeout_finish (h : timeout ctx no c stats = some e) :
    (c.phase = .handshake ∨ ∃ receiveMax, c.phase = .subscribing receiveMax) ∧
      ∃ outcome, e = ⟨c.finish outcome, stats, []⟩ := by
  unfold timeout at h
  split at h
  · rename_i phase
    cases h
    exact ⟨.inl phase, _, rfl⟩
  · rename_i receiveMax phase
    cases h
    exact ⟨.inr ⟨receiveMax, phase⟩, _, rfl⟩
  · cases h

theorem readError_finish {err : String} (h : readError ctx no c stats err = some e) :
    ∃ outcome, e = ⟨c.finish outcome, stats, []⟩ := by
  unfold readError at h
  split at h
  · cases h
    exact ⟨_, rfl⟩
  · cases h
    exact ⟨_, rfl⟩
  · cases h
    exact ⟨_, rfl⟩
  · cases h
    exact ⟨_, rfl⟩
  · cases h

theorem writeError_finish {err : String} (h : writeError c stats err = some e) :
    ∃ outcome, e = ⟨c.finish outcome, stats, []⟩ := by
  unfold writeError at h
  split at h
  · cases h
    exact ⟨_, rfl⟩
  · cases h
    exact ⟨_, rfl⟩
  · cases h
    exact ⟨_, rfl⟩
  · cases h
    exact ⟨_, rfl⟩
  · cases h
    exact ⟨_, rfl⟩
  · cases h

theorem phase_of_publishing {t : Traffic} (h : c.publishing = some t) : c.phase = .traffic t := by
  unfold publishing at h
  split at h
  · rename_i phase
    cases h
    exact phase
  · cases h

variable (ctx no c stats)

/-- What a step can do, by what happens to the task and where it is. -/
inductive Moves : Event → Effect → Prop
  | start : c.phase = .idle → Moves .start ⟨{ c with phase := .connecting }, stats.connAttempt, []⟩
  | quit : c.phase = .idle → Moves .quit ⟨{ c with phase := .stopped }, stats, []⟩
  | connectFailed (err : String) (stopped : Bool) : c.phase = .connecting →
    Moves (.connectFailed err stopped) (connectFailed ctx no stats err stopped)
  | connected : c.phase = .connecting →
    Moves .connected ⟨{ c with phase := .handshake }, stats,
      [Packets.connect ctx (ctx.clientId no)]⟩
  | packet {pkt : Packet} {nowUs : UInt64} {e : Effect} : packet ctx no c stats pkt nowUs = some e →
    Moves (.packet pkt nowUs) e
  | timeout (outcome : Except String SessionEnd) :
    (c.phase = .handshake ∨ ∃ receiveMax, c.phase = .subscribing receiveMax) →
    Moves .timeout ⟨c.finish outcome, stats, []⟩
  | readError (err : String) (outcome : Except String SessionEnd) :
    Moves (.readError err) ⟨c.finish outcome, stats, []⟩
  | writeError (err : String) (outcome : Except String SessionEnd) :
    Moves (.writeError err) ⟨c.finish outcome, stats, []⟩
  | pubTick {t : Traffic} (clock : Nat → UInt64) : c.phase = .traffic t → t.pubDone = false →
    Moves (.pubTick clock) (pubTick ctx no c stats t clock)
  | ping : Moves (.pingTick true) ⟨c, stats.pinged, [Packets.pingReq]⟩
  | noPing : Moves (.pingTick false) ⟨c, stats, []⟩
  | sweepTick {t : Traffic} {f : Flow} (walk : Walk (UInt16 × InflightMsg)) (nowUs : UInt64) :
    c.phase = .traffic t → Flow.sweepTimeouts ctx walk nowUs ⟨t.out, stats, []⟩ = f →
    Moves (.sweepTick walk nowUs)
      ⟨{ c with phase := .traffic { t with out := f.out } }, f.stats, []⟩
  | drain {t : Traffic} : c.phase = .traffic t → ctx.args.drain > 0 →
    Moves .stop ⟨{ c with phase := .draining t }, stats, []⟩
  | stop : ¬ ctx.args.drain > 0 → Moves .stop ⟨c.finish (.ok .reconnect), stats, []⟩
  | kick : Moves .kick ⟨c.finish (.ok .reconnect), stats, []⟩
  | drained : Moves .drained ⟨c.finish (.ok .reconnect), stats, []⟩
  | close {outcome : Except String SessionEnd} (stopped : Bool) : c.phase = .closing outcome →
    Moves (.close stopped) (close ctx stats outcome stopped)

variable {ctx no c stats}

theorem moves_of_step {event : Event} (h : step ctx no c stats event = some e) :
    Moves ctx no c stats event e := by
  cases event with
  | start =>
      simp only [step] at h
      split at h
      · rename_i phase
        cases h
        exact .start phase
      · cases h
  | quit =>
      simp only [step] at h
      split at h
      · rename_i phase
        cases h
        exact .quit phase
      · cases h
  | connectFailed err stopped =>
      simp only [step] at h
      split at h
      · rename_i phase
        cases h
        exact .connectFailed err stopped phase
      · cases h
  | connected =>
      simp only [step] at h
      split at h
      · rename_i phase
        cases h
        exact .connected phase
      · cases h
  | packet pkt nowUs => exact .packet h
  | timeout =>
      obtain ⟨phase, outcome, rfl⟩ := timeout_finish h
      exact .timeout outcome phase
  | readError err =>
      obtain ⟨outcome, rfl⟩ := readError_finish h
      exact .readError err outcome
  | writeError err =>
      obtain ⟨outcome, rfl⟩ := writeError_finish h
      exact .writeError err outcome
  | pubTick clock =>
      obtain ⟨t, publishing, h⟩ := Option.bind_eq_some_iff.mp h
      obtain ⟨due, eq⟩ := Option.ite_none_right_eq_some.mp h
      cases eq
      exact .pubTick clock (phase_of_publishing publishing) due.2
  | pingTick due =>
      obtain ⟨t, publishing, h⟩ := Option.bind_eq_some_iff.mp h
      cases due with
      | true =>
          cases h
          exact .ping
      | false =>
          cases h
          exact .noPing
  | sweepTick walk nowUs =>
      obtain ⟨t, publishing, h⟩ := Option.bind_eq_some_iff.mp h
      cases h
      exact .sweepTick walk nowUs (phase_of_publishing publishing) rfl
  | stop =>
      obtain ⟨t, publishing, h⟩ := Option.bind_eq_some_iff.mp h
      split at h
      · rename_i drain
        cases h
        exact .drain (phase_of_publishing publishing) drain
      · rename_i drain
        cases h
        exact .stop drain
  | kick =>
      obtain ⟨t, publishing, h⟩ := Option.bind_eq_some_iff.mp h
      cases h
      exact .kick
  | drained =>
      simp only [step] at h
      split at h
      · cases h
        exact .drained
      · cases h
  | close stopped =>
      simp only [step] at h
      split at h
      · rename_i outcome phase
        cases h
        exact .close stopped phase
      · cases h

/-- `run` goes on, or it is over. -/
theorem close_client (ctx : Ctx) (stats : Stats) (outcome : Except String SessionEnd)
    (stopped : Bool) :
    (close ctx stats outcome stopped).client = ⟨.stopped, false⟩ ∨
      (close ctx stats outcome stopped).client = ⟨.idle, false⟩ := by
  unfold close
  dsimp only
  split
  · exact .inl rfl
  · split
    · exact .inl rfl
    · exact .inr rfl
  · split
    · exact .inl rfl
    · exact .inr rfl

end

end Client

end OxiMqtt.Bench

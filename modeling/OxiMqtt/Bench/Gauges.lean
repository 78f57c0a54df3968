import OxiMqtt.Bench.Client
import OxiMqtt.Lib.Machine

/-!
# The gauges of a benchmark

Any number of clients, and the two statistics that go up and down: the active connections, and the
messages in flight.  Both are counted where a session goes on, and a session ends in other places.
One that was never accepted is counted as closed, and the messages that are in flight when a session
ends stay counted.

* `Counts`: what a step of a client loses of either.
* `gauges_iff`: the gauges are right after a run exactly when no step of it loses anything.
* `gauges_drift`: a refused connection, and a session that ends with a message in flight.
-/

namespace OxiMqtt.Bench

open Collections
open Packets (Incoming classify)

/-! ## What a tick publishes -/

section

variable {ctx : Ctx} {id : String} {window : Nat} {f : Flow}

theorem limitReached_iff {out : Outbound} : out.limitReached ctx = true ↔
    0 < ctx.args.maxLimit.toNat ∧ ctx.args.maxLimit.toNat ≤ out.sent.toNat := by
  rw [Outbound.limitReached, Bool.and_eq_true, decide_eq_true_eq, decide_eq_true_eq]
  exact and_congr UInt64.lt_iff_toNat_lt UInt64.le_iff_toNat_le

/-- The limit is reached where the turns and the window have room for what is left of it. -/
theorem limitReached_fillLoop (ctx : Ctx) (id : String) (few : window ≤ 65535)
    (clock : Nat → UInt64) (turns queued : Nat) (inv : f.out.Inv window) :
    (Flow.fillLoop ctx id clock turns queued f).out.limitReached ctx = true ↔
      0 < ctx.args.maxLimit.toNat ∧ ctx.args.maxLimit.toNat ≤ f.out.sent.toNat +
        if f.out.qos > 0 then min turns (window - f.out.inflight.length) else turns := by
  induction turns generalizing queued f with
  | zero =>
      rw [Nat.zero_min, ite_self, Nat.add_zero]
      exact limitReached_iff
  | succ turns ih =>
      unfold Flow.fillLoop
      by_cases reached : f.out.limitReached ctx = true
      · rw [if_pos reached, reached]
        obtain ⟨pos, least⟩ := limitReached_iff.mp reached
        exact iff_of_true rfl ⟨pos, Nat.le_add_right_of_le least⟩
      rw [if_neg reached]
      rw [limitReached_iff] at reached
      -- there is room for one more number below the limit
      have next : 0 < ctx.args.maxLimit.toNat → (f.out.sent + 1).toNat = f.out.sent.toNat + 1 := by
        intro pos
        have bound := ctx.args.maxLimit.toNat_lt
        rw [UInt64.toNat_add, UInt64.toNat_one]
        omega
      by_cases acked : f.out.qos > 0
      · rw [if_pos acked, if_pos acked]
        split
        · rename_i pid slots taken
          have published := Keeps.publish ctx id inv few acked taken (clock queued)
          have room := published.inv.length_le few
          have longer := inv.length_insert few taken ⟨clock queued, false⟩
          rw [ih (queued + 1) published.inv, Flow.qos_publish, if_pos acked, Flow.sent_publish]
          have inflight : (Flow.publish ctx id (clock queued) pid
              { f with out := { f.out with slots } }).out.inflight =
              f.out.inflight.insert pid ⟨clock queued, false⟩ := if_pos acked
          rw [inflight, longer] at room
          rw [inflight, longer]
          dsimp only
          omega
        · rename_i none
          have full := inv.full few none
          rw [full, Nat.sub_self, Nat.min_zero, Nat.add_zero]
          exact iff_of_false (mt limitReached_iff.mp reached) reached
      · rw [if_neg acked, if_neg acked]
        have published := Keeps.publish_unacked ctx id inv acked (clock queued)
        rw [ih (queued + 1) published.inv, Flow.qos_publish, if_neg acked, Flow.sent_publish]
        omega

/-- A tick at QoS 1 or 2 publishes nothing, or it leaves messages in flight. -/
theorem fillLoop_inflight (ctx : Ctx) (id : String) (clock : Nat → UInt64) (turns queued : Nat)
    (acked : f.out.qos > 0) :
    (Flow.fillLoop ctx id clock turns queued f).out = f.out ∨
      (Flow.fillLoop ctx id clock turns queued f).out.inflight ≠ [] := by
  induction turns generalizing queued f with
  | zero => exact .inl rfl
  | succ turns ih =>
      unfold Flow.fillLoop
      split
      · exact .inl rfl
      split
      · rename_i pid slots taken
        refine .inr ?_
        rcases ih (queued + 1) (f := Flow.publish ctx id (clock queued) pid
          { f with out := { f.out with slots } }) acked with same | some
        · have inflight : (Flow.publish ctx id (clock queued) pid
              { f with out := { f.out with slots } }).out.inflight =
              f.out.inflight.insert pid ⟨clock queued, false⟩ := if_pos acked
          rw [same, inflight]
          exact List.cons_ne_nil _ _
        · exact some
      · exact .inl rfl

end

/-! ## The gauges of one client -/

namespace Client

/-- What a client is worth in the active connections. -/
def conns (c : Client) : Nat := if c.established then 1 else 0

/-- The messages in flight of a session that is running. -/
def unacked (c : Client) : Nat :=
  match c.phase with
  | .traffic t => t.out.inflight.length
  | .draining t => t.out.inflight.length
  | _ => 0

@[simp]
theorem conns_finish (c : Client) (outcome : Except String SessionEnd) :
    (c.finish outcome).conns = c.conns := rfl

@[simp]
theorem unacked_finish (c : Client) (outcome : Except String SessionEnd) :
    (c.finish outcome).unacked = 0 := rfl

end Client

/-- The publishes that a tick has room for. -/
def room (ctx : Ctx) (out : Outbound) : Nat :=
  let batch := if ctx.args.pubInterval = 0 then ctx.args.maxInflight else 1
  if out.qos > 0 then min batch (out.slots.capacity - out.inflight.length) else batch

/-- The limit is within what a tick has room for, and nothing is subscribed. -/
def Finishes (ctx : Ctx) (c : Client) : Prop :=
  ∃ t ∈ c.publishing, ctx.args.sub = false ∧ 0 < ctx.args.maxLimit.toNat ∧
    ctx.args.maxLimit.toNat ≤ t.out.sent.toNat + room ctx t.out

instance (ctx : Ctx) (c : Client) : Decidable (Finishes ctx c) :=
  inferInstanceAs (Decidable (∃ t ∈ c.publishing, _))

/-- The server gives up the session. -/
def Refuses : Incoming → Bool
  | .serverDisconnect _ => true
  | .connAck accepted _ _ => !accepted
  | _ => false

/-- A session is closed that was accepted; and where one ends, it has no message in flight. -/
def Clean (ctx : Ctx) (c : Client) : Event → Prop
  | .close _ => c.established = true
  | .packet pkt _ => Refuses (classify pkt) = true → c.unacked = 0
  | .readError _ | .writeError _ | .kick | .drained => c.unacked = 0
  | .stop => ctx.args.drain > 0 ∨ c.unacked = 0
  | .pubTick _ => Finishes ctx c → ¬ ctx.args.qos > 0
  | _ => True

instance (ctx : Ctx) (c : Client) : (event : Event) → Decidable (Clean ctx c event)
  | .close _ | .readError _ | .writeError _ | .kick | .drained =>
      inferInstanceAs (Decidable (_ = _))
  | .packet _ _ | .pubTick _ => inferInstanceAs (Decidable (_ → _))
  | .stop => inferInstanceAs (Decidable (_ ∨ _))
  | .start | .quit | .connectFailed _ _ | .connected | .timeout | .pingTick _ | .sweepTick _ _ =>
      isTrue trivial

/-- A session that publishes. -/
structure TrafficInv (ctx : Ctx) (t : Traffic) : Prop where
  few : t.out.slots.capacity ≤ 65535
  out : t.out.Inv t.out.slots.capacity
  qos : t.out.qos = ctx.args.qos
  pubDone : t.pubDone = t.out.limitReached ctx

/-- An accepted session is one that is not closed. -/
def ClientInv (ctx : Ctx) (c : Client) : Prop :=
  match c.phase with
  | .idle | .connecting | .handshake | .stopped => c.established = false
  | .subscribing _ => c.established = true
  | .traffic t | .draining t => c.established = true ∧ TrafficInv ctx t
  | .closing _ => True

/-- What a step loses of the gauges: a connection that is closed and was not established, and
messages that are in flight when the session ends. -/
structure Counts (ctx : Ctx) (c : Client) (stats : Stats) (event : Event) (e : Effect) : Prop where
  inv : ClientInv ctx e.client
  lost : ∃ conns unacked : Nat,
    e.stats.activeConns - e.client.conns = stats.activeConns - c.conns - conns ∧
      e.stats.inflight - e.client.unacked = stats.inflight - c.unacked + unacked ∧
      (Clean ctx c event ↔ conns = 0 ∧ unacked = 0)

section

variable {ctx : Ctx} {c : Client} {stats : Stats} {event : Event} {no : Nat} {e : Effect}

/-- A step that loses nothing. -/
theorem Counts.even (inv : ClientInv ctx e.client)
    (conns : e.stats.activeConns - e.client.conns = stats.activeConns - c.conns)
    (unacked : e.stats.inflight - e.client.unacked = stats.inflight - c.unacked)
    (clean : Clean ctx c event) : Counts ctx c stats event e :=
  ⟨inv, 0, 0, by omega, by omega, iff_of_true clean ⟨rfl, rfl⟩⟩

/-- A session that ends loses its messages in flight. -/
theorem Counts.ends (outcome : Except String SessionEnd)
    (conns : e.stats.activeConns = stats.activeConns) (inflight : e.stats.inflight = stats.inflight)
    (clean : Clean ctx c event ↔ c.unacked = 0) (client : e.client = c.finish outcome) :
    Counts ctx c stats event e := by
  refine ⟨by rw [client]; trivial, 0, c.unacked, ?_, ?_, clean.trans (by omega)⟩
  · rw [client, conns, Client.conns_finish]
    omega
  · rw [client, inflight, Client.unacked_finish]
    omega

theorem arrived_gauges (stats : Stats) (nowUs : UInt64) (payload : Wire.Bytes) (retain : Bool) :
    (stats.arrived nowUs payload retain).activeConns = stats.activeConns ∧
      (stats.arrived nowUs payload retain).inflight = stats.inflight := by
  unfold Stats.arrived
  split
  · exact ⟨rfl, rfl⟩
  · exact ⟨rfl, rfl⟩

theorem Flow.sent_onAck (f : Flow) (pid : UInt16) : (f.onAck pid).out.sent = f.out.sent := by
  unfold onAck
  split
  · rfl
  · rfl

theorem Flow.sent_onPubrec (f : Flow) (pid : UInt16) :
    (f.onPubrec ctx pid).out.sent = f.out.sent := by
  unfold onPubrec
  split
  · rfl
  · rfl

theorem Flow.sent_sweepTimeouts (f : Flow) (walk : Walk (UInt16 × InflightMsg)) (nowUs : UInt64) :
    (f.sweepTimeouts ctx walk nowUs).out.sent = f.out.sent := by
  unfold sweepTimeouts
  split
  · rfl
  · generalize stale ctx walk nowUs f.out = pids
    induction pids generalizing f with
    | nil => rfl
    | cons pid pids ih => exact ih (f.timeOut pid)

/-- A packet that does not end the session keeps what is in flight and what was sent. -/
theorem onIncoming_ok {window : Nat} {f f' : Flow} {awaitingRel awaitingRel' : List UInt16}
    {nowUs : UInt64} {inc : Incoming} (inv : f.out.Inv window)
    (h : onIncoming ctx nowUs f awaitingRel inc = .ok (f', awaitingRel')) :
    Keeps window f f' ∧ f'.out.sent = f.out.sent ∧ Refuses inc = false := by
  have same : ∀ (stats : Stats) (pending : List Packet),
      stats.activeConns = f.stats.activeConns → stats.inflight = f.stats.inflight →
      Keeps window f { f with stats, pending } :=
    fun stats pending conns inflight => ⟨inv, rfl, by rw [inflight], conns⟩
  cases inc with
  | publish topic payload qos retain packetId =>
      obtain ⟨conns, inflight⟩ := arrived_gauges f.stats nowUs payload retain
      obtain ⟨stats, pending, rfl, conns, inflight⟩ : ∃ stats pending,
          f' = { f with stats, pending } ∧ stats.activeConns = f.stats.activeConns ∧
            stats.inflight = f.stats.inflight := by
        unfold onIncoming at h
        dsimp only at h
        split_ifs at h
        · cases h
          exact ⟨_, _, rfl, conns, inflight⟩
        · split at h
          · split_ifs at h
            · cases h
              exact ⟨_, _, rfl, conns, inflight⟩
            · cases h
              exact ⟨_, _, rfl, conns, inflight⟩
          · cases h
            exact ⟨_, _, rfl, conns, inflight⟩
        · cases h
          exact ⟨_, _, rfl, conns, inflight⟩
      exact ⟨same _ _ conns inflight, rfl, rfl⟩
  | pubRel pid =>
      cases h
      exact ⟨same _ _ rfl rfl, rfl, rfl⟩
  | pubAck pid =>
      cases h
      exact ⟨Keeps.onAck inv pid, Flow.sent_onAck f pid, rfl⟩
  | pubComp pid =>
      cases h
      exact ⟨Keeps.onAck inv pid, Flow.sent_onAck f pid, rfl⟩
  | pubRec pid =>
      cases h
      exact ⟨Keeps.onPubrec inv pid, Flow.sent_onPubrec f pid, rfl⟩
  | connAck accepted reason receiveMax =>
      cases accepted with
      | false => cases h
      | true =>
          cases h
          exact ⟨Keeps.refl inv, rfl, rfl⟩
  | serverDisconnect reason => cases h
  | subAck granted =>
      cases h
      exact ⟨Keeps.refl inv, rfl, rfl⟩
  | pingResp =>
      cases h
      exact ⟨Keeps.refl inv, rfl, rfl⟩
  | ignored =>
      cases h
      exact ⟨Keeps.refl inv, rfl, rfl⟩

/-- A session that goes on. -/
theorem TrafficInv.keeps {t : Traffic} (inv : TrafficInv ctx t) {f : Flow}
    (keeps : Keeps t.out.slots.capacity ⟨t.out, stats, []⟩ f) (sent : f.out.sent = t.out.sent)
    (awaitingRel : List UInt16) : TrafficInv ctx { t with out := f.out, awaitingRel } where
  few := keeps.inv.capacity ▸ inv.few
  out := by
    change f.out.Inv f.out.slots.capacity
    rw [keeps.inv.capacity]
    exact keeps.inv
  qos := keeps.qos.trans inv.qos
  pubDone := by
    change t.pubDone = f.out.limitReached ctx
    rw [inv.pubDone, Outbound.limitReached, Outbound.limitReached, sent]

/-- What is known of a session that publishes, or that is drained. -/
theorem ClientInv.running {t : Traffic} (inv : ClientInv ctx c)
    (at_t : c.phase = .traffic t ∨ c.phase = .draining t) :
    c.established = true ∧ TrafficInv ctx t ∧ c.unacked = t.out.inflight.length := by
  unfold ClientInv at inv
  unfold Client.unacked
  rcases at_t with at_t | at_t
  · rw [at_t] at inv ⊢
    exact ⟨inv.1, inv.2, rfl⟩
  · rw [at_t] at inv ⊢
    exact ⟨inv.1, inv.2, rfl⟩

/-- A packet in `traffic` and in `drain`. -/
theorem counts_receive {t : Traffic} {phase : Traffic → Phase}
    (running : phase = .traffic ∨ phase = .draining) (at_t : c.phase = phase t)
    (inv : ClientInv ctx c) (pkt : Packet) (nowUs : UInt64) :
    Counts ctx c stats (.packet pkt nowUs) (Client.receive ctx c stats t phase pkt nowUs) := by
  obtain ⟨established, traffic, unacked⟩ := inv.running (t := t)
    (running.imp (fun eq => by rw [at_t, eq]) fun eq => by rw [at_t, eq])
  unfold Client.receive
  split
  · rename_i f awaitingRel ok
    obtain ⟨keeps, sent, goesOn⟩ := onIncoming_ok (f := ⟨t.out, stats, []⟩) traffic.out ok
    have later := traffic.keeps keeps sent awaitingRel
    have length : Client.unacked
        { c with phase := phase { t with out := f.out, awaitingRel } } = f.out.inflight.length := by
      rcases running with rfl | rfl
      · rfl
      · rfl
    refine Counts.even ?_ ?_ ?_ fun refuses => ?_
    · rcases running with rfl | rfl
      · exact ⟨established, later⟩
      · exact ⟨established, later⟩
    · dsimp only
      rw [keeps.activeConns]
      rfl
    · dsimp only
      rw [length, unacked]
      exact keeps.inflight
    · rw [goesOn] at refuses
      cases refuses
  · rename_i err failed
    refine Counts.ends (.error err) rfl rfl ⟨fun clean => clean ?_, fun none _ => none⟩ rfl
    rcases onIncoming_error failed with ⟨reason, eq⟩ | ⟨reason, receiveMax, eq⟩
    · rw [eq]
      rfl
    · rw [eq]
      rfl

theorem waitFor_gauges (ctx : Ctx) (stats : Stats) (want : Want) (nowUs : UInt64) (inc : Incoming) :
    (waitFor ctx want nowUs stats inc).1.activeConns = stats.activeConns ∧
      (waitFor ctx want nowUs stats inc).1.inflight = stats.inflight := by
  cases inc with
  | publish topic payload qos retain packetId => exact arrived_gauges stats nowUs payload retain
  | connAck accepted reason receiveMax => exact ⟨rfl, rfl⟩
  | subAck granted => exact ⟨rfl, rfl⟩
  | serverDisconnect reason => exact ⟨rfl, rfl⟩
  | pubAck pid => exact ⟨rfl, rfl⟩
  | pubRec pid => exact ⟨rfl, rfl⟩
  | pubRel pid => exact ⟨rfl, rfl⟩
  | pubComp pid => exact ⟨rfl, rfl⟩
  | pingResp => exact ⟨rfl, rfl⟩
  | ignored => exact ⟨rfl, rfl⟩

/-- A session that begins to publish. -/
theorem TrafficInv.start (valid : ctx.args.validate = .ok ()) (no : Nat)
    (receiveMax : Option UInt16) : TrafficInv ctx { out := Outbound.new ctx no receiveMax } where
  few := (capacity_new valid no receiveMax).2
  out := Outbound.inv_new ctx no receiveMax
  qos := rfl
  pubDone := by
    refine (Bool.eq_false_iff.mpr fun reached => ?_).symm
    obtain ⟨pos, least⟩ := limitReached_iff.mp reached
    exact absurd least (Nat.not_le.mpr pos)

/-- The CONNACK is accepted, and the session is active. -/
theorem counts_establish (valid : ctx.args.validate = .ok ()) {stats' : Stats}
    (conns : stats'.activeConns = stats.activeConns) (inflight : stats'.inflight = stats.inflight)
    (closed : c.established = false) (idle : c.unacked = 0) (clean : Clean ctx c event)
    (receiveMax : Option UInt16) (written : List Packet) :
    Counts ctx c stats event (Client.establish ctx no c stats' receiveMax written) := by
  have zero : c.conns = 0 := if_neg (by rw [closed]; decide)
  have active : stats'.connEstablished.activeConns - ((1 : Nat) : Int) =
      stats.activeConns - c.conns := by
    rw [zero]
    change stats'.activeConns + 1 - _ = _
    omega
  have unacked : stats'.connEstablished.inflight - ((0 : Nat) : Int) =
      stats.inflight - c.unacked := by
    rw [idle]
    exact congrArg (· - ((0 : Nat) : Int)) inflight
  unfold Client.establish
  dsimp only
  split
  · exact Counts.even rfl active unacked clean
  · exact Counts.even ⟨rfl, TrafficInv.start valid no receiveMax⟩ active unacked clean

theorem counts_packet (valid : ctx.args.validate = .ok ()) (inv : ClientInv ctx c) {pkt : Packet}
    {nowUs : UInt64} (stepped : Client.packet ctx no c stats pkt nowUs = some e) :
    Counts ctx c stats (.packet pkt nowUs) e := by
  have known := inv
  unfold ClientInv at known
  unfold Client.packet at stepped
  split at stepped
  · rename_i phase
    rw [phase] at known
    have idle : c.unacked = 0 := by rw [Client.unacked, phase]
    obtain ⟨conns, inflight⟩ := waitFor_gauges ctx stats .connAck nowUs (classify pkt)
    split at stepped
    · rename_i waited
      cases stepped
      rw [waited] at conns inflight
      exact Counts.even inv (by rw [← conns]) (by rw [← inflight]) fun _ => idle
    · rename_i waited
      cases stepped
      rw [waited] at conns inflight
      have clean : Clean ctx c (.packet pkt nowUs) := fun _ => idle
      exact counts_establish valid conns inflight known idle clean _ _
    · rename_i err waited
      cases stepped
      rw [waited] at conns inflight
      exact Counts.ends (.error err) conns inflight (iff_of_true (fun _ => idle) idle) rfl
  · rename_i receiveMax phase
    rw [phase] at known
    have idle : c.unacked = 0 := by rw [Client.unacked, phase]
    obtain ⟨conns, inflight⟩ := waitFor_gauges ctx stats .subAck nowUs (classify pkt)
    split at stepped
    · rename_i waited
      cases stepped
      rw [waited] at conns inflight
      exact Counts.even inv (by rw [← conns]) (by rw [← inflight]) fun _ => idle
    · rename_i waited
      cases stepped
      rw [waited] at conns inflight
      refine Counts.even ⟨known, TrafficInv.start valid no receiveMax⟩ ?_ ?_ fun _ => idle
      · rw [← conns]
        rfl
      · rw [idle, ← inflight]
        rfl
    · rename_i err waited
      cases stepped
      rw [waited] at conns inflight
      exact Counts.ends (.error err) conns inflight (iff_of_true (fun _ => idle) idle) rfl
  · rename_i t phase
    cases stepped
    exact counts_receive (.inl rfl) phase inv pkt nowUs
  · rename_i t phase
    cases stepped
    exact counts_receive (.inr rfl) phase inv pkt nowUs
  · cases stepped

/-- The tick that reaches the limit leaves messages in flight, above QoS 0. -/
theorem counts_pubTick {t : Traffic} (phase : c.phase = .traffic t) (inv : ClientInv ctx c)
    (going : t.pubDone = false) (clock : Nat → UInt64) :
    Counts ctx c stats (.pubTick clock) (Client.pubTick ctx no c stats t clock) := by
  obtain ⟨established, traffic, unacked⟩ := inv.running (.inl phase)
  have below := going ▸ traffic.pubDone
  unfold Client.pubTick Flow.fill
  dsimp only
  generalize hturns : (if ctx.args.pubInterval = 0 then ctx.args.maxInflight else 1) = turns
  have keeps := Keeps.fillLoop (f := ⟨t.out, stats, []⟩) ctx (ctx.clientId no) traffic.few clock
    turns 0 traffic.out
  have reached := limitReached_fillLoop (f := ⟨t.out, stats, []⟩) ctx (ctx.clientId no)
    traffic.few clock turns 0 traffic.out
  have publishing : c.publishing = some t := by rw [Client.publishing, phase]
  have finishes : Finishes ctx c ↔ ctx.args.sub = false ∧
      (Flow.fillLoop ctx (ctx.clientId no) clock turns 0 ⟨t.out, stats, []⟩).out.limitReached ctx =
        true := by
    rw [reached, Finishes, publishing]
    unfold room
    rw [hturns]
    constructor
    · rintro ⟨t', same, last⟩
      cases same
      exact last
    · exact fun last => ⟨t, rfl, last⟩
  have left := fillLoop_inflight (f := ⟨t.out, stats, []⟩) ctx (ctx.clientId no) clock turns 0
  generalize Flow.fillLoop ctx (ctx.clientId no) clock turns 0 ⟨t.out, stats, []⟩ = f
    at keeps finishes left
  have counted := keeps.inflight
  dsimp only at counted
  by_cases last : f.out.limitReached ctx = true ∧ ctx.args.sub = false
  · rw [if_pos last]
    refine ⟨trivial, 0, f.out.inflight.length, ?_, ?_, ?_⟩
    · change f.stats.activeConns - (c.conns : Int) = _
      have conns : f.stats.activeConns = stats.activeConns := keeps.activeConns
      omega
    · change f.stats.inflight - ((0 : Nat) : Int) = _
      omega
    · change (Finishes ctx c → ¬ ctx.args.qos > 0) ↔ _
      constructor
      · intro clean
        have none := keeps.inv.unacked (by
          rw [keeps.qos, traffic.qos]
          exact clean (finishes.mpr last.symm))
        exact ⟨rfl, by rw [none]; rfl⟩
      · rintro ⟨-, none⟩ - acked
        rcases left (by rw [traffic.qos]; exact acked) with same | some
        · rw [same, ← below] at last
          exact absurd last.1 (by decide)
        · exact some (List.eq_nil_of_length_eq_zero none)
  · rw [if_neg last]
    refine Counts.even ⟨established, ?_⟩ ?_ ?_ fun finish => absurd (finishes.mp finish).symm last
    · exact ⟨keeps.inv.capacity ▸ traffic.few, keeps.inv.capacity ▸ keeps.inv,
        keeps.qos.trans traffic.qos, rfl⟩
    · change f.stats.activeConns - (c.conns : Int) = _
      rw [keeps.activeConns]
    · change f.stats.inflight - (f.out.inflight.length : Int) = _
      rw [unacked]
      exact counted

/-- What the end of a session does to the gauges. -/
theorem close_gauges (ctx : Ctx) (stats : Stats) (outcome : Except String SessionEnd)
    (stopped : Bool) :
    (Client.close ctx stats outcome stopped).stats.activeConns = stats.activeConns - 1 ∧
      (Client.close ctx stats outcome stopped).stats.inflight = stats.inflight := by
  unfold Client.close
  dsimp only
  split
  · exact ⟨rfl, rfl⟩
  · split
    · exact ⟨rfl, rfl⟩
    · exact ⟨rfl, rfl⟩
  · split
    · exact ⟨rfl, rfl⟩
    · exact ⟨rfl, rfl⟩

/-- A connection that is closed is no longer active, and was before if it was accepted. -/
theorem counts_close {outcome : Except String SessionEnd} (phase : c.phase = .closing outcome)
    (stopped : Bool) :
    Counts ctx c stats (.close stopped) (Client.close ctx stats outcome stopped) := by
  have idle : c.unacked = 0 := by rw [Client.unacked, phase]
  obtain ⟨conns, inflight⟩ := close_gauges ctx stats outcome stopped
  have left : ClientInv ctx (Client.close ctx stats outcome stopped).client ∧
      (Client.close ctx stats outcome stopped).client.conns = 0 ∧
      (Client.close ctx stats outcome stopped).client.unacked = 0 := by
    rcases Client.close_client ctx stats outcome stopped with client | client
    · rw [client]
      exact ⟨rfl, rfl, rfl⟩
    · rw [client]
      exact ⟨rfl, rfl, rfl⟩
  have worth : c.established = true ∧ c.conns = 1 ∨ c.established = false ∧ c.conns = 0 := by
    unfold Client.conns
    cases c.established
    · exact .inr ⟨rfl, rfl⟩
    · exact .inl ⟨rfl, rfl⟩
  refine ⟨left.1, 1 - c.conns, 0, ?_, ?_, ?_⟩
  · rw [conns, left.2.1]
    omega
  · rw [inflight, left.2.2, idle]
    omega
  · change c.established = true ↔ _
    rcases worth with ⟨accepted, one⟩ | ⟨refused, zero⟩
    · rw [one]
      exact iff_of_true accepted ⟨rfl, rfl⟩
    · rw [refused, zero]
      exact iff_of_false (by decide) fun h => absurd h.1 (by decide)

theorem counts_step (valid : ctx.args.validate = .ok ()) (inv : ClientInv ctx c)
    (stepped : Client.step ctx no c stats event = some e) : Counts ctx c stats event e := by
  have known := inv
  unfold ClientInv at known
  cases Client.moves_of_step stepped with
  | packet moved => exact counts_packet valid inv moved
  | start phase =>
      rw [phase] at known
      refine Counts.even known rfl ?_ trivial
      rw [Client.unacked, Client.unacked, phase]
      rfl
  | quit phase =>
      rw [phase] at known
      refine Counts.even known rfl ?_ trivial
      rw [Client.unacked, Client.unacked, phase]
  | connectFailed err stopped phase =>
      rw [phase] at known
      have idle : c.unacked = 0 := by rw [Client.unacked, phase]
      have zero : c.conns = 0 := if_neg (by rw [known]; decide)
      unfold Client.connectFailed
      dsimp only
      split
      · exact Counts.even rfl (by rw [zero]; rfl) (by rw [idle]; rfl) trivial
      · exact Counts.even rfl (by rw [zero]; rfl) (by rw [idle]; rfl) trivial
  | connected phase =>
      rw [phase] at known
      refine Counts.even known rfl ?_ trivial
      rw [Client.unacked, Client.unacked, phase]
  | timeout outcome phase =>
      refine Counts.ends outcome rfl rfl (iff_of_true trivial ?_) rfl
      rcases phase with phase | ⟨receiveMax, phase⟩
      · rw [Client.unacked, phase]
      · rw [Client.unacked, phase]
  | readError err outcome => exact Counts.ends outcome rfl rfl Iff.rfl rfl
  | writeError err outcome => exact Counts.ends outcome rfl rfl Iff.rfl rfl
  | pubTick clock phase going => exact counts_pubTick phase inv going clock
  | ping => exact Counts.even inv rfl rfl trivial
  | noPing => exact Counts.even inv rfl rfl trivial
  | @sweepTick t f walk nowUs phase swept =>
      obtain ⟨established, traffic, unacked⟩ := inv.running (.inl phase)
      have keeps : Keeps t.out.slots.capacity ⟨t.out, stats, []⟩ f :=
        swept ▸ Keeps.sweepTimeouts traffic.out walk nowUs
      have sent : f.out.sent = t.out.sent := swept ▸ Flow.sent_sweepTimeouts _ walk nowUs
      refine Counts.even ⟨established, traffic.keeps keeps sent t.awaitingRel⟩ ?_ ?_ trivial
      · dsimp only
        rw [keeps.activeConns]
        rfl
      · rw [unacked]
        exact keeps.inflight
  | drain phase drain =>
      obtain ⟨established, traffic, unacked⟩ := inv.running (.inl phase)
      refine Counts.even ⟨established, traffic⟩ rfl ?_ (.inl drain)
      rw [unacked]
      rfl
  | stop drain => exact Counts.ends _ rfl rfl (or_iff_right drain) rfl
  | kick => exact Counts.ends _ rfl rfl Iff.rfl rfl
  | drained => exact Counts.ends _ rfl rfl Iff.rfl rfl
  | close stopped phase => exact counts_close phase stopped

end

/-! ## Any number of clients -/

/-- The statistics, and the clients that share them. -/
structure World : Type where
  stats : Stats := {}
  clients : List Client

namespace World

/-- Something happens to the `i`-th client. -/
def step (ctx : Ctx) (w : World) (a : Nat × Event) : Option World := do
  let c ← w.clients[a.1]?
  let e ← c.step ctx a.1 w.stats a.2
  return ⟨e.stats, w.clients.set a.1 e.client⟩

/-- The active connections are the sessions whose CONNACK was accepted and which are not closed, and
the messages in flight are those of the sessions that are running. -/
def Gauged (w : World) : Prop :=
  w.stats.activeConns = ((w.clients.map Client.conns).sum : Nat) ∧
    w.stats.inflight = ((w.clients.map Client.unacked).sum : Nat)

instance (w : World) : Decidable w.Gauged := inferInstanceAs (Decidable (_ ∧ _))

def Clean (ctx : Ctx) (w : World) (a : Nat × Event) : Prop :=
  ∀ c ∈ w.clients[a.1]?, Bench.Clean ctx c a.2

instance (ctx : Ctx) (w : World) (a : Nat × Event) : Decidable (w.Clean ctx a) :=
  inferInstanceAs (Decidable (∀ c ∈ w.clients[a.1]?, _))

/-- The gauges only drift apart from what they count: the connections are counted too low, and the
messages too high. -/
structure Inv (ctx : Ctx) (w : World) : Prop where
  clients : ∀ c ∈ w.clients, ClientInv ctx c
  activeConns : w.stats.activeConns ≤ ((w.clients.map Client.conns).sum : Nat)
  inflight : ((w.clients.map Client.unacked).sum : Nat) ≤ w.stats.inflight

/-- A run of the benchmark at its start. -/
def initial (conns : Nat) : World where
  clients := List.replicate conns {}

end World

section

variable {ctx : Ctx} {w w' : World}

theorem sum_map_set {α : Type} (weight : α → Nat) {l : List α} {i : Nat} {a : α}
    (found : l[i]? = some a) (b : α) :
    ((l.set i b).map weight).sum + weight a = (l.map weight).sum + weight b := by
  induction l generalizing i with
  | nil => cases found
  | cons x l ih =>
      cases i with
      | zero =>
          cases found
          rw [List.set_cons_zero, List.map_cons, List.map_cons, List.sum_cons, List.sum_cons]
          omega
      | succ i =>
          have later := ih (i := i) found
          rw [List.set_cons_succ, List.map_cons, List.map_cons, List.sum_cons, List.sum_cons]
          omega

theorem World.step_counts (valid : ctx.args.validate = .ok ()) (inv : w.Inv ctx)
    {a : Nat × Event} (stepped : w.step ctx a = some w') :
    w'.Inv ctx ∧ (w'.Gauged ↔ w.Gauged ∧ w.Clean ctx a) := by
  obtain ⟨c, found, stepped⟩ := Option.bind_eq_some_iff.mp stepped
  obtain ⟨e, moved, eq⟩ := Option.bind_eq_some_iff.mp stepped
  cases eq
  have counts := counts_step valid (inv.clients c (List.mem_of_getElem? found)) moved
  obtain ⟨lostConns, lostUnacked, conns, unacked, clean⟩ := counts.lost
  have sumConns := sum_map_set Client.conns found e.client
  have sumUnacked := sum_map_set Client.unacked found e.client
  have clean' : w.Clean ctx a ↔ lostConns = 0 ∧ lostUnacked = 0 := by
    rw [← clean, World.Clean, found]
    exact ⟨fun h => h c rfl, fun h c' same => Option.some.inj same ▸ h⟩
  have few := inv.activeConns
  have many := inv.inflight
  refine ⟨⟨fun d hd => ?_, ?_, ?_⟩, ?_⟩
  · rcases List.mem_or_eq_of_mem_set hd with old | rfl
    · exact inv.clients d old
    · exact counts.inv
  · dsimp only
    omega
  · dsimp only
    omega
  · rw [clean']
    unfold World.Gauged
    dsimp only
    omega

/-- After a run of any number of clients, the gauges are right exactly when no session was closed
that had not been accepted, and none ended with a message in flight. -/
theorem gauges_iff (valid : ctx.args.validate = .ok ()) (conns : Nat) (actions : List (Nat × Event))
    (ran : Machine.run (World.step ctx) (World.initial conns) actions = some w') :
    w'.Gauged ↔ Machine.Guarded (World.step ctx) (World.Clean ctx)
      (World.initial conns) actions := by
  have zero : ∀ weight : Client → Nat, weight {} = 0 →
      ((World.initial conns).clients.map weight).sum = 0 := by
    intro weight none
    rw [World.initial, List.map_replicate, none, List.sum_replicate_nat]
    exact Nat.mul_zero conns
  have noConns := zero Client.conns rfl
  have noUnacked := zero Client.unacked rfl
  have start : (World.initial conns).Inv ctx := by
    refine ⟨fun c hc => ?_, ?_, ?_⟩
    · rw [List.eq_of_mem_replicate hc]
      rfl
    · rw [noConns]
      exact Int.le_refl 0
    · rw [noUnacked]
      exact Int.le_refl 0
  have gauged : (World.initial conns).Gauged := ⟨by rw [noConns]; rfl, by rw [noUnacked]; rfl⟩
  rw [Machine.iff_guarded (fun _ _ _ inv stepped => (World.step_counts valid inv stepped).1)
    (fun _ _ _ inv stepped => (World.step_counts valid inv stepped).2) ran start]
  exact and_iff_right gauged

end

/-- Two clients: one is kicked when its message is acknowledged, the other waits for its CONNACK. -/
def accepted : List (Nat × Event) :=
  [(0, .start), (1, .start), (0, .connected), (1, .connected),
    (0, .packet (.connAck 0 false none) 0), (0, .pubTick fun _ => 0),
    (0, .packet (.pubAck 1 0) 0), (0, .kick), (0, .close false)]

/-- Clients that publish. -/
def publishing : Ctx where
  args := { publisher.args with pubSwitch := true }
  proto := .v5
  peers := publisher.peers
  processId := 1

set_option maxRecDepth 4000 in
theorem gauges_accepted :
    ∃ w ∈ Machine.run (World.step publishing) (World.initial 2) accepted, w.Gauged := by
  have ran : (Machine.run (World.step publishing) (World.initial 2) accepted).isSome := by decide
  exact ⟨_, Option.get_mem ran,
    (gauges_iff (by decide) 2 accepted (Option.get_mem ran)).mpr (by decide)⟩

/-- A connection that the broker refuses is counted as closed, and the message that is in flight
when a client is kicked stays in flight. -/
theorem gauges_drift :
    (∃ w ∈ Machine.run (World.step publishing) (World.initial 1)
        [(0, .start), (0, .connected), (0, .packet (.connAck 5 false none) 0), (0, .close false)],
      w.stats.activeConns = -1 ∧ ¬ w.Gauged) ∧
    ∃ w ∈ Machine.run (World.step publishing) (World.initial 1)
        [(0, .start), (0, .connected), (0, .packet (.connAck 0 false none) 0),
          (0, .pubTick fun _ => 0), (0, .kick), (0, .close false)],
      w.stats.inflight = 1 ∧ w.clients.map Client.unacked = [0] ∧ ¬ w.Gauged := by
  decide

end OxiMqtt.Bench

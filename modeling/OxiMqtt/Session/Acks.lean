import OxiMqtt.Lib.Trace
import OxiMqtt.Session.Window

/-!
# Acknowledgments of outbound publishes

What `process_mqtt_message` does with the PUBACK, PUBREC, PUBREL and PUBCOMP packets of a client that
may send any of them, with any packet id and in any order, while the other arms of the loop run.  The
window is looked up by the packet id alone, and of a PUBREC only the packet id is read: it always
gets a PUBREL.

The trace keeps what the window and the hook `message_acked` see of it; no branch reads it.

* `Own`: an event belongs to the flow of its own message.
* `OwnEntry`: the condition on a packet.
* `acks_own_flow`: in a run whose packets meet it, every event does.
* `foreign_acks`: packets that complete or change the flow of another message.
-/

namespace OxiMqtt.Session

/-- `OutInflight::get` -/
def OutInflight.get {F : Type} (w : OutInflight F) (packetId : PacketId) :
    Option (OutInflightMessage F) :=
  (w.queues.find? fun e => e.1 == packetId).map Prod.snd

namespace OutInflight

open OxiMqtt.Codec (NonZeroU16)

variable {F : Type} {w : OutInflight F} {packetId : PacketId} {m : OutInflightMessage F}

theorem remove_fst (w : OutInflight F) (packetId : PacketId) :
    (w.remove packetId).1 = w.get packetId := by
  unfold OutInflight.remove OutInflight.get
  cases w.queues.find? fun e => e.1 == packetId <;> rfl

theorem mem_of_get (h : w.get packetId = some m) : (packetId, m) ∈ w.queues := by
  obtain ⟨⟨key, m'⟩, found, rfl⟩ := Option.map_eq_some_iff.mp h
  have key_eq : key = packetId := by simpa using List.find?_some found
  exact key_eq ▸ List.mem_of_find?_eq_some found

theorem WellKeyed.get_eq_some (keyed : w.WellKeyed) (h : (packetId, m) ∈ w.queues) :
    w.get packetId = some m := by
  cases found : w.queues.find? fun e => e.1 == packetId with
  | none => exact absurd (by simp) (List.find?_eq_none.mp found _ h)
  | some e =>
      obtain ⟨front, back, split, key, others⟩ := OutInflight.find?_split keyed.keys found
      rw [split, List.mem_append, List.mem_cons] at h
      have same : (packetId, m) = e := by
        rcases h with h | h | h
        · exact absurd rfl (others _ (List.mem_append_left _ h))
        · exact h
        · exact absurd rfl (others _ (List.mem_append_right _ h))
      rw [OutInflight.get, found, ← same]
      rfl

/-- The entry under a packet id is a publish with that id. -/
theorem WellKeyed.packetId_of_get (keyed : w.WellKeyed) {packetId : NonZeroU16}
    (found : w.get packetId.val = some m) : m.publish.packetId = some packetId := by
  have key := keyed.packetId _ (mem_of_get found)
  obtain ⟨own, id, same⟩ := Option.map_eq_some_iff.mp key
  rw [id]
  exact congrArg some (Subtype.ext same)

end OutInflight

namespace Acks

open OxiMqtt.Codec (QoS NonZeroU16 Publish)
open OxiMqtt.Codec.V5 (PublishAckReason)
open Outbound (MsgId Message)
open Trace (Each)

/-! ## The packets and the trace -/

/-- What a client can send.  A v3 PUBREC has no reason code. -/
inductive AckPacket : Type
  | publishAck (packetId : NonZeroU16)
  | publishReceived (packetId : NonZeroU16) (reason : Option PublishAckReason)
  | publishRelease (packetId : NonZeroU16)
  | publishComplete (packetId : NonZeroU16)
  deriving DecidableEq, Repr

/-- The reason code of a PUBREC is below 0x80. -/
def succeeds (reason : Option PublishAckReason) : Bool :=
  reason.all fun r => Codec.PrimEnum.toU8 r < 0x80

/-- What the outbound side reads of a packet; a PUBREL is for the inbound side. -/
def AckPacket.outbound : AckPacket → Option Outbound.Ack
  | .publishAck packetId => some (.publishAck packetId)
  | .publishReceived packetId _ => some (.publishReceived packetId)
  | .publishRelease _ => none
  | .publishComplete packetId => some (.publishComplete packetId)

inductive Event : Type
  /-- A message was removed from the window and reported through `message_acked`. -/
  | acked (m : OutInflightMessage MsgId) (packet : AckPacket)
  /-- A PUBREC has set the state of a message. -/
  | updated (m : OutInflightMessage MsgId) (packet : AckPacket)
  /-- A PUBREL was sent in answer to a PUBREC, with what the window had under its id. -/
  | released (packet : AckPacket) (entry : Option (OutInflightMessage MsgId))
  /-- A PUBREL was sent again, after a timeout. -/
  | rereleased (m : OutInflightMessage MsgId)
  deriving DecidableEq, Repr

/-- What a packet does, by the window it finds. -/
def events (w : OutInflight MsgId) (packet : AckPacket) : List Event :=
  match packet with
  | .publishAck packetId => ((w.remove packetId.val).1.map (Event.acked · packet)).toList
  | .publishReceived packetId _ =>
      ((w.get packetId.val).map (Event.updated · packet)).toList ++
        [.released packet (w.get packetId.val)]
  | .publishRelease _ => []
  | .publishComplete packetId => ((w.remove packetId.val).1.map (Event.acked · packet)).toList

structure State : Type where
  session : Outbound.State
  trace : List Event := []

inductive Step : Type
  /-- An arm of the loop other than the packet arm, or a publisher. -/
  | arm (a : Outbound.Step)
  /-- The packet arm. -/
  | receive (packet : AckPacket)
  /-- `transfer_session_state` -/
  | transfer (inflight : List (OutInflightMessage MsgId)) (offline : List (MsgId × Publish))

/-- The PUBREL that an arm sends again. -/
def resent (s : Outbound.State) : Outbound.Step → List Event
  | .message =>
      match s.channel with
      | .sendRerelease m :: _ => [.rereleased m]
      | _ => []
  | _ => []

def receive (s : Outbound.State) (packet : AckPacket) : Outbound.State :=
  match packet.outbound with
  | some ack => Outbound.processAck s ack
  | none => s

/-- A packet of the client makes up no label. -/
theorem carried_receive {L : Type} {label : Outbound.Label L} {s : Outbound.State}
    {packet : AckPacket} {l : L} (carried : label.Carried (receive s packet) l) :
    label.Carried s l := by
  unfold receive at carried
  split at carried
  · exact Outbound.Label.carried_processAck carried
  · exact carried

/-- The packets come from a client that need not conform: the link and the client of the outbound
model are not used. -/
def step (s : State) : Step → Option State
  | .arm .packet => none
  | .arm .client => none
  | .arm a =>
      (Outbound.step s.session a).map fun session =>
        { session, trace := s.trace ++ resent s.session a }
  | .receive packet =>
      some
        { session := receive s.session packet
          trace := s.trace ++ events s.session.outInflight packet }
  | .transfer inflight offline =>
      some { s with
        session :=
          { s.session with
            channel := s.session.channel ++ Window.transferred inflight offline } }

/-- A connection at its start. -/
def initial (version : Outbound.Version) (cap : NonZeroU16)
    (retryInterval expiryInterval : TimestampMillis) (toBack : Bool) (queueCap : Nat) : State where
  session := Outbound.initial version cap.val.toNat retryInterval expiryInterval toBack queueCap

/-- An arm does what it does in the outbound model. -/
theorem step_arm {s s' : State} {a : Outbound.Step} (h : step s (.arm a) = some s') :
    a ≠ .packet ∧ a ≠ .client ∧ ∃ session, Outbound.step s.session a = some session ∧
      s' = { session, trace := s.trace ++ resent s.session a } := by
  cases a with
  | packet => cases h
  | client => cases h
  | forward p =>
      cases h
      exact ⟨by simp, by simp, _, rfl, rfl⟩
  | tick elapsed =>
      cases h
      exact ⟨by simp, by simp, _, rfl, rfl⟩
  | timeout expired =>
      obtain ⟨session, taken, rfl⟩ := Option.map_eq_some_iff.mp h
      exact ⟨by simp, by simp, session, taken, rfl⟩
  | deliver expired =>
      obtain ⟨session, taken, rfl⟩ := Option.map_eq_some_iff.mp h
      exact ⟨by simp, by simp, session, taken, rfl⟩
  | message =>
      obtain ⟨session, taken, rfl⟩ := Option.map_eq_some_iff.mp h
      exact ⟨by simp, by simp, session, taken, rfl⟩

theorem wellKeyed_receive {s : Outbound.State} (keyed : s.outInflight.WellKeyed)
    (packet : AckPacket) : (receive s packet).outInflight.WellKeyed := by
  unfold receive
  split
  · exact Outbound.wellKeyed_processAck keyed _
  · exact keyed

/-! ## Own flows -/

/-- A successful PUBREC has come for the message while it was in the window under this id. -/
def Received (trace : List Event) (msg : MsgId) (packetId : NonZeroU16) : Prop :=
  ∃ m reason, Event.updated m (.publishReceived packetId reason) ∈ trace ∧ m.origin = msg ∧
    succeeds reason = true

/-- The event belongs to the flow of its message. -/
def Own (before : List Event) : Event → Prop
  | .acked m packet => ∃ packetId, m.publish.packetId = some packetId ∧
      (m.publish.qos = .atLeastOnce → packet = .publishAck packetId) ∧
      (m.publish.qos = .exactlyOnce →
        (packet = .publishComplete packetId ∧ Received before m.origin packetId) ∨
          ∃ reason, packet = .publishReceived packetId reason ∧ succeeds reason = false)
  | .updated m _ => m.publish.qos ≠ .atLeastOnce
  | .released packet entry => ∃ packetId reason m, packet = .publishReceived packetId reason ∧
      succeeds reason = true ∧ entry = some m ∧ m.publish.packetId = some packetId ∧
      m.publish.qos = .exactlyOnce
  | .rereleased m => ∃ packetId, m.publish.packetId = some packetId ∧
      m.publish.qos = .exactlyOnce ∧ Received before m.origin packetId

/-! ## The condition -/

/-- A PUBACK names no entry of the window or one of QoS 1; a PUBREC is successful and names one of
QoS 2; a PUBCOMP names no entry or one of QoS 2 that has had its PUBREC. -/
def OwnEntry (s : State) : Step → Prop
  | .receive (.publishAck packetId) =>
      ∀ m ∈ s.session.outInflight.get packetId.val, m.publish.qos = .atLeastOnce
  | .receive (.publishReceived packetId reason) =>
      succeeds reason = true ∧
        ∃ m ∈ s.session.outInflight.get packetId.val, m.publish.qos = .exactlyOnce
  | .receive (.publishComplete packetId) =>
      ∀ m ∈ s.session.outInflight.get packetId.val,
        m.publish.qos = .exactlyOnce ∧ m.status = .unComplete
  | _ => True

instance (s : State) (a : Step) : Decidable (OwnEntry s a) :=
  match a with
  | .arm _ => isTrue trivial
  | .transfer _ _ => isTrue trivial
  | .receive (.publishAck packetId) =>
      inferInstanceAs (Decidable (∀ m ∈ s.session.outInflight.get packetId.val,
        m.publish.qos = .atLeastOnce))
  | .receive (.publishReceived packetId reason) =>
      inferInstanceAs (Decidable (succeeds reason = true ∧
        ∃ m ∈ s.session.outInflight.get packetId.val, m.publish.qos = .exactlyOnce))
  | .receive (.publishRelease _) => isTrue trivial
  | .receive (.publishComplete packetId) =>
      inferInstanceAs (Decidable (∀ m ∈ s.session.outInflight.get packetId.val,
        m.publish.qos = .exactlyOnce ∧ m.status = .unComplete))

/-! ## The invariant -/

/-- The message is of QoS 2 and has had its PUBREC. -/
def Completing (trace : List Event) (m : OutInflightMessage MsgId) : Prop :=
  ∃ packetId, m.publish.packetId = some packetId ∧ m.publish.qos = .exactlyOnce ∧
    Received trace m.origin packetId

/-- What holds between the steps of a run that meets the condition. -/
structure Inv (s : State) : Prop where
  keyed : s.session.outInflight.WellKeyed
  window : ∀ e ∈ s.session.outInflight.queues, e.2.status = .unComplete → Completing s.trace e.2
  channel : ∀ m, Message.sendRerelease m ∈ s.session.channel → Completing s.trace m
  own : Each Own s.trace

variable {s : State} {trace : List Event} {m : OutInflightMessage MsgId}

theorem Received.append {msg : MsgId} {packetId : NonZeroU16} (h : Received trace msg packetId)
    (more : List Event) : Received (trace ++ more) msg packetId := by
  obtain ⟨m, reason, member, origin, success⟩ := h
  exact ⟨m, reason, List.mem_append_left more member, origin, success⟩

theorem Completing.append (h : Completing trace m) (more : List Event) :
    Completing (trace ++ more) m := by
  obtain ⟨packetId, id, qos, received⟩ := h
  exact ⟨packetId, id, qos, received.append more⟩

theorem inv_initial (version : Outbound.Version) (cap : NonZeroU16)
    (retryInterval expiryInterval : TimestampMillis) (toBack : Bool) (queueCap : Nat) :
    Inv (initial version cap retryInterval expiryInterval toBack queueCap) where
  keyed := OutInflight.wellKeyed_new _ _ _ _
  window := by simp [initial, Outbound.initial, OutInflight.new]
  channel := by simp [initial, Outbound.initial]
  own := Each.nil

/-- The messages that wait for a PUBCOMP and are sent again are those of the window. -/
theorem sendRerelease_mem_again {expired : Bool} {m' : OutInflightMessage MsgId}
    (h : Message.sendRerelease m' ∈ Outbound.again m expired) : m' = m ∧ m.status = .unComplete := by
  unfold Outbound.again at h
  cases status : m.status with
  | unAck => simp [status] at h
  | unReceived => simp [status] at h
  | unComplete =>
      cases expired with
      | false => simpa [status] using h
      | true => simp [status] at h

theorem inv_timeout (inv : Inv s) {expired : Bool} {session : Outbound.State}
    (h : Outbound.step s.session (.timeout expired) = some session) :
    Inv { s with session } := by
  obtain ⟨packetId, m, w, front, rfl⟩ := Outbound.step_timeout h
  have sub : w.queues.Sublist s.session.outInflight.queues := by
    rw [front]
    exact List.sublist_cons_self _ _
  refine ⟨Outbound.wellKeyed_step inv.keyed h, fun e he => inv.window e (sub.subset he),
    fun m' hm' => ?_, inv.own⟩
  rcases List.mem_append.mp hm' with old | new
  · exact inv.channel m' old
  · obtain ⟨rfl, waits⟩ := sendRerelease_mem_again new
    exact inv.window (packetId, m') (by rw [front]; exact List.mem_cons_self) waits

theorem inv_deliver (inv : Inv s) {expired : Bool} {session : Outbound.State}
    (h : Outbound.step s.session (.deliver expired) = some session) :
    Inv { s with session } := by
  have keyed := Outbound.wellKeyed_step inv.keyed h
  obtain ⟨msg, p, queue, -, ⟨-, rfl⟩ | ⟨-, p', w, assigned, rfl⟩⟩ := Outbound.step_deliver h
  · exact ⟨keyed, inv.window, inv.channel, inv.own⟩
  · have same := (Outbound.assignPacketId_same assigned).1
    refine ⟨keyed, fun e he waits => ?_, inv.channel, inv.own⟩
    rcases Outbound.mem_sentWindow he with ⟨-, -, fresh, -⟩ | ⟨old, -⟩
    · exact absurd waits fresh
    · exact inv.window e (same ▸ old) waits

theorem inv_message (inv : Inv s) {session : Outbound.State}
    (h : Outbound.step s.session .message = some session) :
    Inv { session, trace := s.trace ++ resent s.session .message } := by
  have keyed := Outbound.wellKeyed_step inv.keyed h
  rcases Outbound.step_message h with ⟨msg, p, channel, head, rfl⟩ |
    ⟨m, packetId, channel, head, id, rfl⟩
  · have silent : resent s.session .message = [] := by simp [resent, head]
    rw [silent, List.append_nil]
    refine ⟨keyed, inv.window, fun m hm => inv.channel m ?_, inv.own⟩
    rw [head]
    exact List.mem_cons_of_mem _ hm
  · have again : resent s.session .message = [.rereleased m] := by simp [resent, head]
    have completing : Completing s.trace m := inv.channel m (by rw [head]; exact List.mem_cons_self)
    rw [again]
    refine ⟨keyed, fun e he waits => ?_, fun m' hm' => ?_, inv.own.snoc completing⟩
    · rcases OutInflight.mem_pushBack he with ⟨pushed, -⟩ | ⟨old, -⟩
      · rw [pushed]
        exact completing.append _
      · exact (inv.window e old waits).append _
    · apply Completing.append
      apply inv.channel m'
      rw [head]
      exact List.mem_cons_of_mem _ hm'

/-! ## The packets -/

/-- A removed entry is reported, and the rest of the window stays. -/
theorem inv_remove (inv : Inv s) (packetId : NonZeroU16) (packet : AckPacket)
    (own : ∀ m ∈ s.session.outInflight.get packetId.val, Own s.trace (.acked m packet)) :
    Inv
      { session :=
          { s.session with outInflight := (s.session.outInflight.remove packetId.val).2 }
        trace := s.trace ++
          ((s.session.outInflight.remove packetId.val).1.map (Event.acked · packet)).toList } := by
  have sub := OutInflight.queues_remove_sublist s.session.outInflight packetId.val
  refine ⟨inv.keyed.sublist sub, fun e he waits => (inv.window e (sub.subset he) waits).append _,
    fun m hm => (inv.channel m hm).append _, ?_⟩
  rw [OutInflight.remove_fst]
  cases found : s.session.outInflight.get packetId.val with
  | none => simpa using inv.own
  | some m => exact inv.own.snoc (own m found)

theorem inv_publishReceived (inv : Inv s) {packetId : NonZeroU16}
    {reason : Option PublishAckReason} (success : succeeds reason = true)
    (found : s.session.outInflight.get packetId.val = some m)
    (qos : m.publish.qos = .exactlyOnce) :
    Inv
      { session := receive s.session (.publishReceived packetId reason)
        trace := s.trace ++ events s.session.outInflight (.publishReceived packetId reason) } := by
  have id := inv.keyed.packetId_of_get found
  have logged : s.trace ++ events s.session.outInflight (.publishReceived packetId reason) =
      s.trace ++ [.updated m (.publishReceived packetId reason)] ++
        [.released (.publishReceived packetId reason) (some m)] := by
    simp [events, found]
  have received : Completing (s.trace ++ events s.session.outInflight
      (.publishReceived packetId reason)) m := by
    refine ⟨packetId, id, qos, m, reason, ?_, rfl, success⟩
    rw [logged]
    simp
  refine ⟨inv.keyed.updateStatus _ _, fun e he waits => ?_, fun m' hm' => ?_, ?_⟩
  · rcases OutInflight.mem_updateStatus he with ⟨old, -⟩ | ⟨m', member, rfl⟩
    · exact (inv.window e old waits).append _
    · have same := inv.keyed.get_eq_some member
      rw [found] at same
      cases same
      exact received
  · exact (inv.channel m' hm').append _
  · have updated : Own s.trace (.updated m (.publishReceived packetId reason)) := by
      simp [Own, qos]
    have released : Own (s.trace ++ [.updated m (.publishReceived packetId reason)])
        (.released (.publishReceived packetId reason) (some m)) :=
      ⟨packetId, reason, m, rfl, success, rfl, id, qos⟩
    rw [logged]
    exact (inv.own.snoc updated).snoc released

theorem inv_receive (inv : Inv s) (packet : AckPacket) (own : OwnEntry s (.receive packet)) :
    Inv
      { session := receive s.session packet
        trace := s.trace ++ events s.session.outInflight packet } := by
  cases packet with
  | publishAck packetId =>
      refine inv_remove inv packetId _ fun m found => ?_
      have qos := own m found
      refine ⟨packetId, inv.keyed.packetId_of_get found, fun _ => rfl, fun other => ?_⟩
      rw [qos] at other
      cases other
  | publishReceived packetId reason =>
      obtain ⟨success, m, found, qos⟩ := own
      exact inv_publishReceived inv success found qos
  | publishRelease packetId =>
      simpa [receive, AckPacket.outbound, events] using inv
  | publishComplete packetId =>
      refine inv_remove inv packetId _ fun m found => ?_
      obtain ⟨qos, waits⟩ := own m found
      have id := inv.keyed.packetId_of_get found
      obtain ⟨packetId', id', -, received⟩ :=
        inv.window (packetId.val, m) (OutInflight.mem_of_get found) waits
      rw [id] at id'
      cases id'
      refine ⟨packetId, id, fun other => ?_, fun _ => .inl ⟨rfl, received⟩⟩
      rw [qos] at other
      cases other

theorem inv_step {s' : State} (a : Step) (inv : Inv s) (own : OwnEntry s a)
    (h : step s a = some s') : Inv s' := by
  cases a with
  | arm a =>
      obtain ⟨packet, client, session, taken, rfl⟩ := step_arm h
      cases a with
      | forward p =>
          cases taken
          refine ⟨inv.keyed, fun e he waits => (inv.window e he waits).append _, fun m hm => ?_, ?_⟩
          · simp only [List.mem_append, List.mem_singleton, reduceCtorEq, or_false] at hm
            exact (inv.channel m hm).append _
          · simpa [resent] using inv.own
      | tick elapsed =>
          cases taken
          simpa [resent] using (⟨inv.keyed, inv.window, inv.channel, inv.own⟩ :
            Inv { s with session := { s.session with clock := s.session.clock + elapsed } })
      | timeout expired => simpa [resent] using inv_timeout inv taken
      | deliver expired => simpa [resent] using inv_deliver inv taken
      | message => exact inv_message inv taken
      | packet => exact absurd rfl packet
      | client => exact absurd rfl client
  | receive packet =>
      cases h
      exact inv_receive inv packet own
  | transfer inflight offline =>
      cases h
      refine ⟨inv.keyed, inv.window, fun m hm => inv.channel m ?_, inv.own⟩
      rcases List.mem_append.mp hm with old | new
      · exact old
      · simp [Window.transferred] at new

/-! ## Runs -/

/-- In every run in which a PUBACK names no entry of the window or one of QoS 1, a PUBREC is
successful and names one of QoS 2, and a PUBCOMP names no entry or one of QoS 2 that has had its
PUBREC: a QoS 1 message is reported only by a PUBACK with its id, a QoS 2 message only by a PUBCOMP
with its id that follows a successful PUBREC, no PUBREC changes a QoS 1 message, and a PUBREL is only
sent for a QoS 2 message that has had a successful PUBREC. -/
theorem acks_own_flow (version : Outbound.Version) (cap : NonZeroU16)
    (retryInterval expiryInterval : TimestampMillis) (toBack : Bool) (queueCap : Nat)
    {steps : List Step} {s : State}
    (own : Machine.Guarded step OwnEntry
      (initial version cap retryInterval expiryInterval toBack queueCap) steps)
    (ran : Machine.run step (initial version cap retryInterval expiryInterval toBack queueCap) steps =
      some s) :
    Each Own s.trace :=
  (Machine.invariant_guarded (fun _ a _ inv own h => inv_step a inv own h) own ran
    (inv_initial version cap retryInterval expiryInterval toBack queueCap)).own

/-- A QoS 2 publish, its PUBREC, a timeout, the PUBREL sent again, and its PUBCOMP. -/
def ownFlow : List Step :=
  [.arm (.forward Outbound.reading), .arm .message, .arm (.deliver false),
    .receive (.publishReceived Window.single none), .arm (.tick 20000), .arm (.timeout false),
    .arm .message, .receive (.publishComplete Window.single)]

theorem acks_own_flow_complete :
    ∃ s, Machine.run step (initial .v5 Window.single 20000 0 true 1000) ownFlow = some s ∧
      s.trace.length = 4 ∧ Each Own s.trace := by
  have own : Machine.Guarded step OwnEntry (initial .v5 Window.single 20000 0 true 1000) ownFlow := by
    decide
  exact ⟨_, rfl, rfl, acks_own_flow .v5 Window.single 20000 0 true 1000 own rfl⟩

/-- A QoS 1 publish with the id 1 is answered by a PUBREC and a PUBCOMP; a PUBREC comes for an id
that is not in the window; a QoS 2 publish with the id 2 is answered by a PUBREC that refuses it. -/
def foreign : List Step :=
  [.arm (.forward { Outbound.reading with qos := .atLeastOnce }), .arm .message,
    .arm (.deliver false), .receive (.publishReceived Window.single none),
    .receive (.publishComplete Window.single), .receive (.publishReceived Window.single none),
    .arm (.forward Outbound.reading), .arm .message, .arm (.deliver false),
    .receive (.publishReceived ⟨2, by decide⟩ (some .quotaExceeded))]

/-- The message of a QoS 1 publish with the id 1. -/
def foreignMessage (status : MomentStatus) : OutInflightMessage MsgId where
  publish := { Outbound.reading with qos := .atLeastOnce, packetId := some Window.single }
  origin := 0
  status := status
  updateTime := 0

/-- A PUBREC changes a QoS 1 message, a PUBCOMP completes it, and a PUBREL is sent for a QoS 1
message, for an id that is not in the window, and in answer to a PUBREC that refuses a message. -/
theorem foreign_acks :
    ∃ s, Machine.run step (initial .v5 Window.single 20000 0 true 1000) foreign = some s ∧
      ¬ Each Own s.trace ∧
      .updated (foreignMessage .unAck) (.publishReceived Window.single none) ∈ s.trace ∧
      .acked (foreignMessage .unComplete) (.publishComplete Window.single) ∈ s.trace ∧
      .released (.publishReceived Window.single none) none ∈ s.trace ∧
      ∃ m, .released (.publishReceived ⟨2, by decide⟩ (some .quotaExceeded)) (some m) ∈ s.trace := by
  refine ⟨_, rfl, fun each => ?_, by decide, by decide, by decide, _,
    List.mem_of_getLast? rfl⟩
  exact each [] _ _ rfl rfl

end Acks

end OxiMqtt.Session

import OxiMqtt.Codec.V5.Disconnect
import OxiMqtt.Router.Matches
import OxiMqtt.Session.Acks
import OxiMqtt.Session.Reconnect

/-!
# The packets of an online session

`process_mqtt_message` on every packet of a client, and the packet arm of the loop that calls it until
it returns an error.  The handler of DISCONNECT sets a flag and records the packet; its `return Err`
is commented out, so the loop goes on until the client closes the connection, and no other handler
looks at the flag or at what was recorded.  But a session that has recorded a DISCONNECT is not
`connected`, which the router asks for when it chooses a member of a shared group.

What `_publish`, the subscriptions and the sink answer comes from the outside, call by call; none of
it depends on what the router finds.

* `routings_unshared`: what the router finds for a client without shared subscriptions.
* `later_packets_unaffected`: what is done with the other packets does not depend on a DISCONNECT, and
  the last one is the one that is recorded.
* `effects_after_disconnect`: a publish and a second DISCONNECT after a first one.
-/

namespace OxiMqtt.Session.PacketLoop

open OxiMqtt.Codec (NonZeroU16 Publish)
open OxiMqtt.Router (Id NodeId ClientId TopicName DefaultRouter MatchEnv SubRelationsMap
  _matches_online)
open Acks (AckPacket)

/-! ## The state -/

/-- `Disconnect` of `types.rs` -/
inductive Disconnect : Type
  | v3
  | v5 (d : Codec.V5.Disconnect)
  deriving DecidableEq, Repr

/-- `DisconnectInfo`; a reason is the `ConnectDisconnect` of a packet. -/
structure DisconnectInfo : Type where
  disconnectedAt : TimestampMillis := 0
  reasons : List Disconnect := []
  mqttDisconnect : Option Disconnect := none
  deriving DecidableEq, Repr

/-- `DisconnectInfo::is_disconnected` -/
def DisconnectInfo.isDisconnected (i : DisconnectInfo) : Bool := i.disconnectedAt != 0

/-- `DefaultSession::disconnected_set`, for a packet. -/
def DisconnectInfo.disconnectedSet (i : DisconnectInfo) (now : TimestampMillis) (d : Disconnect) :
    DisconnectInfo where
  disconnectedAt := if i.isDisconnected then i.disconnectedAt else now
  reasons := i.reasons ++ [d]
  mqttDisconnect := some d

/-- The packets of a client.  `R` is the type of a SUBSCRIBE or UNSUBSCRIBE. -/
inductive Packet (R : Type) : Type
  | publish (m : Publish)
  | ack (packet : AckPacket)
  | subscribe (request : R)
  | unsubscribe (request : R)
  | pingRequest
  | disconnect (d : Disconnect)
  | auth
  | unimplemented (text : String)

/-- The replies that are not part of a publish flow. -/
inductive Reply (S : Type) : Type
  | subscribeAck (status : S)
  | unsubscribeAck (status : S)
  | pingResponse
  | auth

/-- A reason that ends the connection. -/
inductive Reason : Type
  | inbound (r : Inbound.Reason)
  | subscribeFailed (text : String)
  | unsubscribeFailed (text : String)
  | other (text : String)

/-- What the outside answers; `subs` is the type of the subscriptions of a session.  What a request
does to them, and whether it fails, is a parameter. -/
structure World (R S Subs : Type) : Type where
  io : Inbound.World
  subscribes : Subs → R → Except String S × Subs
  unsubscribes : Subs → R → Except String S × Subs

/-- What packets act on: the two sides of the session, the subscriptions, the replies, the calls of
`client_keepalive` and the flag `Ping`. -/
structure Effects (S Subs : Type) : Type where
  inbound : Inbound.State
  outbound : Acks.State
  subscriptions : Subs
  replies : List (Reply S) := []
  keepalives : List Bool := []
  ping : Bool := false

/-- An online session: the effects of its packets, the flag `DisconnectReceived`, what was recorded,
and the publishes that `_publish` has got, each with what `connected` said when it was routed. -/
structure State (S Subs : Type) : Type where
  effects : Effects S Subs
  disconnectReceived : Bool := false
  info : DisconnectInfo := {}
  routed : List (Publish × Bool) := []

/-- `DefaultSession::connected`, while the loop runs. -/
def State.connected {S Subs : Type} (s : State S Subs) : Bool := !s.info.isDisconnected

/-! ## The handlers -/

section Handlers

variable {R S Subs : Type} (world : World R S Subs)

/-- A packet of the inbound side. -/
def inboundPacket (e : Effects S Subs) (packet : Inbound.Packet) :
    Option Reason × Effects S Subs :=
  match Inbound.processPacket world.io packet e.inbound with
  | .ok _ inbound => (none, { e with inbound })
  | .error r inbound => (some (.inbound r), { e with inbound })

/-- A reply is written to the sink. -/
def reply (e : Effects S Subs) (r : Reply S) : Option Reason × Effects S Subs :=
  let e := { e with replies := e.replies ++ [r] }
  match world.io.send e.inbound.calls with
  | .ok _ => (none, { e with inbound := e.inbound.called })
  | .error r => (some (.inbound r), { e with inbound := e.inbound.called })

/-- PUBACK, PUBREC and PUBCOMP act on the window; a PUBREL is for the inbound side. -/
def ackPacket (e : Effects S Subs) (packet : AckPacket) : Option Reason × Effects S Subs :=
  let outbound : Acks.State :=
    { session := Acks.receive e.outbound.session packet
      trace := e.outbound.trace ++ Acks.events e.outbound.session.outInflight packet }
  match packet with
  | .publishRelease packetId => inboundPacket world e (.publishRelease packetId)
  | .publishReceived _ _ =>
      match world.io.send e.inbound.calls with
      | .ok _ => (none, { e with outbound, inbound := e.inbound.called })
      | .error r => (some (.inbound r), { e with outbound, inbound := e.inbound.called })
  | .publishAck _ => (none, { e with outbound })
  | .publishComplete _ => (none, { e with outbound })

/-- The end of `process_mqtt_message`: the keep-alive hook, with the flag `Ping`. -/
def keepalive (e : Effects S Subs) : Effects S Subs :=
  { e with keepalives := e.keepalives ++ [e.ping], ping := false }

/-- The handlers of the packets other than DISCONNECT. -/
def handle (e : Effects S Subs) : Packet R → Option Reason × Effects S Subs
  | .publish m => inboundPacket world e (.publish m)
  | .ack packet => ackPacket world e packet
  | .subscribe request =>
      match world.subscribes e.subscriptions request with
      | (.ok status, subscriptions) => reply world { e with subscriptions } (.subscribeAck status)
      | (.error text, subscriptions) => (some (.subscribeFailed text), { e with subscriptions })
  | .unsubscribe request =>
      match world.unsubscribes e.subscriptions request with
      | (.ok status, subscriptions) => reply world { e with subscriptions } (.unsubscribeAck status)
      | (.error text, subscriptions) => (some (.unsubscribeFailed text), { e with subscriptions })
  | .pingRequest =>
      match reply world e .pingResponse with
      | (none, e) => (none, { e with ping := true })
      | (some r, e) => (some r, e)
  | .auth => reply world e .auth
  | .disconnect _ => (none, e)
  | .unimplemented text => (some (.other ("Received an unimplemented message, " ++ text)), e)

/-- The publishes that `_publish` has got from a packet: those of QoS 2 stand in the log, and any other
is the packet's own, if a call was made. -/
def handedOver (before after : Effects S Subs) (packet : Packet R) : List Publish :=
  let own :=
    match packet with
    | .publish m =>
        if m.qos ≠ .exactlyOnce ∧ after.inbound.calls ≠ before.inbound.calls then [m] else []
    | _ => []
  own ++ (Inbound.handed (after.inbound.log.drop before.inbound.log.length)).map Prod.snd

/-- `SessionState::process_mqtt_message` at the time `now`.  DISCONNECT returns before the keep-alive
hook. -/
def processMqttMessage (s : State S Subs) (now : TimestampMillis) (packet : Packet R) :
    Option Reason × State S Subs :=
  match packet with
  | .disconnect d =>
      (none, { s with disconnectReceived := true, info := s.info.disconnectedSet now d })
  | packet =>
      let (ends, effects) := handle world s.effects packet
      let routed := s.routed ++ (handedOver s.effects effects packet).map (·, s.connected)
      match ends with
      | some r => (some r, { s with effects, routed })
      | none => (none, { s with effects := keepalive effects, routed })

/-- The packet arm of `run_loop`, on the packets of a connection with their times. -/
def runLoop (s : State S Subs) : List (TimestampMillis × Packet R) → Option Reason × State S Subs
  | [] => (none, s)
  | (now, packet) :: packets =>
      match processMqttMessage world s now packet with
      | (some r, s) => (some r, s)
      | (none, s) => runLoop s packets

end Handlers

/-! ## What the router finds -/

/-- What a publish is routed with: the router, what a match depends on beside it, and the topic name
that the aliases and the hooks make of its own. -/
structure Routing : Type where
  router : DefaultRouter
  env : MatchEnv
  topicOf : Publish → TopicName

/-- `is_online`, which asks the session itself for its own client. -/
def onlineAs (env : MatchEnv) (clientId : ClientId) (connected : Bool) (nodeId : NodeId)
    (c : ClientId) : Bool :=
  if c = clientId then connected else env.online nodeId c

/-- What the router finds for the publish of a client that is `connected` or not. -/
def Routing.matches (r : Routing) (thisId : Id) (p : Publish × Bool) :
    Except TopicError SubRelationsMap :=
  DefaultRouter._matches { r.env with online := onlineAs r.env thisId.clientId p.2 } thisId r.router
    (r.topicOf p.1)

/-- What the router finds for publishes, one after the other. -/
def routings (thisId : Id) (routing : Nat → Routing) (routed : List (Publish × Bool)) :
    List (Except TopicError SubRelationsMap) :=
  routed.zipIdx.map fun e => (routing e.2).matches thisId e.1

/-- For a client without shared subscriptions it does not matter whether it counts as connected. -/
theorem routings_unshared {thisId : Id} {routing : Nat → Routing}
    (unshared : ∀ n, (routing n).router.Unshared thisId.clientId) {ps ps' : List (Publish × Bool)}
    (same : ps.map Prod.fst = ps'.map Prod.fst) :
    routings thisId routing ps = routings thisId routing ps' := by
  have as : ∀ ps, routings thisId routing ps =
      (ps.map Prod.fst).zipIdx.map fun e => (routing e.2).matches thisId (e.1, true) := by
    intro ps
    rw [routings, List.zipIdx_map, List.map_map]
    apply List.map_congr_left
    intro e _
    apply _matches_online (unshared e.2)
    intro nodeId c other
    exact (if_neg other).trans (if_neg other).symm
  rw [as, as, same]

/-! ## DISCONNECT among other packets -/

section

variable {R S Subs : Type} {world : World R S Subs}

/-- The DISCONNECT packets, with their times. -/
def disconnectOf : TimestampMillis × Packet R → Option (TimestampMillis × Disconnect)
  | (now, .disconnect d) => some (now, d)
  | _ => none

/-- The packets that are no DISCONNECT. -/
def isOther : TimestampMillis × Packet R → Bool
  | (_, .disconnect _) => false
  | _ => true

theorem processMqttMessage_other {s : State S Subs} {now : TimestampMillis} {packet : Packet R}
    (other : isOther (now, packet) = true) :
    processMqttMessage world s now packet =
      let (ends, effects) := handle world s.effects packet
      let routed := s.routed ++ (handedOver s.effects effects packet).map (·, s.connected)
      match ends with
      | some r => (some r, { s with effects, routed })
      | none => (none, { s with effects := keepalive effects, routed }) := by
  cases packet with
  | disconnect d => cases other
  | _ => rfl

/-- What a packet that is no DISCONNECT does to the effects, which publishes `_publish` gets from it,
and whether it ends the connection depends on the effects alone; it leaves the flag and what was
recorded. -/
theorem processMqttMessage_effects (world : World R S Subs) {s t : State S Subs}
    (same : s.effects = t.effects) (routed : s.routed.map Prod.fst = t.routed.map Prod.fst)
    {now : TimestampMillis} {packet : Packet R} (other : isOther (now, packet) = true) :
    (processMqttMessage world s now packet).1 = (processMqttMessage world t now packet).1 ∧
      (processMqttMessage world s now packet).2.effects =
        (processMqttMessage world t now packet).2.effects ∧
      (processMqttMessage world s now packet).2.routed.map Prod.fst =
        (processMqttMessage world t now packet).2.routed.map Prod.fst ∧
      (processMqttMessage world s now packet).2.disconnectReceived = s.disconnectReceived ∧
      (processMqttMessage world s now packet).2.info = s.info := by
  rw [processMqttMessage_other other, processMqttMessage_other other, same]
  have publishes : ∀ ps : List Publish, (s.routed ++ ps.map (·, s.connected)).map Prod.fst =
      (t.routed ++ ps.map (·, t.connected)).map Prod.fst := by
    intro ps
    rw [List.map_append, List.map_append, routed, List.map_map, List.map_map]
    rfl
  rcases handle world t.effects packet with ⟨_ | r, effects⟩
  · exact ⟨rfl, rfl, publishes _, rfl, rfl⟩
  · exact ⟨rfl, rfl, publishes _, rfl, rfl⟩

/-- The packets that are processed: up to the one that ends the connection, if there is one. -/
def processed (world : World R S Subs) (s : State S Subs) :
    List (TimestampMillis × Packet R) → List (TimestampMillis × Packet R)
  | [] => []
  | (now, packet) :: packets =>
      match processMqttMessage world s now packet with
      | (some _, _) => [(now, packet)]
      | (none, s) => (now, packet) :: processed world s packets

/-- Several packets are recorded one after the other. -/
def DisconnectInfo.disconnectedSetAll (i : DisconnectInfo) (ds : List (TimestampMillis × Disconnect)) :
    DisconnectInfo :=
  ds.foldl (fun i d => i.disconnectedSet d.1 d.2) i

theorem runLoop_disconnect (s : State S Subs) (now : TimestampMillis) (d : Disconnect)
    (packets : List (TimestampMillis × Packet R)) :
    runLoop world s ((now, .disconnect d) :: packets) =
      runLoop world
        { s with disconnectReceived := true, info := s.info.disconnectedSet now d } packets := rfl

/-- A run on the other packets alone has the same effects and the same end. -/
theorem runLoop_filter (world : World R S Subs) (packets : List (TimestampMillis × Packet R)) :
    ∀ {s t : State S Subs}, s.effects = t.effects → s.routed.map Prod.fst = t.routed.map Prod.fst →
      (runLoop world s packets).1 = (runLoop world t (packets.filter isOther)).1 ∧
        (runLoop world s packets).2.effects =
          (runLoop world t (packets.filter isOther)).2.effects ∧
        (runLoop world s packets).2.routed.map Prod.fst =
          (runLoop world t (packets.filter isOther)).2.routed.map Prod.fst := by
  induction packets with
  | nil =>
    intro s t same publishes
    exact ⟨rfl, same, publishes⟩
  | cons p packets ih =>
    intro s t same publishes
    obtain ⟨now, packet⟩ := p
    cases other : isOther (now, packet) with
    | false =>
      cases packet with
      | disconnect d =>
        rw [runLoop_disconnect, List.filter_cons_of_neg (by simp [isOther])]
        apply ih
        · exact same
        · exact publishes
      | _ => cases other
    | true =>
      obtain ⟨ends, effects, routed, -, -⟩ :=
        processMqttMessage_effects world same publishes other
      rw [List.filter_cons_of_pos other, runLoop, runLoop]
      revert ends effects routed
      rcases processMqttMessage world s now packet with ⟨_ | r, s'⟩ <;>
        rcases processMqttMessage world t now packet with ⟨_ | r', t'⟩ <;>
        intro ends effects routed
      · exact ih effects routed
      · cases ends
      · cases ends
      · exact ⟨ends, effects, routed⟩

/-- What is recorded at the end comes from the DISCONNECT packets that were processed, in order. -/
theorem runLoop_recorded (world : World R S Subs) (packets : List (TimestampMillis × Packet R)) :
    ∀ s : State S Subs,
      (runLoop world s packets).2.info =
          s.info.disconnectedSetAll ((processed world s packets).filterMap disconnectOf) ∧
        (runLoop world s packets).2.disconnectReceived =
          (s.disconnectReceived || (processed world s packets).any (!isOther ·)) := by
  induction packets with
  | nil =>
    intro s
    simp [runLoop, processed, DisconnectInfo.disconnectedSetAll]
  | cons p packets ih =>
    intro s
    obtain ⟨now, packet⟩ := p
    cases other : isOther (now, packet) with
    | false =>
      cases packet with
      | disconnect d =>
        obtain ⟨info, received⟩ :=
          ih { s with disconnectReceived := true, info := s.info.disconnectedSet now d }
        rw [runLoop_disconnect, info, received]
        simp [processed, processMqttMessage, disconnectOf, isOther,
          DisconnectInfo.disconnectedSetAll]
      | _ => cases other
    | true =>
      have nothing : disconnectOf (now, packet) = none := by
        cases packet with
        | disconnect d => cases other
        | _ => rfl
      obtain ⟨-, -, -, received, info⟩ :=
        processMqttMessage_effects world (Eq.refl s.effects) rfl other
      rw [runLoop, processed]
      revert received info
      rcases processMqttMessage world s now packet with ⟨_ | r, s'⟩
      · intro received info
        simpa [nothing, other, ← received, ← info] using ih s'
      · intro received info
        simp [nothing, other, ← received, ← info, DisconnectInfo.disconnectedSetAll]

namespace DisconnectInfo

theorem disconnectedSetAll_cons (i : DisconnectInfo) (d : TimestampMillis × Disconnect)
    (ds : List (TimestampMillis × Disconnect)) :
    i.disconnectedSetAll (d :: ds) = (i.disconnectedSet d.1 d.2).disconnectedSetAll ds := rfl

/-- All packets stand in the reasons. -/
theorem disconnectedSetAll_reasons (ds : List (TimestampMillis × Disconnect)) :
    ∀ i : DisconnectInfo, (i.disconnectedSetAll ds).reasons = i.reasons ++ ds.map (·.2) := by
  induction ds with
  | nil => simp [disconnectedSetAll]
  | cons d ds ih =>
    intro i
    rw [disconnectedSetAll_cons, ih]
    simp [disconnectedSet]

/-- The last packet is the recorded one. -/
theorem disconnectedSetAll_mqttDisconnect (ds : List (TimestampMillis × Disconnect)) :
    ∀ i : DisconnectInfo,
      (i.disconnectedSetAll ds).mqttDisconnect =
        ((ds.map (·.2)).getLast?).or i.mqttDisconnect := by
  induction ds with
  | nil => simp [disconnectedSetAll]
  | cons d ds ih =>
    intro i
    rw [disconnectedSetAll_cons, ih, List.map_cons, List.getLast?_cons]
    cases (ds.map (·.2)).getLast? with
    | none => rfl
    | some e => rfl

/-- The time is the first one that was set. -/
theorem disconnectedSetAll_disconnectedAt (ds : List (TimestampMillis × Disconnect)) :
    ∀ i : DisconnectInfo,
      (i.disconnectedSetAll ds).disconnectedAt =
        ((i.disconnectedAt :: ds.map (·.1)).find? (· != 0)).getD 0 := by
  induction ds with
  | nil =>
    intro i
    by_cases zero : i.disconnectedAt = 0
    · simp [disconnectedSetAll, zero]
    · simp [disconnectedSetAll, zero]
  | cons d ds ih =>
    intro i
    rw [disconnectedSetAll_cons, ih]
    by_cases zero : i.disconnectedAt = 0
    · simp [disconnectedSet, isDisconnected, zero]
    · simp [disconnectedSet, isDisconnected, zero]

end DisconnectInfo

/-- A DISCONNECT sets the flag and is recorded.  The packets that follow it are processed as if it had
not been there, up to the one that ends the connection: with the same effects and the same publishes
for `_publish`, for which the router finds the same as long as the client has no shared subscription.
Of several, the last one is recorded, and the time of the first one is kept. -/
theorem later_packets_unaffected (world : World R S Subs) (s : State S Subs)
    (packets : List (TimestampMillis × Packet R)) :
    let ds := (processed world s packets).filterMap disconnectOf
    let final := (runLoop world s packets).2
    (runLoop world s packets).1 = (runLoop world s (packets.filter isOther)).1 ∧
      final.effects = (runLoop world s (packets.filter isOther)).2.effects ∧
      final.routed.map Prod.fst =
        (runLoop world s (packets.filter isOther)).2.routed.map Prod.fst ∧
      (∀ (thisId : Id) (routing : Nat → Routing),
        (∀ n, (routing n).router.Unshared thisId.clientId) →
          routings thisId routing final.routed =
            routings thisId routing (runLoop world s (packets.filter isOther)).2.routed) ∧
      final.disconnectReceived =
        (s.disconnectReceived || (processed world s packets).any (!isOther ·)) ∧
      final.info.mqttDisconnect = ((ds.map (·.2)).getLast?).or s.info.mqttDisconnect ∧
      final.info.reasons = s.info.reasons ++ ds.map (·.2) ∧
      final.info.disconnectedAt =
        ((s.info.disconnectedAt :: ds.map (·.1)).find? (· != 0)).getD 0 := by
  intro ds final
  obtain ⟨ends, effects, routed⟩ := runLoop_filter world packets (Eq.refl s.effects) rfl
  obtain ⟨info, received⟩ := runLoop_recorded world packets s
  apply And.intro ends
  apply And.intro effects
  apply And.intro routed
  apply And.intro fun thisId routing unshared => routings_unshared unshared routed
  apply And.intro received
  rw [show final.info = s.info.disconnectedSetAll ds from info]
  exact ⟨DisconnectInfo.disconnectedSetAll_mqttDisconnect ds s.info,
    DisconnectInfo.disconnectedSetAll_reasons ds s.info,
    DisconnectInfo.disconnectedSetAll_disconnectedAt ds s.info⟩

end

/-! ## A publish and a second DISCONNECT after the first -/

/-- An outside that routes every publish, accepts every request and takes every packet. -/
def willing : World Unit Unit Unit where
  io := Reconnect.accepting
  subscribes subscriptions _ := (.ok (), subscriptions)
  unsubscribes subscriptions _ := (.ok (), subscriptions)

/-- A session of MQTT 5.0 that has received nothing. -/
def untouched : State Unit Unit where
  effects :=
    { inbound := .new 16
      outbound := { session := Outbound.initial .v5 16 0 0 false 16 }
      subscriptions := () }

/-- A DISCONNECT that asks for this session expiry. -/
def expiring (secs : UInt32) : Disconnect :=
  .v5 { Codec.V5.Disconnect.new .normalDisconnection with sessionExpiryIntervalSecs := some secs }

/-- A QoS 2 publish that follows a DISCONNECT is handed over, and a second DISCONNECT replaces the
session expiry of the first. -/
theorem effects_after_disconnect :
    (¬ ∀ (world : World Unit Unit Unit) (s : State Unit Unit)
        (before after : List (TimestampMillis × Packet Unit)) (now : TimestampMillis)
        (d : Disconnect),
        (runLoop world s (before ++ (now, .disconnect d) :: after)).2.effects =
          (runLoop world s (before ++ [(now, .disconnect d)])).2.effects) ∧
      ¬ ∀ (world : World Unit Unit Unit) (s : State Unit Unit)
        (before after : List (TimestampMillis × Packet Unit)) (now : TimestampMillis)
        (d : Disconnect),
        (runLoop world s (before ++ (now, .disconnect d) :: after)).2.info =
          (runLoop world s (before ++ [(now, .disconnect d)])).2.info := by
  constructor
  · intro unchanged
    have same := unchanged willing untouched [] [(2, .publish (Reconnect.resent false))] 1
      (expiring 60)
    have logs := congrArg (fun e => e.inbound.log.length) same
    revert logs
    decide
  · intro unchanged
    have same := unchanged willing untouched [] [(2, .disconnect (expiring 0))] 1 (expiring 60)
    revert same
    decide

end OxiMqtt.Session.PacketLoop

import OxiMqtt.Bench.ClientPackets
import OxiMqtt.Bench.Qos2Inbound
import OxiMqtt.Bench.ServerPackets
import OxiMqtt.Lib.Conveyor
import OxiMqtt.Session.Arms
import OxiMqtt.Session.IdAllocation

/-!
# The broker delivers to the benchmark

The outbound side of a session of the broker and the client of the benchmark that it serves, with
the packets between them.  Either side reads what the other has sent in its order; when it does so
is open.

* `Exchanges`: each packet id in the window has one packet on its way.
* `Inv.progress`: something can be done while something is left to do.
* `received_exactly_once`: while no message is sent again, the client receives what the session was
  handed in its order and not twice, and all of it but what the session drops.
-/

namespace OxiMqtt.Bench.Subscriber

open Packets (classify)
open Codec (NonZeroU16)
open Session (OutInflight OutInflightMessage)
open Session.Outbound (MsgId Ack Message clientReceive deliverPolicy)
open Session.DeliverQueue (send)

/-! ## What the two read of each other -/

/-- What the client reads of a packet of the session. -/
def written (version : Version) : Session.Outbound.Packet → Option Packet
  | .publish _ p =>
      match version with
      | .v3 => fromV3 (.publish p)
      | .v5 => fromV5 (.publish p)
  | .publishRelease packetId reason =>
      match version with
      | .v3 => fromV3 (.publishRelease packetId)
      | .v5 => fromV5 (.publishRelease
          { packetId, reasonCode := reason.getD .success, properties := [], reasonString := none })

/-- What the session gets of an answer of the client from its codec. -/
def answer (version : Version) (p : Packet) : Option Ack :=
  match version with
  | .v3 =>
      match p.v3 with
      | some (.publishAck packetId) => some (.publishAck packetId)
      | some (.publishReceived packetId) => some (.publishReceived packetId)
      | some (.publishComplete packetId) => some (.publishComplete packetId)
      | _ => none
  | .v5 =>
      match p.v5 with
      | some (.publishAck ack) => some (.publishAck ack.packetId)
      | some (.publishReceived ack) => some (.publishReceived ack.packetId)
      | some (.publishComplete ack) => some (.publishComplete ack.packetId)
      | _ => none

/-- The message that a packet brings to the client. -/
def arrival : Session.Outbound.Packet → List (MsgId × Publish)
  | .publish msg p => [(msg, .ofBroker p)]
  | .publishRelease _ _ => []

/-! ## The two together -/

/-- The session with the two links, and the client; `handed` are the publishes that the session was
handed, by their number, `arrived` what the client received and `dropped` what the session gave up.
The receiver in `session` is not used. -/
structure State : Type where
  session : Session.Outbound.State
  flow : Flow
  awaitingRel : List UInt16 := []
  handed : List Codec.Publish := []
  arrived : List (MsgId × Publish) := []
  dropped : List MsgId := []

inductive Action : Type
  | session (a : Session.Outbound.Step)
  | clientReads (nowUs : UInt64)

/-- The publish that a step hands to the session. -/
def handedBy : Session.Outbound.Step → List Codec.Publish
  | .forward p => [{ p with dup := false, packetId := none }]
  | _ => []

/-- The messages that a step of the session drops: one that does not fit into the queue, and one
that has expired. -/
def droppedBy (s : Session.Outbound.State) : Session.Outbound.Step → List MsgId
  | .message =>
      match s.channel with
      | .forward msg p :: _ =>
          (send s.queueCap deliverPolicy s.queue (msg, p)).2.toList.map Prod.fst
      | _ => []
  | .deliver true => s.queue.head?.toList.map Prod.fst
  | _ => []

def step (ctx : Ctx) (s : State) : Action → Option State
  | .session .client => none
  | .session a =>
      (Session.Outbound.step s.session a).map fun session =>
        { s with
          session
          handed := s.handed ++ handedBy a
          dropped := s.dropped ++ droppedBy s.session a }
  | .clientReads nowUs =>
      match s.session.toClient with
      | [] => none
      | packet :: rest =>
          match written ctx.proto packet with
          | none => none
          | some pkt =>
              match onIncoming ctx nowUs { s.flow with pending := [] } s.awaitingRel
                  (classify pkt) with
              | .error _ => none
              | .ok (flow, awaitingRel) =>
                  some { s with
                    session := { s.session with
                      toClient := rest
                      toServer := s.session.toServer ++ flow.pending.filterMap (answer ctx.proto) }
                    flow
                    awaitingRel
                    arrived := s.arrived ++ arrival packet }

/-- The version that the session goes by. -/
def sessionVersion : Version → Session.Outbound.Version
  | .v3 => .v3
  | .v5 => .v5

/-- A connection at the start of `traffic`. -/
def init (ctx : Ctx) (cap : NonZeroU16) (retryInterval expiryInterval : Session.TimestampMillis)
    (toBack : Bool) (queueCap : Nat) (flow : Flow) : State where
  session := Session.Outbound.initial (sessionVersion ctx.proto) cap.val.toNat retryInterval
    expiryInterval toBack queueCap
  flow

/-- The message of a packet. -/
def messageOf : Session.Outbound.Packet → Option MsgId
  | .publish msg _ => some msg
  | .publishRelease _ _ => none

/-- The messages on their way to the client, and those in the queue and in the channel. -/
def underWay (s : Session.Outbound.State) : List MsgId :=
  s.toClient.filterMap messageOf ++
    (s.queue.map Prod.fst ++ (s.channel.filterMap Message.forwarded).map Prod.fst)

/-! ## What the client does with a packet -/

/-- A publish has a packet id exactly if it is to be acknowledged. -/
def Shaped : Session.Outbound.Packet → Prop
  | .publish _ p => p.packetId.isSome = true ↔ p.qos ≠ .atMostOnce
  | .publishRelease _ _ => True

/-- The packet id of the exchange that a packet belongs to. -/
def tokenOf : Session.Outbound.Packet → Option UInt16
  | .publish _ p => p.packetId.map (·.val)
  | .publishRelease packetId _ => some packetId.val

/-- The packet id of an answer. -/
def ackId : Ack → UInt16
  | .publishAck packetId | .publishReceived packetId | .publishComplete packetId => packetId.val

/-- The packet id of a PUBREC. -/
def recId : Ack → Option UInt16
  | .publishReceived packetId => some packetId.val
  | .publishAck _ | .publishComplete _ => none

theorem answer_ack (ctx : Ctx) (packetId : NonZeroU16) :
    answer ctx.proto (Packets.ack ctx .pubAck packetId.val) = some (.publishAck packetId) ∧
      answer ctx.proto (Packets.ack ctx .pubRec packetId.val) = some (.publishReceived packetId) ∧
      answer ctx.proto (Packets.ack ctx .pubComp packetId.val) =
        some (.publishComplete packetId) := by
  unfold answer
  cases ctx.proto with
  | v3 => simp [Packets.ack, Packet.v3, NonZeroU16.new_val]
  | v5 =>
      simp only [Packets.ack, Packet.v5, ackOf, NonZeroU16.new_val, Option.bind_eq_bind,
        Option.bind_some, Option.pure_def]
      exact ⟨rfl, rfl, rfl⟩

/-- The packet id of a QoS 2 publish. -/
def publish2Id : Session.Outbound.Packet → Option UInt16
  | .publish _ p => if p.qos = .exactlyOnce then p.packetId.map (·.val) else none
  | .publishRelease _ _ => none

/-- The packet id of a PUBREL. -/
def relId : Session.Outbound.Packet → Option UInt16
  | .publish _ _ => none
  | .publishRelease packetId _ => some packetId.val

theorem relId_publish {msg : MsgId} {p : Codec.Publish} (pid : UInt16) :
    relId (.publish msg p) ≠ some pid := (Option.some_ne_none pid).symm

/-- What the client does with a packet: its answers are those of a conformant receiver, and it
remembers the packet ids that were received and not released. -/
structure Took (ctx : Ctx) (f : Flow) (awaitingRel : List UInt16)
    (packet : Session.Outbound.Packet) (f' : Flow) (awaitingRel' : List UInt16) : Prop where
  answers : ∀ r, f'.pending.filterMap (answer ctx.proto) = (clientReceive r packet).2
  recvs : f'.stats.recvs = f.stats.recvs + (arrival packet).length
  dups : (∀ pid, publish2Id packet = some pid → pid ∉ awaitingRel) → f'.stats.dups = f.stats.dups
  distinct : awaitingRel'.Nodup
  remembered : ∀ pid, pid ∈ awaitingRel' ↔
    pid ∈ awaitingRel ∧ relId packet ≠ some pid ∨ publish2Id packet = some pid

theorem arrived_recvs (stats : Stats) (nowUs : UInt64) (payload : Wire.Bytes) (retain : Bool) :
    (stats.arrived nowUs payload retain).recvs = stats.recvs + 1 := by
  unfold Stats.arrived
  split
  · rfl
  · rfl

theorem written_publish (version : Version) (msg : MsgId) (p : Codec.Publish) :
    written version (.publish msg p) = some (.publish (.ofBroker p)) := by
  cases version <;> rfl

theorem written_publishRelease (version : Version) (packetId : NonZeroU16)
    (reason : Option Codec.V5.PublishAck2Reason) :
    ∃ code, written version (.publishRelease packetId reason) =
      some (.pubRel packetId.val code) := by
  cases version <;> exact ⟨_, rfl⟩

theorem took_publish (ctx : Ctx) (nowUs : UInt64) (f : Flow) {awaitingRel : List UInt16}
    (distinct : awaitingRel.Nodup) {msg : MsgId} {p : Codec.Publish}
    (shaped : Shaped (.publish msg p)) :
    ∃ f' awaitingRel', onIncoming ctx nowUs { f with pending := [] } awaitingRel
        (classify (.publish (.ofBroker p))) = .ok (f', awaitingRel') ∧
      Took ctx f awaitingRel (.publish msg p) f' awaitingRel' := by
  have recvs := arrived_recvs f.stats nowUs p.payload p.retain
  have dups := Qos2Inbound.arrived_dups f.stats nowUs p.payload p.retain
  unfold classify onIncoming
  dsimp only [Publish.ofBroker]
  cases level : p.qos with
  | atMostOnce =>
      have silent : publish2Id (.publish msg p) = none := by
        rw [publish2Id, level]
        rfl
      refine ⟨_, _, rfl, ?_, recvs, fun _ => dups, distinct, fun pid => ?_⟩
      · intro r
        rw [clientReceive, level]
        rfl
      · rw [silent]
        exact ⟨fun old => .inl ⟨old, relId_publish pid⟩,
          fun h => h.elim And.left fun same => absurd same (Option.some_ne_none pid).symm⟩
  | atLeastOnce =>
      obtain ⟨packetId, id⟩ := Option.isSome_iff_exists.mp
        (shaped.mpr (by rw [level]; decide))
      have silent : publish2Id (.publish msg p) = none := by
        rw [publish2Id, level]
        rfl
      refine ⟨_, _, rfl, ?_, recvs, fun _ => dups, distinct, fun pid => ?_⟩
      · intro r
        rw [clientReceive, level, id]
        exact List.filterMap_cons_some (answer_ack ctx packetId).1
      · rw [silent]
        exact ⟨fun old => .inl ⟨old, relId_publish pid⟩,
          fun h => h.elim And.left fun same => absurd same (Option.some_ne_none pid).symm⟩
  | exactlyOnce =>
      obtain ⟨packetId, id⟩ := Option.isSome_iff_exists.mp
        (shaped.mpr (by rw [level]; decide))
      have known : publish2Id (.publish msg p) = some packetId.val := by
        rw [publish2Id, if_pos level, id]
        rfl
      have answers : ∀ r, [Packets.ack ctx .pubRec packetId.val].filterMap (answer ctx.proto) =
          (clientReceive r (.publish msg p)).2 := by
        intro r
        rw [clientReceive, level, id]
        exact List.filterMap_cons_some (answer_ack ctx packetId).2.1
      rw [id]
      by_cases old : packetId.val ∈ awaitingRel
      · refine ⟨_, _, if_pos old, answers, recvs, fun fresh => absurd old (fresh _ known),
          distinct, fun pid => ?_⟩
        rw [known]
        refine ⟨fun member => .inl ⟨member, relId_publish pid⟩,
          fun h => h.elim And.left fun same => ?_⟩
        cases same
        exact old
      · refine ⟨_, _, if_neg old, answers, recvs, fun _ => dups, ?_, fun pid => ?_⟩
        · exact List.concat_eq_append ▸ distinct.concat old
        · rw [known, List.mem_append, List.mem_singleton, Option.some_inj, eq_comm (a := pid)]
          exact or_congr_left ⟨fun member => ⟨member, relId_publish pid⟩, And.left⟩

theorem took_publishRelease (ctx : Ctx) (nowUs : UInt64) (f : Flow) {awaitingRel : List UInt16}
    (distinct : awaitingRel.Nodup) (packetId : NonZeroU16)
    (reason : Option Codec.V5.PublishAck2Reason) (code : UInt8) :
    ∃ f' awaitingRel', onIncoming ctx nowUs { f with pending := [] } awaitingRel
        (classify (.pubRel packetId.val code)) = .ok (f', awaitingRel') ∧
      Took ctx f awaitingRel (.publishRelease packetId reason) f' awaitingRel' := by
  have told : Qos2Inbound.Answered ctx ⟨.pubRel packetId.val,
      [Packets.ack ctx .pubComp packetId.val], false, awaitingRel, _⟩ :=
    .of_pubRel distinct (List.mem_singleton_self _)
  refine ⟨_, _, rfl, fun r => ?_, rfl, fun _ => rfl, told.distinct, fun pid => ?_⟩
  · exact List.filterMap_cons_some (answer_ack ctx packetId).2.2
  · exact (told.owing pid).trans Qos2Inbound.mem_owing

/-- The client takes every packet of the session. -/
theorem took (ctx : Ctx) (nowUs : UInt64) (f : Flow) {awaitingRel : List UInt16}
    (distinct : awaitingRel.Nodup) {packet : Session.Outbound.Packet} (shaped : Shaped packet) :
    ∃ pkt f' awaitingRel', written ctx.proto packet = some pkt ∧
      onIncoming ctx nowUs { f with pending := [] } awaitingRel (classify pkt) =
        .ok (f', awaitingRel') ∧
      Took ctx f awaitingRel packet f' awaitingRel' := by
  cases packet with
  | publish msg p =>
      obtain ⟨f', awaitingRel', ok, took⟩ := took_publish ctx nowUs f distinct shaped
      exact ⟨_, f', awaitingRel', written_publish ctx.proto msg p, ok, took⟩
  | publishRelease packetId reason =>
      obtain ⟨code, said⟩ := written_publishRelease ctx.proto packetId reason
      obtain ⟨f', awaitingRel', ok, took⟩ :=
        took_publishRelease ctx nowUs f distinct packetId reason code
      exact ⟨_, f', awaitingRel', said, ok, took⟩

/-! ## The exchanges -/

/-- The packet ids on their way. -/
def tokens (toClient : List Session.Outbound.Packet) (toServer : List Ack) : List UInt16 :=
  toClient.filterMap tokenOf ++ toServer.map ackId

/-- The packet ids that were received and that are not released. -/
def opened (toClient : List Session.Outbound.Packet) (toServer : List Ack) : List UInt16 :=
  toServer.filterMap recId ++ toClient.filterMap relId

/-- Each packet id of the window is on its way once; the client remembers those that it has received
and whose PUBREL it has not read. -/
structure Exchanges (keys : List UInt16) (toClient : List Session.Outbound.Packet)
    (toServer : List Ack) (awaitingRel : List UInt16) : Prop where
  distinct : keys.Nodup
  onWay : (tokens toClient toServer).Perm keys
  shaped : ∀ packet ∈ toClient, Shaped packet
  remembered : ∀ pid, pid ∈ awaitingRel ↔ pid ∈ opened toClient toServer
  nodup : awaitingRel.Nodup

section

variable {keys : List UInt16} {toClient : List Session.Outbound.Packet} {toServer : List Ack}
  {awaitingRel : List UInt16}

theorem token_of_relId {packet : Session.Outbound.Packet} {pid : UInt16}
    (h : relId packet = some pid) : tokenOf packet = some pid := by
  cases packet with
  | publish msg p => cases h
  | publishRelease packetId reason => exact h

theorem token_of_publish2Id {packet : Session.Outbound.Packet} {pid : UInt16}
    (h : publish2Id packet = some pid) : tokenOf packet = some pid := by
  cases packet with
  | publish msg p => exact (Option.ite_none_right_eq_some.mp h).2
  | publishRelease packetId reason => cases h

theorem ackId_of_recId {ack : Ack} {pid : UInt16} (h : recId ack = some pid) :
    ackId ack = pid := by
  cases ack with
  | publishReceived packetId => exact Option.some.inj h
  | publishAck packetId => cases h
  | publishComplete packetId => cases h

/-- What was received and is not released is on its way. -/
theorem mem_tokens_of_opened {pid : UInt16} (h : pid ∈ opened toClient toServer) :
    pid ∈ tokens toClient toServer := by
  rcases List.mem_append.mp h with recs | rels
  · obtain ⟨ack, member, rec⟩ := List.mem_filterMap.mp recs
    exact List.mem_append_right _ (List.mem_map.mpr ⟨ack, member, ackId_of_recId rec⟩)
  · obtain ⟨packet, member, rel⟩ := List.mem_filterMap.mp rels
    exact List.mem_append_left _ (List.mem_filterMap.mpr ⟨packet, member, token_of_relId rel⟩)

/-- The packet id of the packet that is read next is not on its way elsewhere. -/
theorem Exchanges.alone {packet : Session.Outbound.Packet}
    (h : Exchanges keys (packet :: toClient) toServer awaitingRel) {pid : UInt16}
    (token : tokenOf packet = some pid) : pid ∉ tokens toClient toServer := by
  have nodup := h.onWay.nodup_iff.mpr h.distinct
  rw [tokens, List.filterMap_cons_some token, List.cons_append] at nodup
  exact (List.nodup_cons.mp nodup).1

/-- A QoS 2 publish that is read is not a duplicate. -/
theorem Exchanges.unknown {packet : Session.Outbound.Packet}
    (h : Exchanges keys (packet :: toClient) toServer awaitingRel) {pid : UInt16}
    (publish : publish2Id packet = some pid) : pid ∉ awaitingRel := by
  intro known
  have open_ := (h.remembered pid).mp known
  have none_ : relId packet = none := by
    cases packet with
    | publish msg p => rfl
    | publishRelease packetId reason => cases publish
  rw [opened, List.filterMap_cons_none none_] at open_
  exact h.alone (token_of_publish2Id publish) (mem_tokens_of_opened open_)

/-- A publish is sent, under a packet id that is not in the window. -/
theorem Exchanges.publish (h : Exchanges keys toClient toServer awaitingRel) {msg : MsgId}
    {p : Codec.Publish} (shaped : Shaped (.publish msg p)) {keys' : List UInt16}
    (fresh : ∀ pid, tokenOf (.publish msg p) = some pid → pid ∉ keys)
    (grown : keys'.Perm ((tokenOf (.publish msg p)).toList ++ keys)) :
    Exchanges keys' (toClient ++ [.publish msg p]) toServer awaitingRel where
  distinct := by
    rw [grown.nodup_iff]
    cases token : tokenOf (.publish msg p) with
    | none => exact h.distinct
    | some pid => exact List.nodup_cons.mpr ⟨fresh pid token, h.distinct⟩
  onWay := by
    refine List.Perm.trans ?_ grown.symm
    refine List.Perm.trans ?_ (h.onWay.append_left _)
    rw [tokens, List.filterMap_append, List.append_assoc]
    have one : [Session.Outbound.Packet.publish msg p].filterMap tokenOf =
        (tokenOf (.publish msg p)).toList := by
      rw [List.filterMap_cons]
      cases tokenOf (.publish msg p) <;> rfl
    rw [one]
    exact List.perm_append_comm_assoc _ _ _
  shaped := List.forall_mem_append.mpr ⟨h.shaped, List.forall_mem_singleton.mpr shaped⟩
  remembered pid := by
    rw [h.remembered, opened, opened, List.filterMap_append]
    change _ ↔ pid ∈ toServer.filterMap recId ++ (toClient.filterMap relId ++ [])
    rw [List.append_nil]
  nodup := h.nodup

/-- A PUBACK or a PUBCOMP takes the packet id out of the window. -/
theorem Exchanges.complete {ack : Ack} (h : Exchanges keys toClient (ack :: toServer) awaitingRel)
    (final : recId ack = none) :
    Exchanges (keys.filter (· ≠ ackId ack)) toClient toServer awaitingRel where
  distinct := h.distinct.filter _
  onWay := by
    have first : (ackId ack :: tokens toClient toServer).Perm keys :=
      List.perm_middle.symm.trans h.onWay
    have erased := first.erase (ackId ack)
    rw [List.erase_cons_head, h.distinct.erase_eq_filter] at erased
    refine erased.trans (List.Perm.of_eq (List.filter_congr fun pid _ => ?_))
    by_cases same : pid = ackId ack <;> simp [same]
  shaped := h.shaped
  remembered pid := by
    rw [h.remembered, opened, List.filterMap_cons_none final]
    rfl
  nodup := h.nodup

/-- A PUBREC is answered by a PUBREL. -/
theorem Exchanges.release {packetId : NonZeroU16}
    (h : Exchanges keys toClient (.publishReceived packetId :: toServer) awaitingRel)
    (reason : Option Codec.V5.PublishAck2Reason) :
    Exchanges keys (toClient ++ [.publishRelease packetId reason]) toServer awaitingRel where
  distinct := h.distinct
  onWay := by
    refine List.Perm.trans ?_ h.onWay
    rw [tokens, List.filterMap_append, List.append_assoc]
    rfl
  shaped := List.forall_mem_append.mpr ⟨h.shaped, List.forall_mem_singleton.mpr trivial⟩
  remembered pid := by
    rw [h.remembered, opened, opened, List.filterMap_append]
    simp only [List.mem_append, List.filterMap_cons, recId, relId, List.filterMap_nil,
      List.mem_cons, List.not_mem_nil]
    tauto
  nodup := h.nodup

/-- The answers to a packet. -/
theorem clientReceive_answers {packet : Session.Outbound.Packet} (shaped : Shaped packet)
    (r : AtMostOnce.Receiver MsgId NonZeroU16) :
    (clientReceive r packet).2.map ackId = (tokenOf packet).toList ∧
      (clientReceive r packet).2.filterMap recId = (publish2Id packet).toList := by
  cases packet with
  | publishRelease packetId reason => exact ⟨rfl, rfl⟩
  | publish msg p =>
      rw [clientReceive, tokenOf, publish2Id]
      cases level : p.qos with
      | atMostOnce =>
          have unnumbered : p.packetId = none := by
            refine Option.not_isSome_iff_eq_none.mp fun numbered => ?_
            exact shaped.mp numbered level
          rw [unnumbered]
          exact ⟨rfl, rfl⟩
      | atLeastOnce =>
          obtain ⟨packetId, id⟩ := Option.isSome_iff_exists.mp
            (shaped.mpr (by rw [level]; decide))
          rw [id]
          exact ⟨rfl, rfl⟩
      | exactlyOnce =>
          obtain ⟨packetId, id⟩ := Option.isSome_iff_exists.mp
            (shaped.mpr (by rw [level]; decide))
          rw [id]
          exact ⟨rfl, rfl⟩

/-- The client reads a packet and answers it. -/
theorem Exchanges.read {packet : Session.Outbound.Packet}
    (h : Exchanges keys (packet :: toClient) toServer awaitingRel) {ctx : Ctx} {f f' : Flow}
    {awaitingRel' : List UInt16} (took : Took ctx f awaitingRel packet f' awaitingRel')
    (r : AtMostOnce.Receiver MsgId NonZeroU16) :
    Exchanges keys toClient (toServer ++ (clientReceive r packet).2) awaitingRel' where
  distinct := h.distinct
  onWay := by
    obtain ⟨acks, -⟩ := clientReceive_answers (h.shaped packet List.mem_cons_self) r
    refine List.Perm.trans ?_ h.onWay
    have first : tokens (packet :: toClient) toServer =
        (tokenOf packet).toList ++ tokens toClient toServer := by
      rw [tokens, List.filterMap_cons]
      cases tokenOf packet <;> rfl
    rw [first, tokens, List.map_append, acks, ← List.append_assoc]
    exact List.perm_append_comm
  shaped packet' member := h.shaped packet' (List.mem_cons_of_mem _ member)
  remembered pid := by
    obtain ⟨-, recs⟩ := clientReceive_answers (h.shaped packet List.mem_cons_self) r
    have first : pid ∈ opened (packet :: toClient) toServer ↔
        relId packet = some pid ∨ pid ∈ opened toClient toServer := by
      rw [opened, opened, List.filterMap_cons]
      cases relId packet <;> simp only [List.mem_append, List.mem_cons, Option.some_inj] <;> tauto
    have other : pid ∈ opened toClient toServer → relId packet ≠ some pid := fun open_ rel =>
      h.alone (token_of_relId rel) (mem_tokens_of_opened open_)
    have later : pid ∈ opened toClient (toServer ++ (clientReceive r packet).2) ↔
        pid ∈ opened toClient toServer ∨ publish2Id packet = some pid := by
      rw [opened, opened, List.filterMap_append, recs]
      simp only [List.mem_append, Option.mem_toList]
      tauto
    rw [took.remembered, h.remembered, first, later]
    tauto
  nodup := took.distinct

end

/-! ## The steps -/

/-- The invariant of a run, `start` being the counters at its start. -/
structure Inv (start : Stats) (s : State) : Prop where
  exchanges : Exchanges (s.session.outInflight.queues.map Prod.fst) s.session.toClient
    s.session.toServer s.awaitingRel
  forwards : ∀ m ∈ s.session.channel, ∃ item, Message.forwarded m = some item
  queued : s.session.queue.length ≤ s.session.queueCap
  numbered : s.session.handed = s.handed.length
  unsent : ∀ p ∈ s.handed, p.dup = false ∧ p.packetId = none
  waiting : ∀ item ∈ Session.Outbound.waiting s.session, s.handed[item.1]? = some item.2
  sent : ∀ msg p, .publish msg p ∈ s.session.toClient →
    ∃ q, s.handed[msg]? = some q ∧ p = { q with packetId := p.packetId }
  received : ∀ e ∈ s.arrived, ∃ q packetId, s.handed[e.1]? = some q ∧
    e.2 = .ofBroker { q with packetId }
  carried : Conveyor.Carried s.handed.length (s.arrived.map Prod.fst ++ underWay s.session)
    s.dropped
  recvs : s.flow.stats.recvs = start.recvs + s.arrived.length
  dups : s.flow.stats.dups = start.dups

section

variable {ctx : Ctx} {start : Stats} {s : State} {session : Session.Outbound.State}

/-- A publish that was not sent before gets a packet id that is not in the window. -/
theorem assigned_fresh {w w' : OutInflight MsgId} {p p' : Codec.Publish} (dup : p.dup = false)
    (packetId : p.packetId = none) (h : Session.Outbound.assignPacketId w p = some (p', w'))
    (msg : MsgId) :
    w'.queues = w.queues ∧ p' = { p with packetId := p'.packetId } ∧ Shaped (.publish msg p') ∧
      ∀ pid, tokenOf (.publish msg p') = some pid → pid ∉ w.queues.map Prod.fst := by
  rcases Session.Outbound.assignPacketId_cases h with ⟨rfl, rfl, kept⟩ |
    ⟨packetId', rfl, queues, absent, acked, -⟩
  · have zero : p'.qos = .atMostOnce := by
      refine kept.resolve_right fun again => ?_
      rw [dup] at again
      cases again.1
    refine ⟨rfl, rfl, ?_, fun pid token => ?_⟩
    · rw [Shaped, packetId, zero]
      exact ⟨fun numbered => absurd numbered Bool.false_ne_true, fun acked => absurd rfl acked⟩
    · rw [tokenOf, packetId] at token
      cases token
  · refine ⟨queues, rfl, ⟨fun _ => acked, fun _ => rfl⟩, fun pid token member => ?_⟩
    cases token
    obtain ⟨e, held, key⟩ := List.mem_map.mp member
    have exist : w.exist packetId'.val = true :=
      List.any_eq_true.mpr ⟨e, held, beq_iff_eq.mpr key⟩
    rw [exist] at absent
    cases absent

/-- The packet id of a publish that is sent comes into the window. -/
theorem keys_sentWindow {w : OutInflight MsgId} {msg : MsgId} {p : Codec.Publish}
    (keys : (w.queues.map Prod.fst).Nodup) (shaped : Shaped (.publish msg p))
    (fresh : ∀ pid, tokenOf (.publish msg p) = some pid → pid ∉ w.queues.map Prod.fst)
    (now : Session.TimestampMillis) :
    ((Session.Outbound.sentWindow w msg p now).queues.map Prod.fst).Perm
      ((tokenOf (.publish msg p)).toList ++ w.queues.map Prod.fst) := by
  have pushed : ∀ m : OutInflightMessage MsgId, m.publish = p → p.qos ≠ .atMostOnce →
      ((w.pushBack m).1.queues.map Prod.fst).Perm
        ((tokenOf (.publish msg p)).toList ++ w.queues.map Prod.fst) := by
    intro m same acked
    obtain ⟨packetId, id⟩ := Option.isSome_iff_exists.mp (shaped.mpr acked)
    have token : tokenOf (.publish msg p) = some packetId.val := by
      rw [tokenOf, id]
      rfl
    have absent : (w.queues.find? fun e => e.1 == packetId.val) = none := by
      refine List.find?_eq_none.mpr fun e held key => fresh _ token ?_
      exact List.mem_map.mpr ⟨e, held, beq_iff_eq.mp key⟩
    have perm := (OutInflight.insertEntry_perm keys packetId.val m).map Prod.fst
    rw [absent] at perm
    rw [token, OutInflight.pushBack, same, id]
    exact perm
  unfold Session.Outbound.sentWindow
  cases level : p.qos with
  | atMostOnce =>
      have unnumbered : p.packetId = none :=
        Option.not_isSome_iff_eq_none.mp fun numbered => shaped.mp numbered level
      rw [tokenOf, unnumbered]
      exact List.Perm.refl _
  | atLeastOnce => exact pushed _ rfl (by rw [level]; decide)
  | exactlyOnce => exact pushed _ rfl (by rw [level]; decide)

/-- A publish keeps its number. -/
theorem handed_append {handed : List Codec.Publish} {m : MsgId} {q : Codec.Publish}
    (known : handed[m]? = some q) (more : List Codec.Publish) :
    (handed ++ more)[m]? = some q :=
  (List.getElem?_append_left (List.getElem?_eq_some_iff.mp known).1).trans known

theorem underWay_forward (session : Session.Outbound.State) (p : Codec.Publish) :
    underWay { session with
      channel := session.channel ++ [.forward session.handed p]
      handed := session.handed + 1 } = underWay session ++ [session.handed] := by
  rw [underWay, underWay, List.filterMap_append, List.map_append]
  simp only [List.append_assoc]
  rfl

theorem Inv.forward (inv : Inv start s) (p : Codec.Publish) :
    Inv start { s with
      session := { s.session with
        channel := s.session.channel ++
          [.forward s.session.handed { p with dup := false, packetId := none }]
        handed := s.session.handed + 1 }
      handed := s.handed ++ [{ p with dup := false, packetId := none }] } where
  exchanges := inv.exchanges
  forwards := List.forall_mem_append.mpr
    ⟨inv.forwards, List.forall_mem_singleton.mpr ⟨_, rfl⟩⟩
  queued := inv.queued
  numbered := by rw [List.length_append, inv.numbered, List.length_singleton]
  unsent := List.forall_mem_append.mpr
    ⟨inv.unsent, List.forall_mem_singleton.mpr ⟨rfl, rfl⟩⟩
  waiting item member := by
    rw [Session.Outbound.waiting, List.filterMap_append] at member
    rcases List.mem_append.mp member with channel | queue
    · rcases List.mem_append.mp channel with old | new
      · exact handed_append (inv.waiting item (List.mem_append_left _ old)) _
      · cases List.mem_singleton.mp new
        change (s.handed ++ _)[s.session.handed]? = _
        rw [inv.numbered, List.getElem?_concat_length]
    · exact handed_append (inv.waiting item (List.mem_append_right _ queue)) _
  sent msg p' member := by
    obtain ⟨q, known, same⟩ := inv.sent msg p' member
    exact ⟨q, handed_append known _, same⟩
  received e member := by
    obtain ⟨q, packetId, known, same⟩ := inv.received e member
    exact ⟨q, packetId, handed_append known _, same⟩
  carried := by
    have put := inv.carried.put
    rw [← inv.numbered, List.append_assoc,
      ← underWay_forward s.session { p with dup := false, packetId := none }] at put
    rw [List.length_append, List.length_singleton, ← inv.numbered]
    exact put
  recvs := inv.recvs
  dups := inv.dups

/-- What is left when the first message is taken from the queue. -/
theorem Inv.dequeued (inv : Inv start s) {item : MsgId × Codec.Publish}
    {queue : List (MsgId × Codec.Publish)} (head : s.session.queue = item :: queue) :
    queue.length ≤ s.session.queueCap ∧
      ∀ later ∈ s.session.channel.filterMap Message.forwarded ++ queue,
        s.handed[later.1]? = some later.2 := by
  constructor
  · have queued := inv.queued
    rw [head, List.length_cons] at queued
    exact Nat.le_of_succ_le queued
  · intro later member
    refine inv.waiting later ?_
    rw [Session.Outbound.waiting, head]
    exact ((List.sublist_cons_self item queue).append_left _).subset member

/-- An expired publish is dropped. -/
theorem Inv.expired (inv : Inv start s) {msg : MsgId} {p : Codec.Publish}
    {queue : List (MsgId × Codec.Publish)} (head : s.session.queue = (msg, p) :: queue) :
    Inv start { s with
      session := { s.session with queue }
      dropped := s.dropped ++ [msg] } where
  exchanges := inv.exchanges
  forwards := inv.forwards
  queued := (inv.dequeued head).1
  numbered := inv.numbered
  unsent := inv.unsent
  waiting := (inv.dequeued head).2
  sent := inv.sent
  received := inv.received
  carried := by
    have carried := inv.carried
    rw [underWay, head, List.map_cons, List.cons_append, ← List.append_assoc] at carried
    refine carried.take ?_ ?_
    · rw [underWay, ← List.append_assoc]
      exact (List.sublist_cons_self _ _).append_left _
    · rw [underWay, List.singleton_append, ← List.append_assoc]
      exact List.perm_middle.symm
  recvs := inv.recvs
  dups := inv.dups

/-- A publish is sent. -/
theorem Inv.delivered (inv : Inv start s) {msg : MsgId} {p p' : Codec.Publish}
    {queue : List (MsgId × Codec.Publish)} {w : OutInflight MsgId}
    (head : s.session.queue = (msg, p) :: queue)
    (assigned : Session.Outbound.assignPacketId s.session.outInflight p = some (p', w)) :
    Inv start { s with
      session := { s.session with
        queue
        toClient := s.session.toClient ++ [.publish msg p']
        outInflight := Session.Outbound.sentWindow w msg p' s.session.clock } } := by
  have waits : (msg, p) ∈ Session.Outbound.waiting s.session := by
    rw [Session.Outbound.waiting, head]
    exact List.mem_append_right _ List.mem_cons_self
  have known : s.handed[msg]? = some p := inv.waiting _ waits
  obtain ⟨dup, packetId⟩ := inv.unsent p (List.mem_of_getElem? known)
  obtain ⟨same, content, shaped, fresh⟩ := assigned_fresh dup packetId assigned msg
  constructor
  case exchanges =>
    refine inv.exchanges.publish shaped fresh ?_
    rw [← same]
    refine keys_sentWindow ?_ shaped ?_ _
    · rw [same]
      exact inv.exchanges.distinct
    · rw [same]
      exact fresh
  case queued => exact (inv.dequeued head).1
  case waiting => exact (inv.dequeued head).2
  case sent =>
    intro msg' q member
    rcases List.mem_append.mp member with old | new
    · exact inv.sent msg' q old
    · cases List.mem_singleton.mp new
      exact ⟨p, known, content⟩
  case carried =>
    have carried := inv.carried
    rw [underWay, head] at carried
    rw [underWay, List.filterMap_append, List.append_assoc (s.session.toClient.filterMap messageOf)]
    exact carried
  exact inv.forwards
  exact inv.numbered
  exact inv.unsent
  exact inv.received
  exact inv.recvs
  exact inv.dups

/-- A publish comes into the queue, or one is dropped. -/
theorem Inv.message (inv : Inv start s) {msg : MsgId} {p : Codec.Publish} {channel : List Message}
    (head : s.session.channel = .forward msg p :: channel) :
    let r := send s.session.queueCap deliverPolicy s.session.queue (msg, p)
    Inv start { s with
      session := { s.session with channel, queue := r.1 }
      dropped := s.dropped ++ r.2.toList.map Prod.fst } := by
  intro r
  obtain ⟨perm, bound⟩ :=
    Session.DeliverQueue.send_perm deliverPolicy (msg, p) inv.queued
  have sublist := Session.DeliverQueue.send_sublist s.session.queueCap deliverPolicy
    s.session.queue (msg, p)
  constructor
  case forwards =>
    have forwards := inv.forwards
    rw [head] at forwards
    exact fun m member => forwards m (List.mem_cons_of_mem _ member)
  case queued => exact bound
  case waiting =>
    intro item member
    refine inv.waiting item ?_
    rw [Session.Outbound.waiting, head]
    rcases List.mem_append.mp member with later | queue
    · exact List.mem_append_left _ (List.mem_cons_of_mem _ later)
    · rcases Session.Outbound.mem_queue_send queue with rfl | old
      · exact List.mem_append_left _ List.mem_cons_self
      · exact List.mem_append_right _ old
  case carried =>
    have carried := inv.carried
    have front : s.session.queue.map Prod.fst ++
        ((Message.forward msg p :: channel).filterMap Message.forwarded).map Prod.fst =
        (s.session.queue ++ [(msg, p)]).map Prod.fst ++
          (channel.filterMap Message.forwarded).map Prod.fst := by
      rw [List.map_append, List.append_assoc]
      rfl
    rw [underWay, head, front, ← List.append_assoc, ← List.append_assoc] at carried
    refine carried.take ?_ ?_
    · rw [underWay, ← List.append_assoc, ← List.append_assoc]
      exact ((sublist.map Prod.fst).append_left _).append_right _
    · have both := (perm.trans (List.perm_append_singleton _ _).symm).map Prod.fst
      rw [List.map_append] at both
      rw [underWay, ← List.append_assoc, ← List.append_assoc, ← List.append_assoc]
      refine List.Perm.append_right _ ((List.Perm.of_eq ?_).trans
        ((List.perm_append_comm_assoc _ _ _).trans (both.append_left _)))
      simp only [List.append_assoc]
      rfl
  exact inv.exchanges
  exact inv.numbered
  exact inv.unsent
  exact inv.sent
  exact inv.received
  exact inv.recvs
  exact inv.dups

theorem keys_remove (w : OutInflight MsgId) (packetId : Session.PacketId) :
    (w.remove packetId).2.queues.map Prod.fst =
      (w.queues.map Prod.fst).filter (· ≠ packetId) := by
  have removed : (w.remove packetId).2.queues = w.queues.filter fun e => e.1 ≠ packetId := by
    unfold OutInflight.remove
    cases found : w.queues.find? (fun e => e.1 == packetId) with
    | some e => rfl
    | none =>
        refine (OutInflight.filter_key_eq_self fun e held same => ?_).symm
        exact List.find?_eq_none.mp found e held (beq_iff_eq.mpr same)
  rw [removed, List.filter_map]
  rfl

/-- The session reads an acknowledgement. -/
theorem Inv.acknowledged (inv : Inv start s) {ack : Ack} {toServer : List Ack}
    (head : s.session.toServer = ack :: toServer) :
    Inv start { s with
      session := Session.Outbound.processAck { s.session with toServer } ack } := by
  have exchanges := inv.exchanges
  rw [head] at exchanges
  have removed : ∀ packetId : NonZeroU16, ackId ack = packetId.val → recId ack = none →
      Exchanges ((s.session.outInflight.remove packetId.val).2.queues.map Prod.fst)
        s.session.toClient toServer s.awaitingRel := by
    intro packetId same final
    have completed := exchanges.complete final
    rw [same] at completed
    rw [keys_remove]
    exact completed
  cases ack with
  | publishAck packetId =>
      exact ⟨removed packetId rfl rfl, inv.forwards, inv.queued, inv.numbered, inv.unsent,
        inv.waiting, inv.sent, inv.received, inv.carried, inv.recvs, inv.dups⟩
  | publishComplete packetId =>
      exact ⟨removed packetId rfl rfl, inv.forwards, inv.queued, inv.numbered, inv.unsent,
        inv.waiting, inv.sent, inv.received, inv.carried, inv.recvs, inv.dups⟩
  | publishReceived packetId =>
      refine ⟨?_, inv.forwards, inv.queued, inv.numbered, inv.unsent,
        inv.waiting, fun msg p member => ?_, inv.received, ?_, inv.recvs, inv.dups⟩
      · rw [Session.Outbound.processAck, OutInflight.keys_updateStatus]
        exact exchanges.release _
      · refine inv.sent msg p ((List.mem_append.mp member).resolve_right fun new => ?_)
        cases List.mem_singleton.mp new
      · have carried := inv.carried
        rw [underWay] at carried ⊢
        rw [Session.Outbound.processAck, List.filterMap_append]
        change Conveyor.Carried _ (_ ++ (_ ++ [] ++ _)) _
        rw [List.append_nil]
        exact carried

/-- What the client's step does, which can be taken while there is a packet to read. -/
theorem Inv.reads (inv : Inv start s) (ctx : Ctx) {packet : Session.Outbound.Packet}
    {rest : List Session.Outbound.Packet} (head : s.session.toClient = packet :: rest)
    (nowUs : UInt64) : ∃ flow awaitingRel, Took ctx s.flow s.awaitingRel packet flow awaitingRel ∧
      step ctx s (.clientReads nowUs) = some { s with
        session := { s.session with
          toClient := rest
          toServer := s.session.toServer ++ flow.pending.filterMap (answer ctx.proto) }
        flow
        awaitingRel
        arrived := s.arrived ++ arrival packet } := by
  have exchanges := inv.exchanges
  rw [head] at exchanges
  obtain ⟨pkt, flow, awaitingRel, said, ok, took⟩ := took ctx nowUs s.flow exchanges.nodup
    (exchanges.shaped packet List.mem_cons_self)
  refine ⟨flow, awaitingRel, took, ?_⟩
  rw [step, head]
  simp only [said, ok]

/-- The client reads a packet. -/
theorem Inv.clientReads (inv : Inv start s) {ctx : Ctx} {nowUs : UInt64} {s' : State}
    (stepped : step ctx s (.clientReads nowUs) = some s') : Inv start s' := by
  cases head : s.session.toClient with
  | nil =>
      rw [step, head] at stepped
      cases stepped
  | cons packet rest =>
      have exchanges := inv.exchanges
      rw [head] at exchanges
      obtain ⟨flow, awaitingRel, took, reads⟩ := inv.reads ctx head nowUs
      rw [reads] at stepped
      cases stepped
      have answers := took.answers ⟨[], []⟩
      constructor
      case exchanges =>
        rw [answers]
        exact exchanges.read took _
      case sent =>
        intro msg p member
        refine inv.sent msg p ?_
        rw [head]
        exact List.mem_cons_of_mem _ member
      case received =>
        intro e member
        rcases List.mem_append.mp member with old | new
        · exact inv.received e old
        · cases packet with
          | publishRelease packetId reason => cases new
          | publish msg p =>
              cases List.mem_singleton.mp new
              obtain ⟨q, known, same⟩ := inv.sent msg p (by rw [head]; exact List.mem_cons_self)
              exact ⟨q, p.packetId, known, congrArg Publish.ofBroker same⟩
      case carried =>
        have carried := inv.carried
        rw [underWay, head] at carried
        rw [underWay, List.map_append, List.append_assoc]
        cases packet with
        | publishRelease packetId reason => exact carried
        | publish msg p => exact carried
      case recvs =>
        rw [List.length_append, took.recvs, inv.recvs, Nat.add_assoc]
      case dups => exact (took.dups fun pid publish => exchanges.unknown publish).trans inv.dups
      exact inv.forwards
      exact inv.queued
      exact inv.numbered
      exact inv.unsent
      exact inv.waiting

theorem step_session {a : Session.Outbound.Step} {s' : State}
    (stepped : step ctx s (.session a) = some s') :
    ∃ session, Session.Outbound.step s.session a = some session ∧ a ≠ .client ∧ s' = { s with
      session
      handed := s.handed ++ handedBy a
      dropped := s.dropped ++ droppedBy s.session a } := by
  by_cases client : a = .client
  · subst client
    cases stepped
  · rw [step.eq_2 ctx s a client] at stepped
    obtain ⟨session, taken, rfl⟩ := Option.map_eq_some_iff.mp stepped
    exact ⟨session, taken, client, rfl⟩

/-- A step that hands over nothing and drops nothing. -/
theorem step_silent {a : Session.Outbound.Step} {s' : State}
    (stepped : step ctx s (.session a) = some s') (handed : handedBy a = [])
    (dropped : droppedBy s.session a = []) :
    ∃ session, Session.Outbound.step s.session a = some session ∧ s' = { s with session } := by
  obtain ⟨session, taken, -, rfl⟩ := step_session stepped
  rw [handed, dropped, List.append_nil, List.append_nil]
  exact ⟨session, taken, rfl⟩

theorem Inv.next (inv : Inv start s) {a : Action}
    (once : ∀ expired, a ≠ .session (.timeout expired)) {s' : State}
    (stepped : step ctx s a = some s') : Inv start s' := by
  cases a with
  | clientReads nowUs => exact inv.clientReads stepped
  | session a =>
      cases a with
      | client => cases stepped
      | timeout expired => exact absurd rfl (once expired)
      | forward p =>
          obtain ⟨session, taken, -, rfl⟩ := step_session stepped
          cases taken
          have none_ : droppedBy s.session (.forward p) = [] := rfl
          rw [none_, List.append_nil]
          exact inv.forward p
      | tick elapsed =>
          obtain ⟨session, taken, rfl⟩ := step_silent stepped rfl rfl
          cases taken
          exact ⟨inv.exchanges, inv.forwards, inv.queued, inv.numbered, inv.unsent, inv.waiting,
            inv.sent, inv.received, inv.carried, inv.recvs, inv.dups⟩
      | deliver expired =>
          obtain ⟨session, delivered, -, rfl⟩ := step_session stepped
          have none_ : handedBy (.deliver expired) = [] := rfl
          rw [none_, List.append_nil]
          obtain ⟨msg, p, queue, head, ⟨rfl, rfl⟩ | ⟨rfl, p', w, assigned, rfl⟩⟩ :=
            Session.Outbound.step_deliver delivered
          · rw [droppedBy, head]
            exact inv.expired head
          · have kept : droppedBy s.session (.deliver false) = [] := rfl
            rw [kept, List.append_nil]
            exact inv.delivered head assigned
      | message =>
          obtain ⟨session, taken, -, rfl⟩ := step_session stepped
          have none_ : handedBy .message = [] := rfl
          rw [none_, List.append_nil]
          rcases Session.Outbound.step_message taken with
            ⟨msg, p, channel, head, rfl⟩ | ⟨m, packetId, channel, head, -, -⟩
          · rw [droppedBy, head]
            exact inv.message head
          · have forwards := inv.forwards
            rw [head] at forwards
            obtain ⟨item, forwarded⟩ := forwards _ List.mem_cons_self
            cases forwarded
      | packet =>
          obtain ⟨session, taken, rfl⟩ := step_silent stepped rfl rfl
          cases head : s.session.toServer with
          | nil =>
              simp only [Session.Outbound.step, head] at taken
              cases taken
          | cons ack toServer =>
              simp only [Session.Outbound.step, head] at taken
              cases taken
              exact inv.acknowledged head

/-! ## What is left to do -/

/-- The steps that a packet to the client brings with it. -/
def replies : Session.Outbound.Packet → Nat
  | .publish _ _ => 4
  | .publishRelease _ _ => 2

/-- The steps that an acknowledgement brings with it. -/
def follows : Ack → Nat
  | .publishReceived _ => 3
  | .publishAck _ | .publishComplete _ => 1

/-- The steps that are left at most until nothing is under way. -/
def work (s : Session.Outbound.State) : Nat :=
  (s.toClient.map replies).sum + (s.toServer.map follows).sum + 5 * s.queue.length +
    6 * s.channel.length

/-- The answers are less work than the packet. -/
theorem follows_lt (r : AtMostOnce.Receiver MsgId NonZeroU16) (packet : Session.Outbound.Packet) :
    ((clientReceive r packet).2.map follows).sum < replies packet := by
  cases packet with
  | publishRelease packetId reason => exact Nat.lt_succ_self 1
  | publish msg p =>
      rw [clientReceive, replies]
      split
      · exact Nat.lt_succ_self 3
      · exact Nat.lt_add_of_pos_left (Nat.zero_lt_succ 2)
      · exact Nat.zero_lt_succ 3

/-- An action that hands over nothing and lets nothing time out or expire. -/
def Onward : Action → Prop
  | .session (.deliver false) | .session .message | .session .packet | .clientReads _ => True
  | _ => False

theorem step_of_session {a : Session.Outbound.Step} (client : a ≠ .client)
    (taken : Session.Outbound.step s.session a = some session) :
    step ctx s (.session a) = some { s with
      session
      handed := s.handed ++ handedBy a
      dropped := s.dropped ++ droppedBy s.session a } := by
  rw [step.eq_2 ctx s a client, taken]
  rfl

theorem work_processAck (session : Session.Outbound.State) (ack : Ack) :
    work (Session.Outbound.processAck session ack) < work session + follows ack := by
  cases ack with
  | publishAck packetId => exact Nat.lt_succ_self _
  | publishComplete packetId => exact Nat.lt_succ_self _
  | publishReceived packetId =>
      simp only [work, Session.Outbound.processAck, List.map_append, List.sum_append, List.map_cons,
        List.map_nil, List.sum_cons, List.sum_nil, follows, replies]
      omega

/-- With an empty window, there is a packet id for every publish. -/
theorem assignPacketId_of_empty {w : OutInflight MsgId} (empty : w.queues = [])
    (p : Codec.Publish) : ∃ r, Session.Outbound.assignPacketId w p = some r := by
  have free : ∀ pid : UInt16, pid ≠ 0 → w.Free pid := by
    intro pid nonzero
    refine ⟨nonzero, ?_⟩
    rw [OutInflight.exist, empty]
    rfl
  have found : ∃ packetId, w.nextId.1 = some packetId := by
    rw [OutInflight.nextId]
    by_cases zero : w.next = 0
    · have skip : ¬ w.Free w.next := fun found => found.1 zero
      rw [OutInflight.nextIdLoop_of_not_free skip, zero,
        OutInflight.nextIdLoop_of_free (free _ (by decide))]
      exact ⟨_, rfl⟩
    · rw [OutInflight.nextIdLoop_of_free (free _ zero)]
      exact ⟨_, rfl⟩
  obtain ⟨packetId, found⟩ := found
  unfold Session.Outbound.assignPacketId
  split
  · rw [show w.nextId = (some packetId, w.nextId.2) from Prod.ext found rfl]
    exact ⟨_, rfl⟩
  · exact ⟨_, rfl⟩

theorem deliver_of_assigned {msg : MsgId} {p p' : Codec.Publish}
    {queue : List (MsgId × Codec.Publish)} {w : OutInflight MsgId}
    (head : session.queue = (msg, p) :: queue) (credit : session.outInflight.hasCredit = true)
    (assigned : Session.Outbound.assignPacketId session.outInflight p = some (p', w)) :
    Session.Outbound.step session (.deliver false) = some { session with
      queue
      toClient := session.toClient ++ [.publish msg p']
      outInflight := Session.Outbound.sentWindow w msg p' session.clock } := by
  simp only [Session.Outbound.step, head, credit, if_true, Session.Outbound.deliver,
    Bool.false_eq_true, if_false, assigned, Option.map_some, Option.some_inj]
  unfold Session.Outbound.sentWindow
  cases p'.qos <;> rfl

/-- Where nothing is on its way, the window is empty. -/
theorem Inv.window_empty (inv : Inv start s) (toClient : s.session.toClient = [])
    (toServer : s.session.toServer = []) : s.session.outInflight.queues = [] := by
  have onWay := inv.exchanges.onWay
  rw [toClient, toServer] at onWay
  exact List.map_eq_nil_iff.mp onWay.symm.eq_nil

/-- The packet arm lessens the work, as the other two do. -/
theorem packet_lessens {ack : Ack} {rest : List Ack} (head : session.toServer = ack :: rest) :
    ∃ session', Session.Outbound.step session .packet = some session' ∧
      work session' < work session := by
  refine ⟨Session.Outbound.processAck { session with toServer := rest } ack, ?_, ?_⟩
  · rw [Session.Outbound.step, head]
  · refine (work_processAck _ ack).trans_le (Nat.le_of_eq ?_)
    simp only [work, head, List.map_cons, List.sum_cons]
    omega

theorem message_lessens {msg : MsgId} {p : Codec.Publish} {rest : List Message}
    (head : session.channel = .forward msg p :: rest) :
    ∃ session', Session.Outbound.step session .message = some session' ∧
      work session' < work session := by
  refine ⟨{ session with
    channel := rest
    queue := (send session.queueCap deliverPolicy session.queue (msg, p)).1 }, ?_, ?_⟩
  · rw [Session.Outbound.step, head]
    rfl
  · have le := (Session.DeliverQueue.send_sublist session.queueCap deliverPolicy session.queue
      (msg, p)).length_le
    rw [List.length_append, List.length_singleton] at le
    simp only [work, head, List.length_cons]
    omega

theorem deliver_lessens {item : MsgId × Codec.Publish} {rest : List (MsgId × Codec.Publish)}
    (head : session.queue = item :: rest) (empty : session.outInflight.queues = [])
    (cap : 0 < session.outInflight.cap) (bound : session.outInflight.cap < Session.usizeSize) :
    ∃ session', Session.Outbound.step session (.deliver false) = some session' ∧
      work session' < work session := by
  have none_ : session.outInflight.len = 0 := by
    rw [OutInflight.len, empty]
    rfl
  have credit : session.outInflight.hasCredit = true := by
    refine (Session.OutInflight.hasCredit_iff _ ?_ bound).mpr ?_
    · rw [none_]
      exact Nat.zero_le _
    · rw [none_]
      exact cap
  obtain ⟨msg, p⟩ := item
  obtain ⟨⟨p', w⟩, assigned⟩ := assignPacketId_of_empty empty p
  refine ⟨_, deliver_of_assigned head credit assigned, ?_⟩
  simp only [work, head, List.map_append, List.sum_append, List.map_cons, List.map_nil,
    List.sum_cons, List.sum_nil, List.length_cons, replies]
  omega

/-- Something can be done while something is left to do. -/
theorem Inv.progress (inv : Inv start s) (cap : 0 < s.session.outInflight.cap)
    (bound : s.session.outInflight.cap < Session.usizeSize) (left : work s.session ≠ 0) :
    ∃ a s', Onward a ∧ step ctx s a = some s' ∧ work s'.session < work s.session := by
  cases toClient : s.session.toClient with
  | cons packet rest =>
      obtain ⟨flow, awaitingRel, took, reads⟩ := inv.reads ctx toClient 0
      have less := follows_lt ⟨[], []⟩ packet
      rw [← took.answers] at less
      refine ⟨.clientReads 0, _, trivial, reads, ?_⟩
      simp only [work, toClient, List.map_cons, List.map_append, List.sum_cons, List.sum_append]
      omega
  | nil =>
      cases toServer : s.session.toServer with
      | cons ack rest =>
          obtain ⟨session, taken, less⟩ := packet_lessens toServer
          exact ⟨.session .packet, _, trivial, step_of_session (by simp) taken, less⟩
      | nil =>
          cases channel : s.session.channel with
          | cons m rest =>
              have forwards := inv.forwards
              rw [channel] at forwards
              obtain ⟨item, forwarded⟩ := forwards m List.mem_cons_self
              cases m with
              | sendRerelease m => cases forwarded
              | forward msg p =>
                  obtain ⟨session, taken, less⟩ := message_lessens channel
                  exact ⟨.session .message, _, trivial, step_of_session (by simp) taken, less⟩
          | nil =>
              cases queue : s.session.queue with
              | nil =>
                  rw [work, toClient, toServer, channel, queue] at left
                  exact absurd rfl left
              | cons item rest =>
                  have empty := inv.window_empty toClient toServer
                  obtain ⟨session, taken, less⟩ := deliver_lessens queue empty cap bound
                  exact ⟨.session (.deliver false), _, trivial,
                    step_of_session (by simp) taken, less⟩

/-- Where nothing is left to do, nothing is under way. -/
theorem idle_of_work (settled : work session = 0) :
    underWay session = [] ∧ session.toClient = [] ∧ session.toServer = [] := by
  have toClient : session.toClient = [] := by
    cases head : session.toClient with
    | nil => rfl
    | cons packet rest =>
        have some : 0 < replies packet := by
          cases packet <;> exact Nat.zero_lt_succ _
        simp only [work, head, List.map_cons, List.sum_cons] at settled
        omega
  have toServer : session.toServer = [] := by
    cases head : session.toServer with
    | nil => rfl
    | cons ack rest =>
        have some : 0 < follows ack := by
          cases ack <;> exact Nat.zero_lt_succ _
        simp only [work, head, List.map_cons, List.sum_cons] at settled
        omega
  have queue : session.queue = [] := List.eq_nil_of_length_eq_zero (by rw [work] at settled; omega)
  have channel : session.channel = [] :=
    List.eq_nil_of_length_eq_zero (by rw [work] at settled; omega)
  refine ⟨?_, toClient, toServer⟩
  rw [underWay, toClient, queue, channel]
  rfl

end

/-! ## Runs -/

/-- What holds in every state of a run. -/
structure Reached (cap : NonZeroU16) (start : Stats) (s : State) : Prop where
  inv : Inv start s
  cap : s.session.outInflight.cap = cap.val.toNat

theorem reached_init (ctx : Ctx) (cap : NonZeroU16)
    (retryInterval expiryInterval : Session.TimestampMillis) (toBack : Bool) (queueCap : Nat)
    (flow : Flow) :
    Reached cap flow.stats (init ctx cap retryInterval expiryInterval toBack queueCap flow) where
  inv := {
    exchanges := ⟨List.nodup_nil, List.Perm.nil, List.forall_mem_nil _, fun _ => Iff.rfl,
      List.nodup_nil⟩
    forwards := List.forall_mem_nil _
    queued := Nat.zero_le _
    numbered := rfl
    unsent := List.forall_mem_nil _
    waiting := List.forall_mem_nil _
    sent := fun _ _ member => absurd member List.not_mem_nil
    received := List.forall_mem_nil _
    carried := .empty
    recvs := rfl
    dups := rfl }
  cap := rfl

section

variable {ctx : Ctx} {cap : NonZeroU16} {start : Stats} {s : State}

theorem Reached.next (reached : Reached cap start s) {a : Action}
    (once : ∀ expired, a ≠ .session (.timeout expired)) {s' : State}
    (stepped : step ctx s a = some s') : Reached cap start s' where
  inv := reached.inv.next once stepped
  cap := by
    refine Eq.trans ?_ reached.cap
    cases a with
    | session a =>
        obtain ⟨session, taken, -, rfl⟩ := step_session stepped
        exact Session.Outbound.cap_step taken
    | clientReads nowUs =>
        cases head : s.session.toClient with
        | nil =>
            rw [step, head] at stepped
            cases stepped
        | cons packet rest =>
            obtain ⟨flow, awaitingRel, -, reads⟩ := reached.inv.reads ctx head nowUs
            rw [reads] at stepped
            cases stepped
            rfl

theorem once_of_onward {a : Action} (onward : Onward a) (expired : Bool) :
    a ≠ .session (.timeout expired) := by
  intro same
  rw [same] at onward
  exact onward

theorem handed_of_onward {a : Action} (onward : Onward a) {s' : State}
    (inv : Inv start s) (stepped : step ctx s a = some s') : s'.handed = s.handed := by
  cases a with
  | clientReads nowUs =>
      cases head : s.session.toClient with
      | nil =>
          rw [step, head] at stepped
          cases stepped
      | cons packet rest =>
          obtain ⟨flow, awaitingRel, -, reads⟩ := inv.reads ctx head nowUs
          rw [reads] at stepped
          cases stepped
          rfl
  | session a =>
      have none_ : handedBy a = [] := by
        cases a with
        | forward p => exact onward.elim
        | _ => rfl
      obtain ⟨session, -, -, rfl⟩ := step_session stepped
      dsimp only
      rw [none_, List.append_nil]

/-- From every state of a run, another one gets all that is under way through. -/
theorem Reached.settles (reached : Reached cap start s) :
    ∃ more s', (∀ a ∈ more, Onward a) ∧ Machine.run (step ctx) s more = some s' ∧
      (Reached cap start s' ∧ s'.handed = s.handed) ∧ work s'.session = 0 := by
  refine @Machine.settles State Action (step ctx) Onward
    (fun s' => Reached cap start s' ∧ s'.handed = s.handed) (fun s' => work s'.session)
    (fun t ht left => ?_) s ⟨reached, rfl⟩
  obtain ⟨reached, handed⟩ := ht
  have some : 0 < t.session.outInflight.cap := by
    rw [reached.cap]
    exact UInt16.pos_iff_ne_zero.mpr cap.property
  have bound : t.session.outInflight.cap < Session.usizeSize := by
    rw [reached.cap]
    exact cap.val.toNat_lt.trans (by decide)
  obtain ⟨a, t', onward, stepped, less⟩ := reached.inv.progress some bound left
  exact ⟨a, t', onward, stepped, ⟨reached.next (once_of_onward onward) stepped,
    (handed_of_onward onward reached.inv stepped).trans handed⟩, less⟩

end

/-- The outbound side of a session of the broker against a client of the benchmark, over any order
of their steps in which no packet times out.  The client receives what the session was handed in its
order, each message once at most and with its content, and counts none as a duplicate.  No message
is lost but those that the deliver queue drops or that expire.  Whatever is under way gets through:
a run leads to where the client has received all the rest and nothing is left in the window. -/
theorem received_exactly_once {ctx : Ctx} {cap : NonZeroU16}
    {retryInterval expiryInterval : Session.TimestampMillis} {toBack : Bool} {queueCap : Nat}
    {flow : Flow} {actions : List Action} {s : State}
    (ran : Machine.run (step ctx)
      (init ctx cap retryInterval expiryInterval toBack queueCap flow) actions = some s)
    (once : ∀ a ∈ actions, ∀ expired, a ≠ .session (.timeout expired)) :
    (s.arrived.map Prod.fst).Pairwise (· < ·) ∧
    (∀ e ∈ s.arrived, ∃ q packetId, s.handed[e.1]? = some q ∧
      e.2 = .ofBroker { q with packetId }) ∧
    (s.arrived.map Prod.fst ++ (underWay s.session ++ s.dropped)).Perm
      (List.range s.handed.length) ∧
    s.flow.stats.recvs = flow.stats.recvs + s.arrived.length ∧
    s.flow.stats.dups = flow.stats.dups ∧
    ∃ more s', (∀ a ∈ more, Onward a) ∧ Machine.run (step ctx) s more = some s' ∧
      s'.handed = s.handed ∧
      (s'.arrived.map Prod.fst ++ s'.dropped).Perm (List.range s.handed.length) ∧
      s'.session.outInflight.queues = [] ∧ s'.awaitingRel = [] := by
  have reached : Reached cap flow.stats s :=
    Machine.invariant_guarded (fun s a s' before once stepped => before.next once stepped)
      (Machine.guarded_of_forall once _) ran
      (reached_init ctx cap retryInterval expiryInterval toBack queueCap flow)
  have inv := reached.inv
  have all := inv.carried.all
  rw [List.append_assoc] at all
  refine ⟨(List.pairwise_append.mp inv.carried.ordered).1, inv.received, all, inv.recvs, inv.dups,
    ?_⟩
  obtain ⟨more, s', onward, ran', ⟨reached', handed⟩, settled⟩ := @Reached.settles ctx _ _ _ reached
  obtain ⟨none_, toClient, toServer⟩ := idle_of_work settled
  refine ⟨more, s', onward, ran', handed, ?_, reached'.inv.window_empty toClient toServer, ?_⟩
  · have all := reached'.inv.carried.all
    rw [none_, List.append_nil, handed] at all
    exact all
  · refine List.eq_nil_iff_forall_not_mem.mpr fun pid member => ?_
    have opened := (reached'.inv.exchanges.remembered pid).mp member
    rw [toClient, toServer] at opened
    exact List.not_mem_nil opened

/-- Two messages at QoS 2, the second of which expires. -/
def oneOfTwo : List Action :=
  [.session (.forward Session.Outbound.reading), .session (.forward Session.Outbound.reading),
    .session .message, .session .message, .session (.deliver false), .clientReads 0,
    .session (.deliver true)]

theorem received_exactly_once_expired : ∃ s,
    Machine.run (step publisher) (init publisher ⟨16, by decide⟩ 20000 0 true 1000
      ⟨Outbound.new publisher 0 none, {}, []⟩) oneOfTwo = some s ∧
    s.arrived.map Prod.fst = [0] ∧ s.dropped = [1] ∧
    (s.arrived.map Prod.fst ++ (underWay s.session ++ s.dropped)).Perm (List.range 2) := by
  have ran : Machine.run (step publisher) (init publisher ⟨16, by decide⟩ 20000 0 true 1000
      ⟨Outbound.new publisher 0 none, {}, []⟩) oneOfTwo = some _ := rfl
  have once : ∀ a ∈ oneOfTwo, ∀ expired, a ≠ .session (.timeout expired) := by
    intro a member expired same
    rw [same] at member
    simp [oneOfTwo] at member
  exact ⟨_, ran, rfl, rfl, (received_exactly_once ran once).2.2.1⟩

end OxiMqtt.Bench.Subscriber

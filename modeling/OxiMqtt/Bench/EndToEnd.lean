import OxiMqtt.Bench.Client
import OxiMqtt.Bench.ClientPackets
import OxiMqtt.Bench.LateAcks
import OxiMqtt.Bench.ServerPackets
import OxiMqtt.Session.Replies

/-!
# The benchmark publishes at QoS 2 to the broker

A client of the benchmark and the session of the broker that serves it, with the packets that are on
their way between them.  Either side reads the packets of the other one in the order in which they
were sent; when it does so is open, and the connection may go down at any time.

* `Inv`: every message in flight has one packet on its way, or waits with the broker.
* `exactly_once`: what the client publishes is handed over in order and not twice, and is counted as
  acknowledged only after that; where nothing is on its way, nothing is left.
-/

namespace OxiMqtt.Bench.EndToEnd

open Collections Process
open Packets (classify)
open Codec (NonZeroU16)
open Session (Inbound.World)
open Session.Inbound (processPacket HandedFirst Answers Answered)
open LateAcks (keys publishedId)

/-! ## What the two read of each other -/

/-- What the session of the broker gets of a client packet from its codec. -/
def read (version : Version) (p : Packet) : Option Session.Inbound.Packet :=
  match version with
  | .v3 =>
      match p.v3 with
      | some (.publish m) => some (.publish m)
      | some (.publishRelease packetId) => some (.publishRelease packetId)
      | _ => none
  | .v5 =>
      match p.v5 with
      | some (.publish m) => some (.publish m)
      | some (.publishRelease ack) => some (.publishRelease ack.packetId)
      | _ => none

/-- What the client reads of the packet that the broker sends at an event. -/
def write (version : Version) : Session.Inbound.Event → Option Packet
  | .received packetId res =>
      match version with
      | .v3 => fromV3 (.publishReceived packetId)
      | .v5 => fromV5 (.publishReceived
          { packetId, reasonCode := res.reasonCode, properties := res.properties,
            reasonString := res.reasonString })
  | .pubrel packetId =>
      match version with
      | .v3 => fromV3 (.publishComplete packetId)
      | .v5 => fromV5 (.publishComplete
          { packetId, reasonCode := .success, properties := [], reasonString := none })
  | .accepted _ _ | .handed _ _ _ | .addError _ => none

/-- A publish of the client, as the broker hands it over. -/
def publishOf (version : Version) (p : Packet) : Option (NonZeroU16 × Codec.Publish) :=
  match read version p with
  | some (.publish m) => m.packetId.map fun packetId => (packetId, m)
  | _ => none

/-! ## The two together -/

/-- The client and the session, and the packets between them; `written` are the packets that the
client has sent so far, and `up` is whether the connection is. -/
structure State : Type where
  flow : Flow
  awaitingRel : List UInt16 := []
  toBroker : List Packet := []
  broker : Session.Inbound.State
  toClient : List Packet := []
  written : List Packet := []
  up : Bool := true

inductive Action : Type
  /-- A tick of the publishing timer. -/
  | fill (clock : Nat → UInt64)
  | sweepTimeouts (walk : Walk (UInt16 × InflightMsg)) (nowUs : UInt64)
  | clientReads (nowUs : UInt64)
  | brokerReads
  /-- The connection goes down. -/
  | down

namespace State

/-- At the start of `traffic`. -/
def init (ctx : Ctx) (no : Nat) (receiveMax : Option UInt16) (stats : Stats)
    (maxInflight : UInt16) : State where
  flow := ⟨Outbound.new ctx no receiveMax, stats, []⟩
  broker := .new maxInflight

/-- The client hands these packets to the writer. -/
def send (s : State) (flow : Flow) : State :=
  { s with
    flow
    toBroker := s.toBroker ++ flow.pending
    written := s.written ++ flow.pending }

end State

/-- A step; there is none after the connection has gone down. -/
def step (ctx : Ctx) (id : String) (world : Session.Inbound.World) (s : State) (a : Action) :
    Option State :=
  if s.up then
    match a with
    | .fill clock => some (s.send (Flow.fill ctx id clock { s.flow with pending := [] }))
    | .sweepTimeouts walk nowUs => some { s with flow := s.flow.sweepTimeouts ctx walk nowUs }
    | .clientReads nowUs =>
        match s.toClient with
        | [] => none
        | pkt :: rest =>
            match onIncoming ctx nowUs { s.flow with pending := [] } s.awaitingRel
                (classify pkt) with
            | .ok (flow, awaitingRel) =>
                some { s.send flow with toClient := rest, awaitingRel }
            | .error _ => some { s with up := false }
    | .brokerReads =>
        match s.toBroker with
        | [] => none
        | pkt :: rest =>
            match read ctx.proto pkt with
            | none => some { s with up := false }
            | some packet =>
                match processPacket world packet s.broker with
                | .ok _ broker => some { s with
                    broker
                    toBroker := rest
                    toClient := s.toClient ++
                      (broker.log.drop s.broker.log.length).filterMap (write ctx.proto) }
                | .error _ broker => some { s with broker, up := false }
    | .down => some { s with up := false }
  else none

/-- A sweep finds no message that waits for longer than the timeout. -/
def InTime (ctx : Ctx) (s : State) : Action → Prop
  | .sweepTimeouts walk nowUs => LateAcks.InTime ctx { flow := s.flow } (.sweepTimeouts walk nowUs)
  | _ => True

instance (ctx : Ctx) (s : State) : (a : Action) → Decidable (InTime ctx s a)
  | .sweepTimeouts walk nowUs => inferInstanceAs
      (Decidable (LateAcks.InTime ctx { flow := s.flow } (.sweepTimeouts walk nowUs)))
  | .fill _ | .clientReads _ | .brokerReads | .down => isTrue trivial

/-! ## Packets by their ids -/

/-- The packet id of a packet of an exchange. -/
def exchangeId : Packet → Option UInt16
  | .publish p => p.pid
  | .pubRec pid _ | .pubRel pid _ | .pubComp pid _ => some pid
  | _ => none

/-- The packet id of a PUBREC. -/
def recId : Packet → Option UInt16
  | .pubRec pid _ => some pid
  | _ => none

/-- The packet id of a PUBREL. -/
def relId : Packet → Option UInt16
  | .pubRel pid _ => some pid
  | _ => none

/-- A packet that the client sends: a publish with a packet id, or a PUBREL. -/
inductive Outgoing (ctx : Ctx) : Packet → Prop
  | publish (topic : String) (payload : Wire.Bytes) (packetId : NonZeroU16) :
      Outgoing ctx (Packets.publish ctx topic payload (some packetId.val))
  | pubRel (packetId : NonZeroU16) : Outgoing ctx (Packets.ack ctx .pubRel packetId.val)

/-- A packet that the broker answers with. -/
inductive Answer : Packet → Prop
  | pubRec (packetId : NonZeroU16) (reason : UInt8) : Answer (.pubRec packetId.val reason)
  | pubComp (packetId : NonZeroU16) (reason : UInt8) : Answer (.pubComp packetId.val reason)

/-- The packet ids on the way, those that wait with the broker included. -/
def State.onWay (s : State) : List UInt16 :=
  s.toBroker.filterMap exchangeId ++ s.broker.waiting.map Subtype.val ++
    s.toClient.filterMap exchangeId

/-- While the connection is up, each message in flight has one packet on its way, or waits with the
broker; a registered packet id has its PUBREC on the way, or its PUBREL. -/
structure Inv (ctx : Ctx) (window : Nat) (maxInflight : UInt16) (start : Stats) (s : State) :
    Prop where
  flow : s.flow.out.Inv window
  qos : s.flow.out.qos = 2
  broker : Session.Inbound.Inv maxInflight s.broker
  outgoing : ∀ p ∈ s.toBroker, Outgoing ctx p
  answers : ∀ p ∈ s.toClient, Answer p
  onWay : s.onWay.Perm (keys s.flow)
  registered : ∀ packetId ∈ s.broker.inInflight.cached,
    packetId.val ∈ s.toClient.filterMap recId ∨ packetId.val ∈ s.toBroker.filterMap relId
  sent : s.written.filterMap (publishOf ctx.proto) =
    Session.Inbound.accepted s.broker.log ++ s.toBroker.filterMap (publishOf ctx.proto)
  acked : s.flow.stats.pubAcks + s.flow.out.inflight.length =
    start.pubAcks + (s.written.filterMap (publishOf ctx.proto)).length
  errors : s.flow.stats.errors = start.errors

section

variable {ctx : Ctx} {id : String} {world : Session.Inbound.World} {window : Nat}
  {maxInflight : UInt16} {start : Stats} {s s' : State}

/-! ## Single packets -/

theorem read_publish (qos : ctx.args.qos = 2) (topic : String) (payload : Wire.Bytes)
    (packetId : NonZeroU16) : ∃ m : Codec.Publish, m.qos = .exactlyOnce ∧
      m.packetId = some packetId ∧
      read ctx.proto (Packets.publish ctx topic payload (some packetId.val)) =
        some (.publish m) := by
  have level : ctx.qos = .exactlyOnce := by
    rw [Ctx.qos, qos]
    rfl
  have id : (some packetId.val).bind NonZeroU16.new = some packetId := NonZeroU16.new_val packetId
  cases version : ctx.proto with
  | v3 => exact ⟨_, by rw [Publish.broker, level]; rfl, id, rfl⟩
  | v5 => exact ⟨_, by rw [Publish.broker, level]; rfl, id, rfl⟩

theorem read_pubRel {packetId : NonZeroU16} {packet : Session.Inbound.Packet}
    (h : read ctx.proto (Packets.ack ctx .pubRel packetId.val) = some packet) :
    packet = .publishRelease packetId := by
  cases version : ctx.proto with
  | v3 =>
      rw [version] at h
      simp only [read, Packets.ack, Packet.v3, NonZeroU16.new_val, Option.map_some] at h
      exact (Option.some.inj h).symm
  | v5 =>
      rw [version] at h
      simp only [read, Packets.ack, Packet.v5, ackOf, NonZeroU16.new_val, Option.bind_eq_bind,
        Option.bind_some, Option.pure_def] at h
      -- an unknown reason is refused
      cases known : (Codec.PrimEnum.table (α := Codec.V5.PublishAck2Reason)).lookup
          ctx.args.v5PubrelReason with
      | none =>
          rw [known] at h
          cases h
      | some reason =>
          rw [known] at h
          exact (Option.some.inj h).symm

theorem publishOf_pubRel (packetId : NonZeroU16) :
    publishOf ctx.proto (Packets.ack ctx .pubRel packetId.val) = none := by
  unfold publishOf
  cases h : read ctx.proto (Packets.ack ctx .pubRel packetId.val) with
  | none => rfl
  | some packet => rw [read_pubRel h]

theorem write_answer {version : Version} {e : Session.Inbound.Event} {p : Packet}
    (h : write version e = some p) : Answer p := by
  cases e with
  | received packetId res => cases version <;> cases h <;> exact .pubRec packetId _
  | pubrel packetId => cases version <;> cases h <;> exact .pubComp packetId _
  | accepted packetId m => cases h
  | handed packetId m res => cases h
  | addError packetId => cases h

/-- Where no PUBREL arrives, the answers are the PUBRECs. -/
theorem ids_write (version : Version) {new : List Session.Inbound.Event}
    (closed : Session.Inbound.released new = []) :
    (new.filterMap (write version)).filterMap exchangeId =
        (Session.Inbound.received new).map Subtype.val ∧
      (new.filterMap (write version)).filterMap recId =
        (Session.Inbound.received new).map Subtype.val := by
  induction new with
  | nil => exact ⟨rfl, rfl⟩
  | cons e new ih =>
      cases e with
      | received packetId res =>
          obtain ⟨exchange, rec⟩ := ih closed
          cases version with
          | v3 => exact ⟨congrArg (packetId.val :: ·) exchange, congrArg (packetId.val :: ·) rec⟩
          | v5 => exact ⟨congrArg (packetId.val :: ·) exchange, congrArg (packetId.val :: ·) rec⟩
      | pubrel packetId => cases closed
      | accepted packetId m => exact ih closed
      | handed packetId m res => exact ih closed
      | addError packetId => exact ih closed

/-! ## A tick of the publishing timer -/

/-- Publishes with packet ids are queued, and nothing is counted as acknowledged or as an error. -/
structure Filled (ctx : Ctx) (f f' : Flow) (new : List Packet) : Prop where
  pending : f'.pending = f.pending ++ new
  packets : ∀ p ∈ new, ∃ topic payload pid, p = Packets.publish ctx topic payload (some pid)
  pubAcks : f'.stats.pubAcks = f.stats.pubAcks
  errors : f'.stats.errors = f.stats.errors

theorem Filled.trans {f f' f'' : Flow} {new new' : List Packet} (h : Filled ctx f f' new)
    (h' : Filled ctx f' f'' new') : Filled ctx f f'' (new ++ new') where
  pending := by rw [h'.pending, h.pending, List.append_assoc]
  packets := List.forall_mem_append.mpr ⟨h.packets, h'.packets⟩
  pubAcks := h'.pubAcks.trans h.pubAcks
  errors := h'.errors.trans h.errors

theorem filled_publish (ctx : Ctx) (id : String) (ts : UInt64) (pid : UInt16) {f : Flow}
    (acked : f.out.qos > 0) : ∃ new, Filled ctx f (Flow.publish ctx id ts pid f) new := by
  refine ⟨_, rfl, List.forall_mem_singleton.mpr ?_, ?_, ?_⟩
  · rw [if_pos acked]
    exact ⟨_, _, pid, rfl⟩
  · unfold Flow.publish
    simp only [acked, if_true]
    rfl
  · unfold Flow.publish
    simp only [acked, if_true]
    rfl

theorem filled_fillLoop (ctx : Ctx) (id : String) (clock : Nat → UInt64) (turns queued : Nat)
    {f : Flow} (acked : f.out.qos > 0) :
    ∃ new, Filled ctx f (Flow.fillLoop ctx id clock turns queued f) new := by
  induction turns generalizing queued f with
  | zero =>
      exact ⟨[], (List.append_nil _).symm, fun p hp => absurd hp List.not_mem_nil, rfl, rfl⟩
  | succ turns ih =>
      unfold Flow.fillLoop
      split
      · exact ⟨[], (List.append_nil _).symm, fun p hp => absurd hp List.not_mem_nil, rfl, rfl⟩
      split
      · rename_i pid slots taken
        obtain ⟨first, published⟩ := filled_publish ctx id (clock queued) pid
          (f := { f with out := { f.out with slots } }) acked
        obtain ⟨new, later⟩ := ih (queued + 1)
          (f := Flow.publish ctx id (clock queued) pid { f with out := { f.out with slots } }) acked
        have whole := published.trans later
        exact ⟨_, whole.pending, whole.packets, whole.pubAcks, whole.errors⟩
      · exact ⟨[], (List.append_nil _).symm, fun p hp => absurd hp List.not_mem_nil, rfl, rfl⟩

/-- The ids of queued publishes. -/
theorem ids_published {new : List Packet}
    (packets : ∀ p ∈ new, ∃ topic payload pid, p = Packets.publish ctx topic payload (some pid)) :
    new.filterMap exchangeId = new.filterMap publishedId ∧ new.filterMap relId = [] ∧
      (new.filterMap publishedId).length = new.length := by
  induction new with
  | nil => exact ⟨rfl, rfl, rfl⟩
  | cons p new ih =>
      obtain ⟨topic, payload, pid, rfl⟩ := packets p List.mem_cons_self
      obtain ⟨exchange, rel, length⟩ := ih fun p hp => packets p (List.mem_cons_of_mem _ hp)
      exact ⟨congrArg (pid :: ·) exchange, rel, congrArg (· + 1) length⟩

/-- A publish with a packet id that is not zero. -/
def Publishes (ctx : Ctx) (p : Packet) : Prop :=
  ∃ topic payload, ∃ packetId : NonZeroU16,
    p = Packets.publish ctx topic payload (some packetId.val)

theorem publishes_of_nonzero {new : List Packet}
    (packets : ∀ p ∈ new, ∃ topic payload pid, p = Packets.publish ctx topic payload (some pid))
    (nonzero : ∀ pid ∈ new.filterMap publishedId, pid ≠ 0) : ∀ p ∈ new, Publishes ctx p := by
  intro p hp
  obtain ⟨topic, payload, pid, rfl⟩ := packets p hp
  have member : pid ∈ new.filterMap publishedId := List.mem_filterMap.mpr ⟨_, hp, rfl⟩
  exact ⟨topic, payload, ⟨pid, nonzero pid member⟩, rfl⟩

theorem Publishes.outgoing {p : Packet} (h : Publishes ctx p) : Outgoing ctx p := by
  obtain ⟨topic, payload, packetId, rfl⟩ := h
  exact .publish topic payload packetId

theorem publishOf_publish (qos : ctx.args.qos = 2) (topic : String) (payload : Wire.Bytes)
    (packetId : NonZeroU16) : ∃ m : Codec.Publish, m.qos = .exactlyOnce ∧
      m.packetId = some packetId ∧
      read ctx.proto (Packets.publish ctx topic payload (some packetId.val)) = some (.publish m) ∧
      publishOf ctx.proto (Packets.publish ctx topic payload (some packetId.val)) =
        some (packetId, m) := by
  obtain ⟨m, twice, id, readable⟩ := read_publish qos topic payload packetId
  refine ⟨m, twice, id, readable, ?_⟩
  rw [publishOf, readable]
  dsimp only
  rw [id]
  rfl

theorem length_publishOf (qos : ctx.args.qos = 2) {new : List Packet}
    (packets : ∀ p ∈ new, Publishes ctx p) :
    (new.filterMap (publishOf ctx.proto)).length = new.length := by
  induction new with
  | nil => rfl
  | cons p new ih =>
      obtain ⟨topic, payload, packetId, rfl⟩ := packets p List.mem_cons_self
      obtain ⟨m, -, -, -, one⟩ := publishOf_publish qos topic payload packetId
      rw [List.filterMap_cons, one, List.length_cons, List.length_cons,
        ih fun p hp => packets p (List.mem_cons_of_mem _ hp)]

theorem Inv.fill (inv : Inv ctx window maxInflight start s) (few : window ≤ 65535)
    (qos : ctx.args.qos = 2) (clock : Nat → UInt64) :
    Inv ctx window maxInflight start
      (s.send (Flow.fill ctx id clock { s.flow with pending := [] })) := by
  have acked : s.flow.out.qos > 0 := by
    rw [inv.qos]
    decide
  unfold Flow.fill
  dsimp only
  generalize (if ctx.args.pubInterval = 0 then ctx.args.maxInflight else 1) = turns
  have flow : ({ s.flow with pending := [] } : Flow).out.Inv window := inv.flow
  have kept := Keeps.fillLoop ctx id few clock turns 0 flow
  obtain ⟨new, filled⟩ := filled_fillLoop (f := { s.flow with pending := [] }) ctx id clock turns 0
    acked
  obtain ⟨ids, publishes⟩ := LateAcks.publishes_fillLoop ctx id few clock turns 0 flow
  generalize Flow.fillLoop ctx id clock turns 0 { s.flow with pending := [] } = flow'
    at kept filled publishes
  have pending : flow'.pending = new := filled.pending
  have pubAcks : flow'.stats.pubAcks = s.flow.stats.pubAcks := filled.pubAcks
  have idsNew : new.filterMap publishedId = ids := by
    rw [← pending, publishes.pending]
    rfl
  obtain ⟨exchange, rel, length⟩ := ids_published filled.packets
  have nonzero : ∀ pid ∈ new.filterMap publishedId, pid ≠ 0 := by
    intro pid hp
    rw [idsNew] at hp
    exact ((kept.inv.claimed pid).mp ((publishes.inflight pid).mpr (.inr hp))).1
  have packets := publishes_of_nonzero filled.packets nonzero
  have grown : (keys s.flow ++ ids).Perm (keys flow') := by
    have apart : (keys s.flow ++ ids).Nodup := List.nodup_append.mpr ⟨inv.flow.nodup,
      publishes.distinct, fun pid hp pid' hp' same => publishes.fresh pid' hp' (same ▸ hp)⟩
    refine (List.perm_ext_iff_of_nodup apart kept.inv.nodup).mpr fun pid => ?_
    rw [List.mem_append, publishes.inflight]
  have more : flow'.out.inflight.length = s.flow.out.inflight.length + new.length := by
    have lengths := grown.length_eq
    rw [List.length_append, List.length_map, List.length_map, ← idsNew, length] at lengths
    exact lengths.symm
  unfold State.send
  rw [pending]
  refine {
    flow := kept.inv
    qos := kept.qos.trans inv.qos
    broker := inv.broker
    outgoing := List.forall_mem_append.mpr ⟨inv.outgoing, fun p hp => (packets p hp).outgoing⟩
    answers := inv.answers
    onWay := ?_
    registered := ?_
    sent := ?_
    acked := ?_
    errors := filled.errors.trans inv.errors }
  · have old := inv.onWay
    unfold State.onWay at old ⊢
    dsimp only
    rw [List.filterMap_append, exchange, idsNew]
    refine List.Perm.trans ?_ grown
    rw [List.perm_iff_count] at old ⊢
    intro pid
    have counted := old pid
    simp only [List.count_append] at counted ⊢
    omega
  · dsimp only
    rw [List.filterMap_append, rel, List.append_nil]
    exact inv.registered
  · dsimp only
    rw [List.filterMap_append, List.filterMap_append, inv.sent, List.append_assoc]
  · dsimp only
    rw [List.filterMap_append, List.length_append, length_publishOf qos packets, pubAcks, more]
    have counted := inv.acked
    omega

/-! ## The client reads -/

/-- Taking the packet that was read first leaves the other ids, and the client has one of its
messages with the id in flight. -/
theorem Inv.present (inv : Inv ctx window maxInflight start s) {pkt : Packet} {rest : List Packet}
    (toClient : s.toClient = pkt :: rest) {pid : UInt16} (id : exchangeId pkt = some pid) :
    pid ∈ keys s.flow := by
  refine inv.onWay.subset ?_
  rw [State.onWay, toClient, List.filterMap_cons, id]
  exact List.mem_append_right _ List.mem_cons_self

/-- What the client does with a packet, if it keeps what it owes: with the packet goes one id from
the way, or it is that of a packet that is sent. -/
theorem Inv.read (inv : Inv ctx window maxInflight start s) {pkt : Packet} {rest : List Packet}
    (toClient : s.toClient = pkt :: rest) {pid : UInt16} (id : exchangeId pkt = some pid)
    {flow : Flow} (kept : flow.out.Inv window) (qos : flow.out.qos = s.flow.out.qos)
    (outgoing : ∀ p ∈ flow.pending, Outgoing ctx p)
    (unpublished : flow.pending.filterMap (publishOf ctx.proto) = [])
    (moved : (flow.pending.filterMap exchangeId ++ keys s.flow).Perm (pid :: keys flow))
    (answered : ∀ p, recId pkt = some p → p ∈ flow.pending.filterMap relId)
    (acked : flow.stats.pubAcks + flow.out.inflight.length =
      s.flow.stats.pubAcks + s.flow.out.inflight.length)
    (errors : flow.stats.errors = s.flow.stats.errors) :
    Inv ctx window maxInflight start { s.send flow with toClient := rest } where
  flow := kept
  qos := qos.trans inv.qos
  broker := inv.broker
  outgoing := List.forall_mem_append.mpr ⟨inv.outgoing, outgoing⟩
  answers p hp := inv.answers p (toClient ▸ List.mem_cons_of_mem pkt hp)
  onWay := by
    have old := inv.onWay
    rw [State.onWay, toClient, List.filterMap_cons, id, List.perm_iff_count] at old
    rw [List.perm_iff_count] at moved
    rw [State.onWay, List.perm_iff_count]
    intro p
    have before := old p
    have after := moved p
    simp only [State.send, List.filterMap_append, List.count_append, List.count_cons]
      at before after ⊢
    omega
  registered p hp := by
    have before := inv.registered p hp
    simp only [State.send, List.filterMap_append, List.mem_append]
    rw [toClient, List.filterMap_cons] at before
    rcases before with before | before
    · cases first : recId pkt with
      | none =>
          rw [first] at before
          exact .inl before
      | some q =>
          rw [first] at before
          rcases List.mem_cons.mp before with rfl | later
          · exact .inr (.inr (answered _ first))
          · exact .inl later
    · exact .inr (.inl before)
  sent := by
    simp only [State.send, List.filterMap_append, unpublished, List.append_nil]
    exact inv.sent
  acked := by
    simp only [State.send, List.filterMap_append, unpublished, List.append_nil]
    exact acked.trans inv.acked
  errors := errors.trans inv.errors

theorem Inv.clientReads (inv : Inv ctx window maxInflight start s) (nowUs : UInt64)
    {pkt : Packet} {rest : List Packet} (toClient : s.toClient = pkt :: rest) :
    ∃ flow, onIncoming ctx nowUs { s.flow with pending := [] } s.awaitingRel (classify pkt) =
        .ok (flow, s.awaitingRel) ∧
      Inv ctx window maxInflight start { s.send flow with toClient := rest } := by
  have answer : Answer pkt := inv.answers pkt (toClient ▸ List.mem_cons_self)
  have flow : ({ s.flow with pending := [] } : Flow).out.Inv window := inv.flow
  cases answer with
  | pubRec packetId reason =>
      -- the message stays in flight, and its PUBREL goes out
      have present : packetId.val ∈ keys s.flow := inv.present toClient rfl
      obtain ⟨msg, found⟩ := Option.isSome_iff_exists.mp (Assoc.isSome_lookup.mpr present)
      have released : Flow.onPubrec ctx packetId.val { s.flow with pending := [] } =
          { s.flow with
            out := { s.flow.out with
              inflight := s.flow.out.inflight.insert packetId.val { msg with pubrelSent := true } }
            pending := [Packets.ack ctx .pubRel packetId.val] } := by
        unfold Flow.onPubrec
        simp only [found]
        rfl
      have kept : Keeps window { s.flow with pending := [] } (Flow.onPubrec ctx packetId.val _) :=
        Keeps.onPubrec flow packetId.val
      rw [released] at kept
      have same : (keys s.flow).Perm
          ((s.flow.out.inflight.insert packetId.val { msg with pubrelSent := true }).map
            Prod.fst) := by
        refine (List.perm_ext_iff_of_nodup inv.flow.nodup kept.inv.nodup).mpr fun pid => ?_
        rw [Assoc.mem_keys_insert]
        exact ⟨.inr, fun h => h.elim (fun eq => eq ▸ present) fun h => h⟩
      have length := same.length_eq
      rw [List.length_map, List.length_map] at length
      refine ⟨_, congrArg (fun f => Except.ok (f, s.awaitingRel)) released, ?_⟩
      refine inv.read toClient rfl kept.inv rfl (List.forall_mem_singleton.mpr (.pubRel packetId))
        ?_ (same.cons packetId.val) (fun p first => ?_) ?_ rfl
      · rw [List.filterMap_cons, publishOf_pubRel]
        rfl
      · obtain rfl := Option.some.inj first
        exact List.mem_cons_self
      · rw [length]
  | pubComp packetId reason =>
      -- the message is no longer in flight
      have present : packetId.val ∈ keys s.flow := inv.present toClient rfl
      have completed : Flow.onAck packetId.val { s.flow with pending := [] } =
          { out := { s.flow.out with
              inflight := s.flow.out.inflight.erase packetId.val
              slots := s.flow.out.slots.release packetId.val }
            stats := s.flow.stats.inflightDec.acked
            pending := [] } := by
        unfold Flow.onAck
        rw [if_pos (Assoc.isSome_lookup.mpr present)]
        rfl
      have kept := Keeps.onAck flow packetId.val
      rw [completed] at kept
      have fewer : (keys s.flow).Perm
          (packetId.val :: (s.flow.out.inflight.erase packetId.val).map Prod.fst) := by
        have apart : packetId.val ∉ (s.flow.out.inflight.erase packetId.val).map Prod.fst :=
          fun h => (Assoc.mem_keys_erase.mp h).1 rfl
        refine (List.perm_ext_iff_of_nodup inv.flow.nodup
          (List.nodup_cons.mpr ⟨apart, kept.inv.nodup⟩)).mpr fun pid => ?_
        rw [List.mem_cons, Assoc.mem_keys_erase]
        constructor
        · exact fun h => or_iff_not_imp_left.mpr fun other => ⟨other, h⟩
        · exact fun h => h.elim (fun eq => eq ▸ present) fun h => h.2
      have length := fewer.length_eq
      rw [List.length_cons, List.length_map, List.length_map] at length
      refine ⟨_, congrArg (fun f => Except.ok (f, s.awaitingRel)) completed, ?_⟩
      refine inv.read toClient rfl kept.inv rfl (fun p hp => absurd hp List.not_mem_nil) rfl fewer
        (fun _ first => nomatch first) ?_ rfl
      change s.flow.stats.pubAcks + 1 + (s.flow.out.inflight.erase packetId.val).length = _
      omega

/-! ## The broker reads -/

/-- What the broker has answered to a packet, if it answers for what it takes: the first event of
the packet is `e`, and the others are answers. -/
theorem Inv.answered (inv : Inv ctx window maxInflight start s) {pkt : Packet} {rest : List Packet}
    (toBroker : s.toBroker = pkt :: rest) {packetId : NonZeroU16}
    (id : exchangeId pkt = some packetId.val) {e : Session.Inbound.Event}
    {w : Session.Inbound.InInflight} {ids : List NonZeroU16} {broker : Session.Inbound.State}
    (kept : Session.Inbound.Inv maxInflight broker)
    (answers : Answers w ids (s.broker.log ++ [e]) broker)
    (balance : ((write ctx.proto e).toList.filterMap exchangeId ++ ids.map Subtype.val).Perm
      (packetId.val :: s.broker.waiting.map Subtype.val))
    (cached : ∀ p ∈ w.cached, p ∈ s.broker.inInflight.cached ∧ relId pkt ≠ some p.val)
    (sent : Session.Inbound.accepted (s.broker.log ++ [e]) =
      Session.Inbound.accepted s.broker.log ++ (publishOf ctx.proto pkt).toList) :
    Inv ctx window maxInflight start { s with
      broker
      toBroker := rest
      toClient := s.toClient ++
        (broker.log.drop s.broker.log.length).filterMap (write ctx.proto) } := by
  obtain ⟨new, answered⟩ := answers
  obtain ⟨exchange, rec⟩ := ids_write ctx.proto answered.closed
  have logged : broker.log.drop s.broker.log.length = e :: new := by
    rw [answered.grown, List.append_assoc, List.drop_left]
    rfl
  have written : (e :: new).filterMap (write ctx.proto) =
      (write ctx.proto e).toList ++ new.filterMap (write ctx.proto) := by
    rw [List.filterMap_cons]
    cases write ctx.proto e <;> rfl
  rw [logged, written]
  exact {
    flow := inv.flow
    qos := inv.qos
    broker := kept
    outgoing := fun p hp => inv.outgoing p (toBroker ▸ List.mem_cons_of_mem pkt hp)
    answers := by
      rw [← written]
      refine List.forall_mem_append.mpr ⟨inv.answers, fun p hp => ?_⟩
      obtain ⟨e', -, he'⟩ := List.mem_filterMap.mp hp
      exact write_answer he'
    onWay := by
      have old := inv.onWay
      have moved := answered.balance.map Subtype.val
      rw [State.onWay, toBroker, List.filterMap_cons, id, List.perm_iff_count] at old
      rw [List.map_append, List.perm_iff_count] at moved
      rw [List.perm_iff_count] at balance
      rw [State.onWay, List.perm_iff_count]
      intro p
      have before := old p
      have first := balance p
      have later := moved p
      simp only [List.filterMap_append, exchange, List.count_append, List.count_cons]
        at before first later ⊢
      omega
    registered := fun p hp => by
      simp only [List.filterMap_append, rec, List.mem_append, List.mem_map]
      rcases answered.registered p hp with old | new
      · obtain ⟨there, other⟩ := cached p old
        rcases inv.registered p there with client | broker
        · exact .inl (.inl client)
        · rw [toBroker, List.filterMap_cons] at broker
          cases first : relId pkt with
          | none =>
              rw [first] at broker
              exact .inr broker
          | some q =>
              rw [first] at broker
              rcases List.mem_cons.mp broker with rfl | later
              · exact absurd first other
              · exact .inr later
      · exact .inl (.inr (.inr ⟨p, new, rfl⟩))
    sent := by
      have taken : Session.Inbound.accepted broker.log =
          Session.Inbound.accepted (s.broker.log ++ [e]) := by
        rw [answered.grown, Session.Inbound.accepted, List.filterMap_append]
        change _ ++ Session.Inbound.accepted new = _
        rw [answered.taken, List.append_nil]
        rfl
      rw [taken, sent, inv.sent, toBroker, List.filterMap_cons, List.append_assoc]
      cases publishOf ctx.proto pkt <;> rfl
    acked := inv.acked
    errors := inv.errors }

/-- The id of a packet that is read by the broker is not that of another one. -/
theorem Inv.alone (inv : Inv ctx window maxInflight start s) {pkt : Packet} {rest : List Packet}
    (toBroker : s.toBroker = pkt :: rest) {pid : UInt16} (id : exchangeId pkt = some pid) :
    pid ∉ rest.filterMap exchangeId ++ s.broker.waiting.map Subtype.val ++
      s.toClient.filterMap exchangeId := by
  have distinct : s.onWay.Nodup := inv.onWay.nodup_iff.mpr inv.flow.nodup
  rw [State.onWay, toBroker, List.filterMap_cons, id] at distinct
  exact (List.nodup_cons.mp distinct).1

/-- The registered packet ids are on the way, and not with the packet that is read. -/
theorem Inv.cached_onWay (inv : Inv ctx window maxInflight start s) {pkt : Packet}
    {rest : List Packet} (toBroker : s.toBroker = pkt :: rest) (rel : relId pkt = none) :
    ∀ p ∈ s.broker.inInflight.cached,
      p.val ∈ rest.filterMap exchangeId ++ s.toClient.filterMap exchangeId := by
  intro p hp
  have registered := inv.registered p hp
  rw [toBroker, List.filterMap_cons, rel] at registered
  rw [List.mem_append]
  rcases registered with client | broker
  · right
    obtain ⟨q, member, hq⟩ := List.mem_filterMap.mp client
    refine List.mem_filterMap.mpr ⟨q, member, ?_⟩
    cases q <;> first | exact hq | cases hq
  · left
    obtain ⟨q, member, hq⟩ := List.mem_filterMap.mp broker
    refine List.mem_filterMap.mpr ⟨q, member, ?_⟩
    cases q <;> first | exact hq | cases hq

/-- A publish that the broker reads has a packet id that it does not know, and there is room for
it. -/
theorem Inv.unknown (inv : Inv ctx window maxInflight start s) (few : window ≤ 65535)
    (room : window ≤ Session.Inbound.SESSION_QOS2_PENDING_CAP + maxInflight.toNat)
    {pkt : Packet} {rest : List Packet} (toBroker : s.toBroker = pkt :: rest)
    {packetId : NonZeroU16} (id : exchangeId pkt = some packetId.val) (rel : relId pkt = none) :
    packetId ∉ s.broker.inInflight.cached ∧ packetId ∉ s.broker.waiting ∧
      (s.broker.inInflight.isFull = true →
        s.broker.qos2Pending.length < Session.Inbound.SESSION_QOS2_PENDING_CAP) := by
  have alone := inv.alone toBroker id
  have others := inv.cached_onWay toBroker rel
  rw [List.mem_append, List.mem_append, not_or, not_or] at alone
  obtain ⟨⟨notSent, notWaiting⟩, notAnswered⟩ := alone
  refine ⟨fun h => ?_, fun h => notWaiting (List.mem_map_of_mem h), fun full => ?_⟩
  · exact (List.mem_append.mp (others packetId h)).elim notSent notAnswered
  · have most : s.broker.inInflight.cached.card ≤
        (rest.filterMap exchangeId ++ s.toClient.filterMap exchangeId).length := by
      rw [← Finset.card_image_of_injective s.broker.inInflight.cached Subtype.val_injective]
      refine le_trans (Finset.card_le_card fun p hp => ?_) (List.toFinset_card_le _)
      obtain ⟨q, member, rfl⟩ := Finset.mem_image.mp hp
      exact List.mem_toFinset.mpr (others q member)
    have many : maxInflight.toNat ≤ s.broker.inInflight.cached.card := by
      rw [← inv.broker.core.limit]
      simpa [Session.Inbound.InInflight.isFull] using full
    have length := inv.onWay.length_eq
    have inflight := inv.flow.length_le few
    rw [State.onWay, toBroker, List.filterMap_cons, id] at length
    simp only [List.length_append, List.length_cons, List.length_map,
      Session.Inbound.State.waiting] at length most
    omega

/-- What the broker has handed over is the first of what was published. -/
def InOrder (ctx : Ctx) (s : State) : Prop :=
  HandedFirst (s.written.filterMap (publishOf ctx.proto)) s.broker

theorem Inv.inOrder (inv : Inv ctx window maxInflight start s) : InOrder ctx s := by
  have fifo : Session.Inbound.accepted s.broker.log =
      Session.Inbound.handed s.broker.log ++ s.broker.qos2Pending := inv.broker.core.fifo
  refine ⟨s.broker.qos2Pending ++ s.toBroker.filterMap (publishOf ctx.proto), ?_⟩
  rw [inv.sent, fifo, List.append_assoc]

/-- What holds after a packet was processed. -/
def Processed (ctx : Ctx) (window : Nat) (maxInflight : UInt16) (start : Stats) (s : State)
    (rest : List Packet) : EStateM.Result Session.Inbound.Reason Session.Inbound.State Unit → Prop
  | .ok _ broker => Inv ctx window maxInflight start { s with
      broker
      toBroker := rest
      toClient := s.toClient ++
        (broker.log.drop s.broker.log.length).filterMap (write ctx.proto) }
  | .error _ broker => InOrder ctx { s with broker, up := false }

theorem Inv.brokerReads (inv : Inv ctx window maxInflight start s) (few : window ≤ 65535)
    (qos : ctx.args.qos = 2)
    (room : window ≤ Session.Inbound.SESSION_QOS2_PENDING_CAP + maxInflight.toNat)
    {pkt : Packet} {rest : List Packet} (toBroker : s.toBroker = pkt :: rest)
    {packet : Session.Inbound.Packet} (readable : EndToEnd.read ctx.proto pkt = some packet) :
    Processed ctx window maxInflight start s rest (processPacket world packet s.broker) := by
  have spec : Triple (Session.Inbound.Inv maxInflight) (processPacket world packet) _ _ :=
    Session.Inbound.processPacket_spec packet
  have kept := spec s.broker inv.broker
  have outgoing := inv.outgoing pkt (toBroker ▸ List.mem_cons_self)
  cases outgoing with
  | publish topic payload packetId =>
      obtain ⟨m, twice, id, read, published⟩ := publishOf_publish qos topic payload packetId
      obtain rfl : Session.Inbound.Packet.publish m = packet := Option.some.inj (read ▸ readable)
      obtain ⟨fresh, new, short⟩ := inv.unknown few room toBroker rfl rfl
      have process : processPacket world (.publish m) =
          Session.Inbound.processQos2 world packetId m := by
        change Session.Inbound.processPublish world m = _
        rw [Session.Inbound.processPublish, twice, id]
        rfl
      have answers : Triple _ (Session.Inbound.processQos2 world packetId m) _ _ :=
        Session.Inbound.processQos2_answers inv.broker fresh new short
      replace answers := answers s.broker rfl
      rw [process] at kept ⊢
      rcases result : Session.Inbound.processQos2 world packetId m s.broker with
        ⟨⟨⟩, broker⟩ | ⟨reason, broker⟩
      · rw [result] at kept answers
        refine inv.answered toBroker rfl kept answers ?_ (fun p hp => ⟨hp, nofun⟩) ?_
        · rw [List.map_append, List.map_singleton]
          exact List.perm_append_singleton _ _
        · rw [Session.Inbound.accepted_accepted, published]
          rfl
      · rw [result] at answers
        refine answers.trans ?_
        rw [inv.sent, toBroker, List.filterMap_cons, published]
        exact ⟨rest.filterMap (publishOf ctx.proto), by rw [List.append_assoc]; rfl⟩
  | pubRel packetId =>
      obtain rfl := read_pubRel readable
      have answers : Triple _ (Session.Inbound.processPublishRelease world packetId) _ _ :=
        Session.Inbound.processPublishRelease_answers inv.broker
      replace answers := answers s.broker rfl
      have process : processPacket world (.publishRelease packetId) =
          Session.Inbound.processPublishRelease world packetId := rfl
      rw [process] at kept ⊢
      rcases result : Session.Inbound.processPublishRelease world packetId s.broker with
        ⟨⟨⟩, broker⟩ | ⟨reason, broker⟩
      · rw [result] at kept answers
        refine inv.answered toBroker rfl kept answers ?_ (fun p hp => ?_) ?_
        · cases ctx.proto <;> exact .refl _
        · obtain ⟨other, there⟩ := Finset.mem_erase.mp hp
          exact ⟨there, fun same => other (Subtype.ext (Option.some.inj same)).symm⟩
        · rw [Session.Inbound.accepted_pubrel, publishOf_pubRel]
          exact (List.append_nil _).symm
      · rw [result] at answers
        refine answers.trans ?_
        rw [inv.sent]
        exact List.prefix_append _ _

/-! ## A whole run -/

/-- In every reachable state, what was handed over is in order; while the connection is up, the
invariant holds. -/
structure Reached (ctx : Ctx) (window : Nat) (maxInflight : UInt16) (start : Stats) (s : State) :
    Prop where
  inOrder : InOrder ctx s
  up : s.up = true → Inv ctx window maxInflight start s

theorem Inv.reached (inv : Inv ctx window maxInflight start s) :
    Reached ctx window maxInflight start s := ⟨inv.inOrder, fun _ => inv⟩

theorem Reached.step (reached : Reached ctx window maxInflight start s) (few : window ≤ 65535)
    (qos : ctx.args.qos = 2)
    (room : window ≤ Session.Inbound.SESSION_QOS2_PENDING_CAP + maxInflight.toNat) {a : Action}
    (inTime : InTime ctx s a) (stepped : step ctx id world s a = some s') :
    Reached ctx window maxInflight start s' := by
  unfold EndToEnd.step at stepped
  split at stepped
  · rename_i up
    have inv := reached.up up
    have ended : Reached ctx window maxInflight start { s with up := false } :=
      ⟨reached.inOrder, fun h => nomatch h⟩
    cases a with
    | fill clock =>
        cases stepped
        exact (inv.fill few qos clock).reached
    | sweepTimeouts walk nowUs =>
        cases stepped
        have nothing : s.flow.sweepTimeouts ctx walk nowUs = s.flow := LateAcks.sweep_inTime inTime
        rw [nothing]
        exact inv.reached
    | clientReads nowUs =>
        dsimp only at stepped
        split at stepped
        · cases stepped
        · rename_i pkt rest toClient
          obtain ⟨flow, handled, kept⟩ := inv.clientReads nowUs toClient
          rw [handled] at stepped
          cases stepped
          exact kept.reached
    | brokerReads =>
        dsimp only at stepped
        split at stepped
        · cases stepped
        · rename_i pkt rest toBroker
          split at stepped
          · cases stepped
            exact ended
          · rename_i packet readable
            have processed : Processed ctx _ maxInflight start s rest (processPacket world _ _) :=
              inv.brokerReads few qos room toBroker readable
            split at stepped
            · rename_i broker result
              rw [result] at processed
              cases stepped
              exact Inv.reached processed
            · rename_i reason broker result
              rw [result] at processed
              cases stepped
              exact ⟨processed, fun h => nomatch h⟩
    | down =>
        cases stepped
        exact ended
  · cases stepped

theorem reached_init (ctx : Ctx) (no : Nat) (receiveMax : Option UInt16) (start : Stats)
    (maxInflight : UInt16) (qos : ctx.args.qos = 2) :
    Reached ctx (Outbound.new ctx no receiveMax).slots.capacity maxInflight start
      (.init ctx no receiveMax start maxInflight) :=
  Inv.reached {
    flow := Outbound.inv_new ctx no receiveMax
    qos := qos
    broker := Session.Inbound.inv_new maxInflight
    outgoing := fun _ hp => absurd hp List.not_mem_nil
    answers := fun _ hp => absurd hp List.not_mem_nil
    onWay := .refl _
    registered := fun p hp => absurd hp (Finset.notMem_empty p)
    sent := rfl
    acked := rfl
    errors := rfl }

/-- What is acknowledged was handed over: the publishes that were not are in flight. -/
theorem Inv.acked_le (inv : Inv ctx window maxInflight start s) (qos : ctx.args.qos = 2) :
    s.flow.stats.pubAcks ≤ start.pubAcks + (Session.Inbound.handed s.broker.log).length := by
  have fifo : Session.Inbound.accepted s.broker.log =
      Session.Inbound.handed s.broker.log ++ s.broker.qos2Pending := inv.broker.core.fifo
  have sent := congrArg List.length inv.sent
  have inflight := inv.onWay.length_eq
  have counted := inv.acked
  have few : (s.toBroker.filterMap (publishOf ctx.proto)).length ≤
      (s.toBroker.filterMap exchangeId).length := by
    have outgoing := inv.outgoing
    generalize s.toBroker = l at outgoing
    induction l with
    | nil => exact Nat.le_refl _
    | cons p l ih =>
        have later := ih fun q hq => outgoing q (List.mem_cons_of_mem _ hq)
        cases outgoing p List.mem_cons_self with
        | publish topic payload packetId =>
            obtain ⟨m, -, -, -, published⟩ := publishOf_publish qos topic payload packetId
            rw [List.filterMap_cons, published]
            exact Nat.succ_le_succ later
        | pubRel packetId =>
            rw [List.filterMap_cons, publishOf_pubRel]
            exact Nat.le_succ_of_le later
  rw [fifo] at sent
  simp only [State.onWay, Session.Inbound.State.waiting, List.length_append, List.length_map]
    at sent inflight
  omega

/-- Where nothing is on the way, nothing waits with the broker. -/
theorem Inv.idle (inv : Inv ctx window maxInflight start s) (some : 0 < maxInflight.toNat)
    (toBroker : s.toBroker = []) (toClient : s.toClient = []) :
    s.broker.qos2Pending = [] ∧ s.flow.out.inflight = [] := by
  have registered := inv.registered
  have onWay := inv.onWay
  rw [toBroker, toClient] at registered
  rw [State.onWay, toBroker, toClient] at onWay
  have none : s.broker.inInflight.cached = ∅ :=
    Finset.eq_empty_of_forall_notMem fun p hp =>
      (registered p hp).elim List.not_mem_nil List.not_mem_nil
  have empty : s.broker.qos2Pending = [] := by
    by_contra waits
    have full := inv.broker.full waits
    rw [Session.Inbound.InInflight.isFull, none, inv.broker.core.limit, Finset.card_empty,
      decide_eq_true_eq] at full
    omega
  rw [Session.Inbound.State.waiting, empty] at onWay
  exact ⟨empty, List.map_eq_nil_iff.mp onWay.symm.eq_nil⟩

end

/-- A client of the benchmark that publishes at QoS 2, with a window that the broker has room for,
against the session of the broker, over any order of their steps in which no sweep finds a message
too old.  The broker hands over what the client has published in the order in which it was
published, each message once at most.  While the connection is up no message is lost, the client
sees no acknowledgement that it does not expect, and counts a message as acknowledged only if it was
handed over; and where no packet is on its way, every message was handed over and acknowledged. -/
theorem exactly_once {ctx : Ctx} {id : String} {world : Session.Inbound.World} {no : Nat}
    {receiveMax : Option UInt16} {start : Stats} {maxInflight : UInt16} {actions : List Action}
    {s : State} (valid : ctx.args.validate = .ok ()) (qos : ctx.args.qos = 2)
    (room : (Outbound.new ctx no receiveMax).slots.capacity ≤
      Session.Inbound.SESSION_QOS2_PENDING_CAP + maxInflight.toNat)
    (inTime : Machine.Guarded (step ctx id world) (InTime ctx)
      (.init ctx no receiveMax start maxInflight) actions)
    (ran : Machine.run (step ctx id world) (.init ctx no receiveMax start maxInflight) actions =
      some s) :
    let published := s.written.filterMap (publishOf ctx.proto)
    let handed := Session.Inbound.handed s.broker.log
    handed <+: published ∧
    (s.up = true →
      published = handed ++ (s.broker.qos2Pending ++ s.toBroker.filterMap (publishOf ctx.proto)) ∧
      s.flow.stats.errors = start.errors ∧
      s.flow.stats.pubAcks + s.flow.out.inflight.length = start.pubAcks + published.length ∧
      s.flow.stats.pubAcks ≤ start.pubAcks + handed.length ∧
      (0 < maxInflight.toNat → s.toBroker = [] → s.toClient = [] →
        handed = published ∧ s.flow.stats.pubAcks = start.pubAcks + published.length)) := by
  have few := (capacity_new valid no receiveMax).2
  have reached : Reached ctx _ maxInflight start s :=
    Machine.invariant_guarded
      (fun _ _ _ before inTime stepped => before.step few qos room inTime stepped) inTime ran
      (reached_init ctx no receiveMax start maxInflight qos)
  refine ⟨reached.inOrder, fun up => ?_⟩
  have inv := reached.up up
  have fifo : Session.Inbound.accepted s.broker.log =
      Session.Inbound.handed s.broker.log ++ s.broker.qos2Pending := inv.broker.core.fifo
  have sent := inv.sent
  rw [fifo, List.append_assoc] at sent
  refine ⟨sent, inv.errors, inv.acked, inv.acked_le qos, fun some toBroker toClient => ?_⟩
  obtain ⟨waits, inflight⟩ := inv.idle some toBroker toClient
  rw [waits, toBroker] at sent
  have counted := inv.acked
  rw [inflight] at counted
  exact ⟨by simpa using sent.symm, counted⟩

/-- A client that publishes at QoS 2 and waits for half a minute. -/
def patient : Ctx :=
  { publisher with
    args := { publisher.args with qos := 2, ackTimeout := 30, v5PubrelReason := 0 } }

/-- A broker that takes every message. -/
def willing : Session.Inbound.World := ⟨fun _ _ => .ok .success, fun _ => .ok ()⟩

/-- One message, from its PUBLISH to its PUBCOMP, with a sweep when it has waited for 30 seconds. -/
def oneMessage : List Action :=
  [.fill fun _ => 0, .brokerReads, .sweepTimeouts .inOrder 30000000, .clientReads 30000000,
    .brokerReads, .clientReads 30000000]

theorem exactly_once_message : ∃ s,
    Machine.run (step patient "c" willing) (.init patient 0 none {} 16) oneMessage = some s ∧
    Session.Inbound.handed s.broker.log = s.written.filterMap (publishOf patient.proto) ∧
    s.flow.stats.pubAcks = 1 := by
  have ran : Machine.run (step patient "c" willing) (.init patient 0 none {} 16) oneMessage =
      some _ := rfl
  have inTime : Machine.Guarded (step patient "c" willing) (InTime patient)
      (.init patient 0 none {} 16) oneMessage := by
    decide +kernel
  have final := (exactly_once (by decide) rfl (by decide) inTime ran).2 rfl
  obtain ⟨handed, acked⟩ := final.2.2.2.2 (by decide) rfl rfl
  exact ⟨_, ran, handed, acked⟩

end OxiMqtt.Bench.EndToEnd

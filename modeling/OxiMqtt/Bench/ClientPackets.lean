import OxiMqtt.Bench.Encode
import OxiMqtt.Codec.V3.Encode
import OxiMqtt.Codec.V5.Codec

/-!
# The broker reads what the benchmark sends

The packets of the benchmark against those of the two codecs of the broker, which know nothing of
each other.

* `Packet.v3`, `Packet.v5`: the packet of the broker that a client packet stands for.  There is none
  where an id is zero, or where a v5 reason is not one of the broker's; and a password without a
  user name goes with an empty user name.
* `Packet.decode_v3`, `Packet.decode_v5`: the content decoders of the broker read a body as that
  packet, and refuse it where there is none.
* `client_frame_read`: so do the codecs with a whole frame, and they leave what is behind it.
-/

namespace OxiMqtt.Bench

open Wire Wire.Reader Wire.ByteWriter
open Codec (ByteString NonZeroU16 PrimEnum DecodeError toU8)

/-! ## Which packets of the broker are meant -/

/-- The QoS of the broker. -/
def QoS.broker : QoS → Codec.QoS
  | atMostOnce => .atMostOnce
  | atLeastOnce => .atLeastOnce
  | exactlyOnce => .exactlyOnce

/-- The will of a v3 CONNECT. -/
def Will.v3 (w : Will) : Codec.V3.LastWill where
  qos := w.qos.broker
  retain := w.retain
  topic := w.topic
  message := w.payload

/-- The will of a v5 CONNECT. -/
def Will.v5 (w : Will) : Codec.V5.LastWill where
  qos := w.qos.broker
  retain := w.retain
  topic := w.topic
  message := w.payload
  willDelayIntervalSec := none
  correlationData := none
  messageExpiryInterval := none
  contentType := none
  userProperties := []
  isUtf8Payload := none
  responseTopic := none

/-- A v3 CONNECT. -/
def Connect.v3 (c : Connect) : Codec.V3.Connect where
  protocol := Codec.MQTT_LEVEL_311
  cleanSession := c.clean
  keepAlive := c.keepalive
  lastWill := c.will.map Will.v3
  clientId := c.clientId
  username := c.sentUsername
  password := c.password
  cert := none

/-- A v5 CONNECT; a session that does not expire on its own is one that expires after zero
seconds. -/
def Connect.v5 (c : Connect) : Codec.V5.Connect where
  cleanStart := c.clean
  keepAlive := c.keepalive
  sessionExpiryIntervalSecs := c.sessionExpiry.getD 0
  authMethod := none
  authData := none
  requestProblemInfo := true
  requestResponseInfo := false
  receiveMax := none
  topicAliasMax := 0
  userProperties := []
  maxPacketSize := none
  lastWill := c.will.map Will.v5
  clientId := c.clientId
  username := c.sentUsername
  password := c.password
  cert := none

/-- A PUBLISH with the properties that the codec of a version returns. -/
def Publish.broker (p : Publish) (properties : Option Codec.PublishProperties) :
    Codec.Publish where
  dup := p.dup
  retain := p.retain
  qos := p.qos.broker
  topic := p.topic
  packetId := p.pid.bind NonZeroU16.new
  payload := p.payload
  properties := properties

/-- The options of a v5 topic filter. -/
def SubOpts.v5 (opts : SubOpts) : Codec.V5.SubscriptionOptions where
  qos := opts.qos.broker
  noLocal := false
  retainAsPublished := false
  retainHandling := .atSubscribe

/-- A v5 acknowledgment, if the id is not zero and the reason is one of the broker's. -/
def ackOf {ρ : Type} [PrimEnum ρ] (pid : UInt16) (reason : UInt8) :
    Option (Codec.V5.PublishAckOf ρ) := do
  let packetId ← NonZeroU16.new pid
  let reasonCode ← PrimEnum.table.lookup reason
  return { packetId, reasonCode, properties := [], reasonString := none }

namespace Packet

/-- The packet of the v3 codec that a client packet stands for. -/
def v3 : Packet → Option Codec.V3.Packet
  | connect c => some (.connect c.v3)
  | publish p => some (.publish (p.broker none))
  | pubAck pid _ => (NonZeroU16.new pid).map .publishAck
  | pubRec pid _ => (NonZeroU16.new pid).map .publishReceived
  | pubRel pid _ => (NonZeroU16.new pid).map .publishRelease
  | pubComp pid _ => (NonZeroU16.new pid).map .publishComplete
  | subscribe pid filters =>
      (NonZeroU16.new pid).map (.subscribe · (filters.map fun f => (f.1, f.2.qos.broker)))
  | unsubscribe pid filters => (NonZeroU16.new pid).map (.unsubscribe · filters)
  | pingReq => some .pingRequest
  | disconnect _ => some .disconnect
  | connAck _ _ _ | subAck _ _ | unsubAck _ _ | pingResp => none

/-- The packet of the v5 codec that a client packet stands for. -/
def v5 : Packet → Option Codec.V5.Packet
  | connect c => some (.connect c.v5)
  | publish p => some (.publish (p.broker (some .default)))
  | pubAck pid reason => (ackOf pid reason).map .publishAck
  | pubRec pid reason => (ackOf pid reason).map .publishReceived
  | pubRel pid reason => (ackOf pid reason).map .publishRelease
  | pubComp pid reason => (ackOf pid reason).map .publishComplete
  | subscribe pid filters => (NonZeroU16.new pid).map fun packetId => .subscribe
      { packetId, id := none, userProperties := [],
        topicFilters := filters.map fun f => (f.1, f.2.v5) }
  | unsubscribe pid filters => (NonZeroU16.new pid).map fun packetId => .unsubscribe
      { packetId, userProperties := [], topicFilters := filters }
  | pingReq => some .pingRequest
  | disconnect reason => (PrimEnum.table.lookup reason).map fun code => .disconnect (.new code)
  | connAck _ _ _ | subAck _ _ | unsubAck _ _ | pingResp => none

/-- The packets that a client sends. -/
def FromClient : Packet → Prop
  | connAck _ _ _ | subAck _ _ | unsubAck _ _ | pingResp => False
  | _ => True

/-- Every string and every binary field has at most 65535 bytes. -/
def Fits : Packet → Prop
  | connect c => Codec.Fits c.clientId ∧
      (∀ w ∈ c.will, Codec.Fits w.topic ∧ Codec.Fits w.payload) ∧
      (∀ u ∈ c.username, Codec.Fits u) ∧ ∀ b ∈ c.password, Codec.Fits b
  | publish p => Codec.Fits p.topic
  | subscribe _ filters => ∀ f ∈ filters, Codec.Fits f.1
  | unsubscribe _ filters => ∀ f ∈ filters, Codec.Fits f
  | _ => True

/-- A client packet with fields that fit, and a client id in a CONNECT. -/
structure Sendable (p : Packet) : Prop where
  client : p.FromClient
  fits : p.Fits
  named : ∀ c, p = connect c → ByteString.isEmpty c.clientId = false

end Packet

/-! ## Fields that both codecs of the broker have -/

/-- What a content decoder answers: the packet, with nothing left, or that there is none. -/
def answer {π : Type} (q : Option π) : Outcome DecodeError (π × Bytes) :=
  match q with
  | some q => .ok (q, [])
  | none => .err .malformedPacket

theorem new_cases (pid : UInt16) :
    pid = 0 ∧ NonZeroU16.new pid = none ∨ ∃ id, id.val = pid ∧ NonZeroU16.new pid = some id := by
  by_cases zero : pid = 0
  · exact .inl ⟨zero, dif_neg fun nonzero => nonzero zero⟩
  · exact .inr ⟨⟨pid, zero⟩, rfl, dif_pos zero⟩

/-- The id zero is refused. -/
theorem decode_zero {α : Type} (f : NonZeroU16 → Reader DecodeError α) (more : Bytes) :
    ((Codec.decode : Reader DecodeError NonZeroU16) >>= f) (be16 0 ++ more) =
      .err .malformedPacket := by
  have word : (Codec.decode : Reader DecodeError UInt16) (be16 0 ++ more) = .ok (0, more) :=
    Codec.decodes_u16 0 more
  have id : (Codec.decode : Reader DecodeError NonZeroU16) (be16 0 ++ more) =
      .err .malformedPacket := (bind_of_ok word).trans rfl
  rw [bind_apply, id]
  rfl

theorem QoS.toU8_broker (qos : QoS) : toU8 qos.broker = qos.asU8 := by
  cases qos <;> rfl

/-- The flag byte is the one the broker would write. -/
theorem Connect.flags_eq (c : Connect) :
    c.flags = Codec.ConnectFlags.build c.sentUsername.isSome c.password.isSome
      (c.will.map fun w => (w.retain, w.qos.broker)) c.clean := by
  unfold Connect.flags
  rcases c.will with _ | ⟨topic, payload, qos, retain⟩
  · cases c.clean <;> cases c.sentUsername.isSome <;> cases c.password.isSome <;> rfl
  · rw [Option.map_some]
    cases c.clean <;> cases c.sentUsername.isSome <;> cases c.password.isSome <;> cases retain <;>
      simp only [Bool.false_eq_true, if_true, if_false] <;> cases qos <;> rfl

/-- An empty user name fits. -/
theorem Connect.fits_sentUsername {c : Connect} (fits : ∀ u ∈ c.username, Codec.Fits u) :
    ∀ u ∈ c.sentUsername, Codec.Fits u := by
  intro u hu
  unfold Connect.sentUsername at hu
  rcases user : c.username with _ | name
  · rcases pass : c.password with _ | password
    · rw [user, pass] at hu
      cases hu
    · rw [user, pass] at hu
      cases hu
      exact show ByteString.len "" ≤ 65535 by decide
  · rw [user] at hu
    cases hu
    exact fits _ user

theorem QoS.broker_eq_iff (qos : QoS) : qos.broker = .atMostOnce ↔ qos = .atMostOnce := by
  cases qos <;> decide

/-- The id of a PUBLISH that was encoded is written as the broker writes it. -/
theorem Publish.packetId_broker {p : Publish} (id : p.HasId)
    (properties : Option Codec.PublishProperties) :
    ((p.broker properties).packetId.map fun id => be16 id.val).getD [] = (p.pid.map be16).getD [] ∧
      ((p.broker properties).packetId.isSome = true ↔ (p.broker properties).qos ≠ .atMostOnce) := by
  have same : p.pid.map be16 = (p.broker properties).packetId.map (fun id => be16 id.val) ∧
      (p.broker properties).packetId.isSome = p.pid.isSome := by
    unfold Publish.broker
    rcases pid : p.pid with _ | pid'
    · exact ⟨rfl, rfl⟩
    · have nonzero : pid' ≠ 0 := by
        intro zero
        rw [zero] at pid
        exact id.2 pid
      have new : NonZeroU16.new pid' = some ⟨pid', nonzero⟩ := dif_pos nonzero
      dsimp only [Option.bind_some]
      rw [new]
      exact ⟨rfl, rfl⟩
  rw [same.1, same.2, id.1]
  exact ⟨rfl, not_congr p.qos.broker_eq_iff.symm⟩

/-! ## Bodies of v3 -/

theorem Connect.bytes_v3 (c : Connect) : c.bytes .v3 = c.v3.image := by
  have flags : c.v3.flags = c.flags := by
    rw [c.flags_eq]
    unfold Connect.v3 Codec.V3.Connect.flags
    rw [Option.map_map]
    rfl
  have will : (c.v3.lastWill.map Codec.V3.LastWill.image).getD [] =
      (c.will.map (Will.bytes .v3)).getD [] := by
    rw [show c.v3.lastWill = c.will.map Will.v3 from rfl, Option.map_map]
    rfl
  rw [Codec.V3.Connect.image, flags, will]
  rfl

theorem publishFlags_v3 (p : Publish) (properties : Option Codec.PublishProperties) :
    publishFlags p = Codec.V3.publishByte (p.broker properties) := by
  unfold publishFlags Codec.V3.publishByte Publish.broker
  dsimp only
  cases p.qos <;> cases p.dup <;> cases p.retain <;> rfl

theorem filters_v3 (filters : List (ByteString × SubOpts)) :
    filters.flatMap filterBytes =
      (filters.map fun f => (f.1, f.2.qos.broker)).flatMap Codec.V3.filterImage := by
  rw [List.flatMap_map]
  congr 1
  funext f
  rw [filterBytes, Codec.V3.filterImage, QoS.toU8_broker]

theorem reasonBytes_v3 (reason : UInt8) : reasonBytes .v3 reason = [] := by
  rw [reasonBytes, if_neg (by simp)]

namespace Packet

/-- A body that is the content of a packet of the broker is read as that packet. -/
theorem read_v3 {first : UInt8} {content : Bytes} {q : Codec.V3.Packet}
    (header : q.firstByte = first) (body : q.content = content) (fits : q.Fits)
    (acceptable : q.Acceptable) (same : q.reread = q) :
    Codec.V3.decodePacket first content = answer (some q) := by
  have run := Codec.V3.Packet.decodes fits acceptable
  rw [header, body, same] at run
  exact run

/-- The v3 codec reads the body of a client packet as the packet it stands for. -/
theorem decode_v3 {p : Packet} (encodable : p.Encodable) (sendable : p.Sendable) :
    Codec.V3.decodePacket p.header (p.body .v3) = answer p.v3 := by
  rcases sendable with ⟨client, fits, named⟩
  have ack : ∀ {pid : UInt16} {first : UInt8} {f : NonZeroU16 → Codec.V3.Packet} (reason : UInt8),
      pid ≠ 0 → (∀ id, (f id).firstByte = first ∧ (f id).content = be16 id.val ∧ (f id).Fits ∧
        (f id).Acceptable ∧ (f id).reread = f id) →
      Codec.V3.decodePacket first (be16 pid ++ reasonBytes .v3 reason) =
        answer ((NonZeroU16.new pid).map f) := by
    intro pid first f reason nonzero law
    have new : NonZeroU16.new pid = some ⟨pid, nonzero⟩ := dif_pos nonzero
    rcases law ⟨pid, nonzero⟩ with ⟨header, content, fits, acceptable, same⟩
    rw [reasonBytes_v3, List.append_nil, new]
    exact read_v3 header content fits acceptable same
  cases p with
  | connect c =>
      have user := Connect.fits_sentUsername fits.2.2.1
      have will : ∀ w ∈ c.v3.lastWill, Codec.Fits w.topic ∧ Codec.Fits w.message := by
        intro w hw
        rcases Option.map_eq_some_iff.mp hw with ⟨sent, hsent, rfl⟩
        exact fits.2.1 sent hsent
      refine read_v3 rfl c.bytes_v3.symm ⟨fits.1, will, user, fits.2.2.2⟩ ⟨fun empty => ?_, rfl⟩ rfl
      exact absurd ((named c rfl).symm.trans empty) Bool.false_ne_true
  | publish p =>
      have id := Publish.packetId_broker encodable none
      refine read_v3 (publishFlags_v3 p none).symm ?_ ⟨fits, id.2⟩ rfl rfl
      rw [Codec.V3.Packet.content, Codec.V3.publishIdImage, id.1]
      rfl
  | pubAck pid reason =>
      exact ack reason encodable fun _ => ⟨rfl, rfl, trivial, trivial, rfl⟩
  | pubRec pid reason =>
      exact ack reason encodable fun _ => ⟨rfl, rfl, trivial, trivial, rfl⟩
  | pubRel pid reason =>
      exact ack reason encodable fun _ => ⟨rfl, rfl, trivial, trivial, rfl⟩
  | pubComp pid reason =>
      exact ack reason encodable fun _ => ⟨rfl, rfl, trivial, trivial, rfl⟩
  | subscribe pid filters =>
      rcases new_cases pid with ⟨rfl, none⟩ | ⟨id, rfl, some⟩
      · rw [v3, none]
        exact decode_zero _ _
      · rw [v3, some]
        refine read_v3 rfl ?_ (fun f hf => ?_) trivial rfl
        · rw [body, filters_v3]
          rfl
        · rcases List.mem_map.mp hf with ⟨sent, hsent, rfl⟩
          exact fits sent hsent
  | unsubscribe pid filters =>
      rcases new_cases pid with ⟨rfl, none⟩ | ⟨id, rfl, some⟩
      · rw [v3, none]
        exact decode_zero _ _
      · rw [v3, some]
        exact read_v3 rfl rfl fits trivial rfl
  | pingReq => rfl
  | disconnect reason => rw [body, reasonBytes_v3]; rfl
  | connAck _ _ _ => exact client.elim
  | subAck _ _ => exact client.elim
  | unsubAck _ _ => exact client.elim
  | pingResp => exact client.elim

end Packet

/-! ## Bodies of v5 -/

theorem filters_v5 (filters : List (ByteString × SubOpts)) :
    filters.flatMap filterBytes =
      (filters.map fun f => (f.1, f.2.v5)).flatMap Codec.V5.Subscribe.filterImage := by
  have byte : ∀ qos : QoS, [qos.asU8] = Codec.image (SubOpts.v5 ⟨qos⟩) := by
    intro qos
    cases qos <;> rfl
  rw [List.flatMap_map]
  congr 1
  funext f
  rw [filterBytes, byte]
  rfl

/-- The body of a CONNECT is the content of its packet around the property that was written. -/
theorem Connect.bytes_v5 (c : Connect) :
    c.bytes .v5 = c.v5.imageAround (connectProps c.sessionExpiry) := by
  have flags : c.v5.flags = c.flags := by
    rw [c.flags_eq]
    unfold Connect.v5 Codec.V5.Connect.flags
    rw [Option.map_map]
    rfl
  have will : (c.v5.lastWill.map Codec.V5.LastWill.image).getD [] =
      (c.will.map (Will.bytes .v5)).getD [] := by
    rw [show c.v5.lastWill = c.will.map Will.v5 from rfl, Option.map_map]
    rfl
  rw [Codec.V5.Connect.imageAround, Codec.V5.Connect.payloadImage, flags, will]
  rfl

theorem Will.fits_v5 {w : Will} (fits : Codec.Fits w.topic ∧ Codec.Fits w.payload) :
    w.v5.Fits where
  topic := fits.1
  message := fits.2
  correlationData := fun _ h => by cases h
  contentType := fun _ h => by cases h
  responseTopic := fun _ h => by cases h
  userProperties := fun _ h => by cases h

theorem Connect.fits_v5 {c : Connect} (fits : (Packet.connect c).Fits) : c.v5.Fits where
  authMethod := fun _ h => by cases h
  authData := fun _ h => by cases h
  userProperties := fun _ h => by cases h
  lastWill := by
    intro w hw
    rcases Option.map_eq_some_iff.mp hw with ⟨sent, hsent, rfl⟩
    exact Will.fits_v5 (fits.2.1 sent hsent)
  clientId := fits.1
  username := Connect.fits_sentUsername fits.2.2.1
  password := fits.2.2.2

/-- The properties that the broker collects from a CONNECT. -/
theorem feeds_connectProps (sessionExpiry : Option UInt32) :
    Codec.FeedsProps Codec.V5.Connect.Props.read {} (connectProps sessionExpiry)
      { sessionExpiryIntervalSecs := sessionExpiry } := by
  have bytes : connectProps sessionExpiry =
      Codec.V5.propImage Codec.V5.pt.SESS_EXPIRY_INT sessionExpiry := by
    cases sessionExpiry <;> rfl
  rw [bytes]
  exact Codec.V5.feeds_property Codec.V5.pt.SESS_EXPIRY_INT
    (fun (acc : Codec.V5.Connect.Props) x => { acc with sessionExpiryIntervalSecs := x })
    sessionExpiry rfl rfl fun _ _ => trivial

section Reason

variable {ρ : Type} [PrimEnum ρ]

theorem tryFrom_of_known {reason : UInt8} {code : ρ}
    (known : PrimEnum.table.lookup reason = some code) :
    PrimEnum.tryFrom reason = (.ok code : Outcome DecodeError ρ) := by
  rw [PrimEnum.tryFrom, known]

/-- An unknown reason stops a reader, whatever comes behind it. -/
theorem unknown_reason {α : Type} {reason : UInt8}
    (unknown : (PrimEnum.table : List (UInt8 × ρ)).lookup reason = none)
    (f : ρ → Reader DecodeError α) (s : Bytes) :
    (Reader.fromOutcome (PrimEnum.tryFrom reason) >>= f) s = .err .malformedPacket := by
  have stop : (Reader.fromOutcome (PrimEnum.tryFrom reason) : Reader DecodeError ρ) s =
      .err .malformedPacket := by
    rw [Reader.fromOutcome, PrimEnum.tryFrom, unknown]
    rfl
  rw [bind_apply, stop]
  rfl

/-- A v5 acknowledgment is read by its id and its reason, which is left out if it is zero. -/
theorem decode_ack {success : ρ}
    (zero : (PrimEnum.table : List (UInt8 × ρ)).lookup 0 = some success)
    {pid : UInt16} (nonzero : pid ≠ 0) (reason : UInt8) :
    Codec.V5.PublishAckOf.decode success (be16 pid ++ reasonBytes .v5 reason) =
      answer (ackOf (ρ := ρ) pid reason) := by
  have new : NonZeroU16.new pid = some ⟨pid, nonzero⟩ := dif_pos nonzero
  have id : (Codec.decode : Reader DecodeError NonZeroU16) (be16 pid ++ reasonBytes .v5 reason) =
      .ok (⟨pid, nonzero⟩, reasonBytes .v5 reason) :=
    Codec.WireType.decodes (⟨pid, nonzero⟩ : NonZeroU16) trivial _
  rw [Codec.V5.PublishAckOf.decode, bind_of_ok id, ackOf, new]
  by_cases absent : reason = 0
  · subst absent
    rw [zero]
    rfl
  · have written : reasonBytes .v5 reason = [reason, EMPTY_PROPS] := if_pos ⟨rfl, absent⟩
    rw [written, ifRemaining, if_neg (by simp)]
    rcases known : (PrimEnum.table : List (UInt8 × ρ)).lookup reason with _ | code
    · exact unknown_reason known _ _
    · refine DecodesAll.getU8
        (DecodesAll.bind_nil (Decodes.fromOutcome (tryFrom_of_known known)) ?_)
      exact DecodesAll.ifRemaining (by simp) (DecodesAll.bind_all
        (Codec.V5.decodes_ackPropsDecode Codec.V5.DiagFit.nil (Nat.zero_le _)).all
        (DecodesAll.ensureConsumed (DecodesAll.pure _)))

end Reason

/-- A v5 DISCONNECT is read by its reason, which is left out if it is zero. -/
theorem decode_disconnect (reason : UInt8) :
    Codec.V5.Disconnect.decode (reasonBytes .v5 reason) =
      answer ((PrimEnum.table.lookup reason).map Codec.V5.Disconnect.new) := by
  by_cases absent : reason = 0
  · subst absent
    rfl
  · have written : reasonBytes .v5 reason = [reason, EMPTY_PROPS] := if_pos ⟨rfl, absent⟩
    rw [written, Codec.V5.Disconnect.decode, ifRemaining, if_neg (by simp)]
    rcases known : (PrimEnum.table : List (UInt8 × Codec.V5.DisconnectReasonCode)).lookup reason
      with _ | code
    · exact unknown_reason known _ _
    · refine DecodesAll.getU8
        (DecodesAll.bind_nil (Decodes.fromOutcome (tryFrom_of_known known)) ?_)
      exact DecodesAll.ifRemaining (by simp) (DecodesAll.bind_all
        (Codec.decodes_readProperties (Feeds.refl _ _) (Nat.zero_le _)).all
        (DecodesAll.ensureConsumed (DecodesAll.pure _)))

namespace Packet

/-- A body that is the content of a packet of the broker is read as that packet. -/
theorem read_v5 {first : UInt8} {content : Bytes} {q : Codec.V5.Packet}
    (header : q.firstByte = first) (body : q.content = content) (fits : q.Fits)
    (acceptable : q.Acceptable) (same : q.normalized = q)
    (small : content.length ≤ Codec.MAX_PACKET_SIZE) :
    Codec.V5.decodePacket first content = answer (some q) := by
  have run := Codec.V5.Packet.decodes fits acceptable (body ▸ small)
  rw [header, body, same] at run
  exact run

/-- The v5 codec reads the body of a client packet as the packet it stands for. -/
theorem decode_v5 {p : Packet} (encodable : p.Encodable) (sendable : p.Sendable)
    (small : (p.body .v5).length ≤ Codec.MAX_PACKET_SIZE) :
    Codec.V5.decodePacket p.header (p.body .v5) = answer p.v5 := by
  rcases sendable with ⟨client, fits, named⟩
  have mapped : ∀ {π : Type} {d : Reader DecodeError π} {bs : Bytes} {q : Option π}
      (f : π → Codec.V5.Packet), d bs = answer q → (f <$> d) bs = answer (q.map f) := by
    intro π d bs q f run
    change (d >>= fun a => pure (f a)) bs = _
    rw [bind_apply, run]
    cases q <;> rfl
  cases p with
  | connect c =>
      have client : ByteString.isEmpty c.v5.clientId = true → c.v5.cleanStart = true := fun empty =>
        absurd ((named c rfl).symm.trans empty) Bool.false_ne_true
      rw [body, c.bytes_v5] at small ⊢
      exact mapped (q := some c.v5) .connect (Codec.V5.Connect.decode_imageAround
        (Connect.fits_v5 fits) client (feeds_connectProps c.sessionExpiry) small)
  | publish p =>
      have id := Publish.packetId_broker encodable (some .default)
      refine read_v5 (publishFlags_v3 p _).symm ?_ ⟨fits, id.2, fun props h => ?_⟩ trivial rfl small
      · have written : ((p.broker (some .default)).packetId.map Codec.image).getD [] =
            (p.pid.map be16).getD [] := id.1
        rw [Codec.V5.Packet.content, Codec.Publish.image, written]
        rfl
      · cases h
        exact Codec.PublishProperties.fits_default
  | pubAck pid reason => exact mapped _ (decode_ack rfl encodable reason)
  | pubRec pid reason => exact mapped _ (decode_ack rfl encodable reason)
  | pubRel pid reason => exact mapped _ (decode_ack rfl encodable reason)
  | pubComp pid reason => exact mapped _ (decode_ack rfl encodable reason)
  | subscribe pid filters =>
      rcases new_cases pid with ⟨rfl, none⟩ | ⟨id, rfl, some⟩
      · rw [v5, none]
        exact mapped (q := Option.none) .subscribe (decode_zero _ _)
      · rw [v5, some]
        refine read_v5 rfl ?_ ⟨(fun _ h => by cases h), (fun _ h => by cases h), fun f hf => ?_⟩
          trivial rfl small
        · rw [body, filters_v5]
          rfl
        · rcases List.mem_map.mp hf with ⟨sent, hsent, rfl⟩
          exact fits sent hsent
  | unsubscribe pid filters =>
      rcases new_cases pid with ⟨rfl, none⟩ | ⟨id, rfl, some⟩
      · rw [v5, none]
        exact mapped (q := Option.none) .unsubscribe (decode_zero _ _)
      · rw [v5, some]
        exact read_v5 rfl rfl ⟨(fun _ h => by cases h), fits⟩ trivial rfl small
  | pingReq => rfl
  | disconnect reason =>
      have run := mapped .disconnect (decode_disconnect reason)
      rw [Option.map_map] at run
      exact run
  | connAck _ _ _ => exact client.elim
  | subAck _ _ => exact client.elim
  | unsubAck _ _ => exact client.elim
  | pingResp => exact client.elim

/-- What a codec of the broker returns on a frame with a content of this length. -/
def received {π : Type} (q : Option π) (size : Nat) : Outcome DecodeError (Option (π × Nat)) :=
  match q with
  | some q => .ok (some (q, size))
  | none => .err .malformedPacket

/-- A codec that waits for a frame reads a whole one of a content that it knows how to answer. -/
theorem decode_received {κ π : Type} (framed : Codec.Framed κ π) {c : κ} {first : UInt8}
    {content : Bytes} {q : Option π} (waiting : framed.state c = .frameHeader)
    (small : content.length ≤ Codec.MAX_PACKET_SIZE)
    (within : framed.maxSize c = 0 ∨ content.length ≤ framed.maxSize c)
    (run : framed.decodePacket first content = answer q) (rest : Bytes) :
    ∃ c', framed.decode c (first :: (Codec.varInt content.length ++ content) ++ rest) =
      (received q content.length, c', rest) := by
  have frame : Codec.decodeHeader framed.decodePacket (framed.maxSize c)
      (first :: (Codec.varInt content.length ++ content) ++ rest) = _ :=
    Codec.decodeHeader_content small (fun h => within.elim h.1 (Nat.not_le.mpr h.2)) rest
  have header : Codec.decodeFrames framed.decodePacket (framed.maxSize c) (framed.state c) =
      Codec.decodeHeader framed.decodePacket (framed.maxSize c) := by
    rw [waiting]
    rfl
  rw [run, ← header] at frame
  cases q with
  | none => exact ⟨_, framed.decode_of_run frame⟩
  | some q => exact ⟨_, framed.decode_of_run frame⟩

theorem frame_of_encode {version : Version} {p : Packet} {dst frame : Bytes}
    (small : (p.body version).length ≤ Codec.MAX_PACKET_SIZE)
    (encoded : encode version p dst = (.ok (), dst ++ frame)) : frame = p.frame version := by
  rw [writes_encode (encodable_of_encode encoded) small dst] at encoded
  exact (List.append_cancel_left (Prod.ext_iff.mp encoded).2).symm

end Packet

/-- The benchmark and the broker agree on what a client sends.  A frame of a client packet that the
benchmark encodes, with a body that can be announced, is read by a codec of the broker that waits
for a frame as the packet it stands for, and refused where there is none; in either case exactly the
frame is consumed. -/
theorem client_frame_read {version : Version} {p : Packet} {dst frame : Bytes}
    (sendable : p.Sendable) (encoded : encode version p dst = (.ok (), dst ++ frame))
    (small : (p.body version).length ≤ Codec.MAX_PACKET_SIZE) (rest : Bytes) :
    (version = .v3 → ∀ codec : Codec.V3.Codec, codec.state = .frameHeader →
      (codec.maxSize = 0 ∨ (p.body version).length ≤ codec.maxSize.toNat) →
      ∃ codec', codec.decode (frame ++ rest) =
        (Packet.received p.v3 (p.body version).length, codec', rest)) ∧
    (version = .v5 → ∀ codec : Codec.V5.Codec, codec.state = .frameHeader →
      (codec.maxInSize = 0 ∨ (p.body version).length ≤ codec.maxInSize.toNat) →
      ∃ codec', codec.decode (frame ++ rest) =
        (Packet.received p.v5 (p.body version).length, codec', rest)) := by
  have encodable := Packet.encodable_of_encode encoded
  rw [Packet.frame_of_encode small encoded]
  constructor
  · rintro rfl codec waiting within
    exact Packet.decode_received Codec.V3.Codec.framed waiting small
      (within.imp_left (congrArg UInt32.toNat))
      (Packet.decode_v3 encodable sendable) rest
  · rintro rfl codec waiting within
    exact Packet.decode_received Codec.V5.Codec.framed waiting small
      (within.imp_left (congrArg UInt32.toNat))
      (Packet.decode_v5 encodable sendable small) rest

/-- A QoS 1 publish. -/
def order : Packet := .publish
  { topic := "t", payload := [1], qos := .atLeastOnce, retain := false, dup := false,
    pid := some 7 }

/-- It is read by a fresh v5 codec, which leaves the byte behind it. -/
theorem order_read : ∃ codec, (Codec.V5.Codec.new 0 0).decode
    ([0x32, 7, 0, 1, 116, 0, 7, 0, 1] ++ [0xC0]) =
      (Packet.received order.v5 7, codec, [0xC0]) := by
  have id : Packet.Encodable order := by
    constructor
    · decide
    · decide
  have short : ByteString.len "t" ≤ 65535 := by decide
  have sendable : Packet.Sendable order :=
    { client := trivial, fits := short, named := fun c h => by cases h }
  have encoded : encode .v5 order [] = (.ok (), [] ++ [0x32, 7, 0, 1, 116, 0, 7, 0, 1]) :=
    Packet.writes_encode id (by decide) []
  exact (client_frame_read sendable encoded (by decide) [0xC0]).2 rfl (Codec.V5.Codec.new 0 0) rfl
    (.inl rfl)

/-- A CONNECT with a password and no user name. -/
def passwordOnly : Connect := { Connect.new "c" 30 true with password := some [1] }

/-- A SUBSCRIBE with the id zero. -/
def unnumbered : Packet := .subscribe 0 [("t", ⟨.atMostOnce⟩)]

/-- An acknowledgment with a reason that no acknowledgment has. -/
def unknownReason : Packet := .pubAck 7 1

/-- A publish of so many zeros. -/
def bulk (n : Nat) : Packet := .publish
  { topic := "t", payload := List.replicate n 0, qos := .atMostOnce, retain := false, dup := false,
    pid := none }

/-- A password without a user name is read together with an empty one, the id zero and an unknown
reason are refused, and so is a body whose length cannot be announced. -/
theorem client_frames_misread :
    (∃ frame q codec, encode .v3 (.connect passwordOnly) [] = (.ok (), frame) ∧
      (Codec.V3.Codec.new 0).decode frame = (.ok (some (.connect q, frame.length - 2)), codec, []) ∧
      passwordOnly.username = none ∧ q.username = some "") ∧
    (∃ frame codec, encode .v3 unnumbered [] = (.ok (), frame) ∧
      (Codec.V3.Codec.new 0).decode frame = (.err .malformedPacket, codec, [])) ∧
    (∃ frame codec, encode .v5 unknownReason [] = (.ok (), frame) ∧
      (Codec.V5.Codec.new 0 0).decode frame = (.err .malformedPacket, codec, [])) ∧
    ∃ frame, encode .v3 (bulk (2 ^ 28)) [] = (.ok (), frame) ∧
      ((Codec.V3.Codec.new 0).decode frame).1 = .err .invalidLength := by
  refine ⟨?_, ?_, ?_, ?_⟩
  · exact ⟨_, passwordOnly.v3, _, Packet.writes_encode (p := .connect passwordOnly)
      (show ByteString.len "c" ≤ 65535 by decide) (by decide) [], rfl, rfl, rfl⟩
  · exact ⟨_, _, Packet.writes_encode (p := unnumbered) trivial (by decide) [], rfl⟩
  · exact ⟨_, _, Packet.writes_encode (p := unknownReason) (show (7 : UInt16) ≠ 0 by decide)
      (by decide) [], rfl⟩
  · have topic : (Codec.image "t" : Bytes).length = 3 := rfl
    have long : Codec.MAX_PACKET_SIZE < ((bulk (2 ^ 28)).body .v3).length := by
      unfold bulk Packet.body Publish.bytes
      simp only [List.length_append, List.length_replicate, topic]
      decide
    have id : Packet.Encodable (bulk (2 ^ 28)) := ⟨by decide, by decide⟩
    rcases Packet.encode_long id long with ⟨i, j, k, l, more, hi, hj, hk, hl, writes⟩
    refine ⟨_, writes [], ?_⟩
    unfold Codec.V3.Codec.decode Codec.Framed.decode
    rw [List.nil_append]
    change (Codec.decodeHeader _ _ _).1 = _
    rw [Codec.decodeHeader, Codec.decodeVariableLength_long hi hj hk hl]

end OxiMqtt.Bench

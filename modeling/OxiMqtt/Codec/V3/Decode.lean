import OxiMqtt.Codec.Framing

/-!
# MQTT 3.1.1 packets and their decoder

The packets of `codec/v3/packet.rs`, `decode_packet` of `codec/v3/decode.rs`, and
the receiving side of the codec of `codec/v3/codec.rs`.
-/

namespace OxiMqtt.Codec.V3

set_option linter.dupNamespace false

open Wire Wire.Reader

/-- `ConnectAckReason` -/
inductive ConnectAckReason : Type
  | connectionAccepted
  | unacceptableProtocolVersion
  | identifierRejected
  | serviceUnavailable
  | badUserNameOrPassword
  | notAuthorized
  | reserved
  deriving DecidableEq, Repr

instance : PrimEnum ConnectAckReason where
  table := [(0, .connectionAccepted), (1, .unacceptableProtocolVersion), (2, .identifierRejected),
    (3, .serviceUnavailable), (4, .badUserNameOrPassword), (5, .notAuthorized), (6, .reserved)]
  toU8
    | .connectionAccepted => 0
    | .unacceptableProtocolVersion => 1
    | .identifierRejected => 2
    | .serviceUnavailable => 3
    | .badUserNameOrPassword => 4
    | .notAuthorized => 5
    | .reserved => 6
  lookup_toU8 := by intro r; cases r <;> rfl

/-- `LastWill` -/
structure LastWill : Type where
  qos : QoS
  retain : Bool
  topic : ByteString
  message : Bytes
  deriving DecidableEq, Repr

/-- `Connect`; the protocol is its level. -/
structure Connect : Type where
  protocol : UInt8
  cleanSession : Bool
  keepAlive : UInt16
  lastWill : Option LastWill
  clientId : ByteString
  username : Option ByteString
  password : Option Bytes
  cert : Option CertInfo
  deriving DecidableEq, Repr

/-- `ConnectAck` -/
structure ConnectAck : Type where
  returnCode : ConnectAckReason
  sessionPresent : Bool
  deriving DecidableEq, Repr

/-- `SubscribeReturnCode` -/
inductive SubscribeReturnCode : Type
  | success (qos : QoS)
  | failure
  deriving DecidableEq, Repr

/-- `Packet` -/
inductive Packet : Type
  | connect (connect : Connect)
  | connectAck (ack : ConnectAck)
  | publish (publish : Publish)
  | publishAck (packetId : NonZeroU16)
  | publishReceived (packetId : NonZeroU16)
  | publishRelease (packetId : NonZeroU16)
  | publishComplete (packetId : NonZeroU16)
  | subscribe (packetId : NonZeroU16) (topicFilters : List (ByteString × QoS))
  | subscribeAck (packetId : NonZeroU16) (status : List SubscribeReturnCode)
  | unsubscribe (packetId : NonZeroU16) (topicFilters : List ByteString)
  | unsubscribeAck (packetId : NonZeroU16)
  | pingRequest
  | pingResponse
  | disconnect
  deriving DecidableEq, Repr

/-! ## The decoder -/

/-- `decode_ack` -/
def decodeAck (f : NonZeroU16 → Packet) : Reader DecodeError Packet := do
  let packetId : NonZeroU16 ← decode
  ensureConsumed .invalidLength
  return f packetId

/-- The protocol name of a connect packet, in either of its two spellings. -/
def readProtocolName (len : UInt16) : Reader DecodeError Unit := do
  if ← protocolIs len 4 MQTT then advance 4
  else if ← protocolIs len 6 MQISDP then advance 6
  else fail .invalidProtocol

/-- The last will of a connect packet. -/
def decodeLastWill (flags : UInt8) : Reader DecodeError LastWill := do
  let topic : ByteString ← decode
  let message : Bytes ← decode
  let qos ← fromOutcome (PrimEnum.tryFrom ((flags &&& ConnectFlags.WILL_QOS) >>> WILL_QOS_SHIFT))
  return { qos, retain := contains flags ConnectFlags.WILL_RETAIN, topic, message }

/-- `decode_connect_packet` -/
def decodeConnectPacket : Reader DecodeError Packet := do
  ensureRemaining 10 .invalidLength
  let len ← getU16
  readProtocolName len
  let level ← getU8
  ensure (level == MQTT_LEVEL_311 || level == MQTT_LEVEL_31) .unsupportedProtocolLevel
  let flags ← okOr (fromBits ConnectFlags.ALL (← getU8)) .connectReservedFlagSet
  let keepAlive : UInt16 ← decode
  let clientId : ByteString ← decode
  ensure (!ByteString.isEmpty clientId || contains flags ConnectFlags.CLEAN_START) .invalidClientId
  let lastWill ← readIf (contains flags ConnectFlags.WILL) (decodeLastWill flags)
  let username ← readIf (contains flags ConnectFlags.USERNAME) (decode : Reader _ ByteString)
  let password ← readIf (contains flags ConnectFlags.PASSWORD) (decode : Reader _ Bytes)
  return .connect {
    protocol := level
    cleanSession := contains flags ConnectFlags.CLEAN_START
    keepAlive
    clientId
    lastWill
    username
    password
    cert := none }

/-- `decode_connect_ack_packet` -/
def decodeConnectAckPacket : Reader DecodeError Packet := do
  ensureRemaining 2 .invalidLength
  let flags ← okOr (fromBits ConnectAckFlags.ALL (← getU8)) .connAckReservedFlagSet
  let returnCode ← fromOutcome (PrimEnum.tryFrom (← getU8))
  return .connectAck { returnCode, sessionPresent := contains flags ConnectAckFlags.SESSION_PRESENT }

/-- The packet id of a publish, which packets above QoS 0 carry. -/
def readPublishId (qos : QoS) : Reader DecodeError (Option NonZeroU16) :=
  if qos = .atMostOnce then pure none else some <$> decode

/-- `decode_publish_packet` -/
def decodePublishPacket (packetFlags : UInt8) : Reader DecodeError Packet := do
  let topic : ByteString ← decode
  let qos ← fromOutcome (PrimEnum.tryFrom ((packetFlags &&& 0b0110) >>> 1))
  let packetId ← readPublishId qos
  let payload ← takeRest
  return .publish {
    dup := packetFlags &&& 0b1000 == 0b1000
    qos
    retain := packetFlags &&& 0b0001 == 0b0001
    topic
    packetId
    payload
    properties := none }

/-- One topic filter of a subscribe packet with its QoS. -/
def readTopicFilter : Reader DecodeError (ByteString × QoS) := do
  let topic : ByteString ← decode
  ensureRemaining 1 .invalidLength
  let qos ← fromOutcome (PrimEnum.tryFrom ((← getU8) &&& 0b0000_0011))
  return (topic, qos)

/-- `decode_subscribe_packet` -/
def decodeSubscribePacket : Reader DecodeError Packet := do
  let packetId : NonZeroU16 ← decode
  let topicFilters ← whileRemaining (fun acc => do return acc ++ [← readTopicFilter]) []
  return .subscribe packetId topicFilters

/-- One return code of a subscribe acknowledgment. -/
def returnCode (code : UInt8) : Outcome DecodeError SubscribeReturnCode :=
  if code = 0x80 then .ok .failure
  else do
    let qos ← PrimEnum.tryFrom code
    return .success qos

/-- `decode_subscribe_ack_packet` -/
def decodeSubscribeAckPacket : Reader DecodeError Packet := do
  let packetId : NonZeroU16 ← decode
  let codes ← takeRest
  let status ← fromOutcome (Reader.forEach returnCode codes)
  return .subscribeAck packetId status

/-- `decode_unsubscribe_packet` -/
def decodeUnsubscribePacket : Reader DecodeError Packet := do
  let packetId : NonZeroU16 ← decode
  let topicFilters : List ByteString ← whileRemaining (fun acc => do return acc ++ [← decode]) []
  return .unsubscribe packetId topicFilters

/-- `decode_packet` -/
def decodePacket (firstByte : UInt8) : Reader DecodeError Packet :=
  if packetType.PUBLISH_START ≤ firstByte ∧ firstByte ≤ packetType.PUBLISH_END then
    decodePublishPacket (firstByte &&& 0b0000_1111)
  else
    match firstByte with
    | packetType.CONNECT => decodeConnectPacket
    | packetType.CONNACK => decodeConnectAckPacket
    | packetType.PUBACK => decodeAck .publishAck
    | packetType.PUBREC => decodeAck .publishReceived
    | packetType.PUBREL => decodeAck .publishRelease
    | packetType.PUBCOMP => decodeAck .publishComplete
    | packetType.SUBSCRIBE => decodeSubscribePacket
    | packetType.SUBACK => decodeSubscribeAckPacket
    | packetType.UNSUBSCRIBE => decodeUnsubscribePacket
    | packetType.UNSUBACK => decodeAck .unsubscribeAck
    | packetType.PINGREQ => pure .pingRequest
    | packetType.PINGRESP => pure .pingResponse
    | packetType.DISCONNECT => pure .disconnect
    | _ => fail .unsupportedPacketType

/-! ## Every read is guarded -/

theorem safe_decodeAck (f : NonZeroU16 → Packet) : Safe 0 (decodeAck f) 0 0 :=
  safe_decode.zero_bind fun _ => (Safe.ensureConsumed _ 0).zero_bind fun _ => Safe.pure _ 0

/-- Eight bytes are enough for both names and the two bytes behind them. -/
theorem safe_readProtocolName (len : UInt16) : Safe 8 (readProtocolName len) 2 0 := by
  refine (safe_protocolIs len 4 MQTT 4).zero_bind fun isMqtt => ?_
  cases isMqtt with
  | true => exact (Safe.advance 4 4).mono (Nat.le_refl 8) (by omega) (Nat.zero_le 4)
  | false =>
      refine (safe_protocolIs len 6 MQISDP 2).zero_bind fun isMqisdp => ?_
      cases isMqisdp with
      | true => exact (Safe.advance 2 6).mono (Nat.le_refl 8) (Nat.le_refl 2) (Nat.zero_le 6)
      | false => exact Safe.fail _ _ _ _

theorem safe_decodeLastWill (flags : UInt8) : Safe 0 (decodeLastWill flags) 0 0 :=
  safe_decode.zero_bind fun _ => safe_decode.zero_bind fun _ => (safe_tryFrom _ 0).zero_bind
    fun _ => Safe.pure _ 0

theorem safe_decodeConnectPacket : Safe 0 decodeConnectPacket 0 0 := by
  refine (Safe.ensureRemaining 10 _).zero_bind fun _ => ?_
  refine (Safe.getU16 8).zero_bind fun len => ?_
  refine (safe_readProtocolName len).zero_bind fun _ => ?_
  refine (Safe.getU8 1).zero_bind fun level => ?_
  refine (Safe.ensure _ _ 1).zero_bind fun _ => ?_
  refine (Safe.getU8 0).zero_bind fun b => ?_
  refine (Safe.okOr _ _ 0).zero_bind fun flags => ?_
  refine safe_decode.zero_bind fun keepAlive => safe_decode.zero_bind fun clientId => ?_
  refine (Safe.ensure _ _ 0).zero_bind fun _ => ?_
  refine (Safe.readIf _ (safe_decodeLastWill flags)).zero_bind fun lastWill => ?_
  refine (Safe.readIf _ safe_decode).zero_bind fun username => ?_
  exact (Safe.readIf _ safe_decode).zero_bind fun password => Safe.pure _ 0

theorem safe_decodeConnectAckPacket : Safe 0 decodeConnectAckPacket 0 0 := by
  refine (Safe.ensureRemaining 2 _).zero_bind fun _ => ?_
  refine (Safe.getU8 1).zero_bind fun b => ?_
  refine (Safe.okOr _ _ 1).zero_bind fun flags => ?_
  refine (Safe.getU8 0).zero_bind fun code => ?_
  exact (safe_tryFrom code 0).zero_bind fun _ => Safe.pure _ 0

theorem safe_decodePublishPacket (packetFlags : UInt8) :
    Safe 0 (decodePublishPacket packetFlags) 0 0 := by
  refine safe_decode.zero_bind fun topic => (safe_tryFrom _ 0).zero_bind fun qos => ?_
  have packetId : Safe 0 (readPublishId qos) 0 0 := by
    unfold readPublishId
    split
    · exact Safe.pure none 0
    · exact safe_decode.map
  exact packetId.zero_bind fun _ => (Safe.takeRest 0).zero_bind fun _ => Safe.pure _ 0

theorem safe_readTopicFilter : Safe 0 readTopicFilter 0 1 :=
  (WireType.safe : Safe 0 (decode : Reader DecodeError ByteString) 0 1).bind_zero fun _ =>
    (Safe.ensureRemaining 1 _).zero_bind fun _ =>
      (Safe.getU8 0).zero_bind fun _ =>
        (safe_tryFrom _ 0).zero_bind fun _ => Safe.pure _ 0

theorem safe_decodeSubscribePacket : Safe 0 decodeSubscribePacket 0 0 := by
  refine safe_decode.zero_bind fun packetId => ?_
  have each : ∀ acc, Safe 1 (readTopicFilter >>= fun f => pure (acc ++ [f])) 0 (0 + 1) := fun acc =>
    (safe_readTopicFilter.mono (Nat.zero_le 1) (Nat.le_refl 0) (Nat.le_refl _)).bind_zero fun _ =>
      Safe.pure _ 0
  exact Safe.zero_bind (Safe.whileRemaining each []) fun _ => Safe.pure _ 0

theorem returnCode_ne_fault (code : UInt8) (x : Fault) : returnCode code ≠ .fault x := by
  unfold returnCode
  intro hx
  split at hx
  · cases hx
  · rcases h : (PrimEnum.tryFrom code : Outcome DecodeError QoS) with qos | e | f
    · rw [h] at hx
      cases hx
    · rw [h] at hx
      cases hx
    · exact PrimEnum.tryFrom_ne_fault code f h

theorem safe_decodeSubscribeAckPacket : Safe 0 decodeSubscribeAckPacket 0 0 :=
  safe_decode.zero_bind fun _ => (Safe.takeRest 0).zero_bind fun codes =>
    (Safe.fromOutcome (forEach_ne_fault returnCode_ne_fault codes) 0).zero_bind fun _ =>
      Safe.pure _ 0

theorem safe_decodeUnsubscribePacket : Safe 0 decodeUnsubscribePacket 0 0 := by
  refine safe_decode.zero_bind fun packetId => ?_
  have filter : Safe 0 (decode : Reader DecodeError ByteString) 0 1 := WireType.safe
  have each : ∀ acc, Safe 1 ((decode : Reader DecodeError ByteString) >>=
      fun f => pure (acc ++ [f])) 0 (0 + 1) := fun acc =>
    (filter.mono (Nat.zero_le 1) (Nat.le_refl 0) (Nat.le_refl _)).bind_zero fun _ => Safe.pure _ 0
  exact Safe.zero_bind (Safe.whileRemaining each []) fun _ => Safe.pure _ 0

theorem safe_decodePacket (firstByte : UInt8) : Safe 0 (decodePacket firstByte) 0 0 := by
  unfold decodePacket
  split
  · exact safe_decodePublishPacket _
  · split
    · exact safe_decodeConnectPacket
    · exact safe_decodeConnectAckPacket
    · exact safe_decodeAck _
    · exact safe_decodeAck _
    · exact safe_decodeAck _
    · exact safe_decodeAck _
    · exact safe_decodeSubscribePacket
    · exact safe_decodeSubscribeAckPacket
    · exact safe_decodeUnsubscribePacket
    · exact safe_decodeAck _
    · exact Safe.pure _ 0
    · exact Safe.pure _ 0
    · exact Safe.pure _ 0
    · exact Safe.fail _ 0 0 0

/-! ## The codec -/

/-- `Codec` -/
structure Codec : Type where
  state : DecodeState
  maxSize : UInt32
  deriving DecidableEq, Repr

/-- `Codec::new` -/
def Codec.new (maxPacketSize : UInt32) : Codec where
  state := .frameHeader
  maxSize := maxPacketSize

/-- The codec around the frame loop. -/
def Codec.framed : Framed Codec Packet where
  decodePacket := decodePacket
  maxSize c := c.maxSize.toNat
  state c := c.state
  update c _ state := { c with state }
  maxSize_update _ _ _ := rfl
  state_update _ _ _ := rfl
  update_update _ _ _ _ := rfl

/-- `Decoder::decode` -/
def Codec.decode (c : Codec) (src : Bytes) :
    Outcome DecodeError (Option (Packet × Nat)) × Codec × Bytes :=
  framed.decode c src

end OxiMqtt.Codec.V3

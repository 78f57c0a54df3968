import OxiMqtt.Codec.V5.Acks
import OxiMqtt.Codec.V5.Disconnect
import OxiMqtt.Codec.V5.ConnectAck
import OxiMqtt.Codec.V5.Connect
import OxiMqtt.Codec.V5.Subscribe

/-!
# MQTT 5 packets

`Packet` of `codec/v5/packet/mod.rs`, its encoder of `codec/v5/encode.rs` and
`decode_packet` of `codec/v5/decode.rs`.

* `Packet.agrees`: what the encode pass writes is the frame of the packet as it is
  cut to the limit, and the size pass has measured its content.
* `Packet.decodes`: the decoder reads the content of a packet back.
* `Packet.cut_eq_self`, `Packet.encodedSize_max`: nothing is cut from a packet that
  stays a few bytes below the largest size.
* `safe_decodePacket`: the decoder does not fault on any bytes.
-/

namespace OxiMqtt.Codec.V5

open Wire Wire.Reader Wire.ByteWriter

/-- `Packet` -/
inductive Packet : Type
  | connect (connect : Connect)
  | connectAck (ack : ConnectAck)
  | publish (publish : Publish)
  | publishAck (ack : PublishAck)
  | publishReceived (ack : PublishAck)
  | publishRelease (ack : PublishAck2)
  | publishComplete (ack : PublishAck2)
  | subscribe (sub : Subscribe)
  | subscribeAck (ack : SubscribeAck)
  | unsubscribe (unsub : Unsubscribe)
  | unsubscribeAck (ack : UnsubscribeAck)
  | pingRequest
  | pingResponse
  | disconnect (disconnect : Disconnect)
  | auth (auth : Auth)
  deriving DecidableEq, Repr

/-! ## Decoding -/

/-- `decode_packet` -/
def decodePacket (firstByte : UInt8) : Reader DecodeError Packet :=
  if packetType.PUBLISH_START ≤ firstByte ∧ firstByte ≤ packetType.PUBLISH_END then
    .publish <$> Publish.decode (firstByte &&& 0b0000_1111)
  else
    match firstByte with
    | packetType.PUBACK => .publishAck <$> PublishAck.decode
    | packetType.PINGREQ => pure .pingRequest
    | packetType.PINGRESP => pure .pingResponse
    | packetType.SUBSCRIBE => .subscribe <$> Subscribe.decode
    | packetType.SUBACK => .subscribeAck <$> SubscribeAck.decode
    | packetType.UNSUBSCRIBE => .unsubscribe <$> Unsubscribe.decode
    | packetType.UNSUBACK => .unsubscribeAck <$> UnsubscribeAck.decode
    | packetType.CONNECT => .connect <$> Connect.decode
    | packetType.CONNACK => .connectAck <$> ConnectAck.decode
    | packetType.DISCONNECT => .disconnect <$> Disconnect.decode
    | packetType.AUTH => .auth <$> Auth.decode
    | packetType.PUBREC => .publishReceived <$> PublishAck.decode
    | packetType.PUBREL => .publishRelease <$> PublishAck2.decode
    | packetType.PUBCOMP => .publishComplete <$> PublishAck2.decode
    | _ => fail .unsupportedPacketType

theorem safe_decodePacket (firstByte : UInt8) : Safe 0 (decodePacket firstByte) 0 0 := by
  unfold decodePacket
  split
  · exact (Publish.safe _).map
  · split
    · exact (PublishAckOf.safe_decode _).map
    · exact Safe.pure _ 0
    · exact Safe.pure _ 0
    · exact Subscribe.safe.map
    · exact StatusAckOf.safe_decode.map
    · exact Unsubscribe.safe.map
    · exact StatusAckOf.safe_decode.map
    · exact Connect.safe.map
    · exact ConnectAck.safe.map
    · exact Disconnect.safe.map
    · exact Auth.safe.map
    · exact (PublishAckOf.safe_decode _).map
    · exact (PublishAckOf.safe_decode _).map
    · exact (PublishAckOf.safe_decode _).map
    · exact Safe.fail _ 0 0 0

/-! ## Encoding -/

namespace Packet

/-- `encoded_size` -/
def encodedSize (limit : Nat) : Packet → Outcome EncodeError Nat
  | connect p => .ok (p.encodedSize limit)
  | publish p => .ok (p.encodedSize limit)
  | connectAck p => .ok (p.encodedSize limit)
  | publishAck p => p.encodedSize limit
  | publishReceived p => p.encodedSize limit
  | publishRelease p => p.encodedSize limit
  | publishComplete p => p.encodedSize limit
  | subscribe p => .ok (p.encodedSize limit)
  | subscribeAck p => SubscribeAck.encodedSize p limit
  | unsubscribe p => .ok (p.encodedSize limit)
  | unsubscribeAck p => .ok (UnsubscribeAck.encodedSize p limit)
  | pingRequest => .ok 0
  | pingResponse => .ok 0
  | disconnect p => .ok (p.encodedSize limit)
  | auth p => .ok (p.encodedSize limit)

/-- A frame: the first byte, the size of the content, and the content. -/
def encodeFrame (firstByte : UInt8) (checkSize : Nat) (content : Nat → ByteWriter EncodeError Unit) :
    ByteWriter EncodeError Unit := do
  putU8 firstByte
  writeVariableLength checkSize
  content checkSize

/-- `encode` -/
def encode (checkSize : Nat) : Packet → ByteWriter EncodeError Unit
  | connect p => encodeFrame packetType.CONNECT checkSize p.encode
  | connectAck p => encodeFrame packetType.CONNACK checkSize p.encode
  | publish p => encodeFrame p.firstByte checkSize p.encode
  | publishAck p => encodeFrame packetType.PUBACK checkSize p.encode
  | publishReceived p => encodeFrame packetType.PUBREC checkSize p.encode
  | publishRelease p => encodeFrame packetType.PUBREL checkSize p.encode
  | publishComplete p => encodeFrame packetType.PUBCOMP checkSize p.encode
  | subscribe p => encodeFrame packetType.SUBSCRIBE checkSize p.encode
  | subscribeAck p => encodeFrame packetType.SUBACK checkSize p.encode
  | unsubscribe p => encodeFrame packetType.UNSUBSCRIBE checkSize p.encode
  | unsubscribeAck p => encodeFrame packetType.UNSUBACK checkSize p.encode
  | pingRequest => putSlice [packetType.PINGREQ, 0]
  | pingResponse => putSlice [packetType.PINGRESP, 0]
  | disconnect p => encodeFrame packetType.DISCONNECT checkSize p.encode
  | auth p => encodeFrame packetType.AUTH checkSize p.encode

/-! ## Frames -/

/-- The first byte of the frame of a packet. -/
def firstByte : Packet → UInt8
  | connect _ => packetType.CONNECT
  | connectAck _ => packetType.CONNACK
  | publish p => p.firstByte
  | publishAck _ => packetType.PUBACK
  | publishReceived _ => packetType.PUBREC
  | publishRelease _ => packetType.PUBREL
  | publishComplete _ => packetType.PUBCOMP
  | subscribe _ => packetType.SUBSCRIBE
  | subscribeAck _ => packetType.SUBACK
  | unsubscribe _ => packetType.UNSUBSCRIBE
  | unsubscribeAck _ => packetType.UNSUBACK
  | pingRequest => packetType.PINGREQ
  | pingResponse => packetType.PINGRESP
  | disconnect _ => packetType.DISCONNECT
  | auth _ => packetType.AUTH

/-- The content of the frame of a packet, with nothing dropped. -/
def content : Packet → Bytes
  | connect p => p.image
  | connectAck p => p.image
  | publish p => p.image
  | publishAck p => p.image
  | publishReceived p => p.image
  | publishRelease p => p.image
  | publishComplete p => p.image
  | subscribe p => p.image
  | subscribeAck p => p.image
  | unsubscribe p => p.image
  | unsubscribeAck p => p.image
  | pingRequest => []
  | pingResponse => []
  | disconnect p => p.image
  | auth p => p.image

/-- The bytes of a packet on the wire. -/
def frame (p : Packet) : Bytes := p.firstByte :: (varInt p.content.length ++ p.content)

/-- The packet as it is sent under a limit. -/
def cut (limit : Nat) : Packet → Packet
  | connectAck p => .connectAck (p.cut limit)
  | publishAck p => .publishAck (p.cut limit)
  | publishReceived p => .publishReceived (p.cut limit)
  | publishRelease p => .publishRelease (p.cut limit)
  | publishComplete p => .publishComplete (p.cut limit)
  | subscribeAck p => .subscribeAck (p.cut limit)
  | unsubscribeAck p => .unsubscribeAck (p.cut limit)
  | disconnect p => .disconnect (p.cut limit)
  | auth p => .auth (p.cut limit)
  | p => p

/-- Every field is within its wire limit: strings and binary data have at most
65535 bytes, subscription identifiers at most 28 bits, and a publish has a packet
id exactly above QoS 0. -/
def Fits : Packet → Prop
  | connect p => p.Fits
  | connectAck p => p.Fits
  | publish p => p.Fits
  | publishAck p => p.Fits
  | publishReceived p => p.Fits
  | publishRelease p => p.Fits
  | publishComplete p => p.Fits
  | subscribe p => p.Fits
  | subscribeAck p => p.Fits
  | unsubscribe p => p.Fits
  | unsubscribeAck p => p.Fits
  | pingRequest => True
  | pingResponse => True
  | disconnect p => p.Fits
  | auth p => p.Fits

/-- What a CONNECT has to satisfy to be accepted again: an empty client id asks for
a clean start, and certificate information does not travel. -/
def Acceptable : Packet → Prop
  | connect p => (ByteString.isEmpty p.clientId = true → p.cleanStart = true) ∧ p.cert = none
  | _ => True

/-- The packet as the decoder returns it: a publish without properties comes back
with the default ones. -/
def normalized : Packet → Packet
  | publish p => .publish p.normalized
  | p => p

theorem writes_frame {firstByte : UInt8} {n : Nat} {w : Nat → ByteWriter EncodeError Unit} {bs : Bytes}
    (size : n = bs.length) (small : n ≤ MAX_PACKET_SIZE) (h : Writes (w n) bs) :
    Writes (encodeFrame firstByte n w) (firstByte :: (varInt bs.length ++ bs)) := by
  rw [← size]
  exact (Writes.putU8 _).bind ((writes_writeVariableLength small).bind h)

/-- Both passes of the encoder are about the packet as it is cut to the limit. -/
theorem agrees {p : Packet} {limit n : Nat} (fits : (p.cut limit).Fits)
    (h : p.encodedSize limit = .ok n) (small : n ≤ MAX_PACKET_SIZE) :
    n = (p.cut limit).content.length ∧ Writes (p.encode n) (p.cut limit).frame := by
  cases p with
  | connect p =>
      cases h
      have size := Connect.encodedSize_eq (.inl small)
      exact ⟨size, writes_frame size small (Connect.writes fits small)⟩
  | connectAck p =>
      cases h
      have size := ConnectAck.encodedSize_eq (.inl small)
      exact ⟨size, writes_frame size small (ConnectAck.writes fits small)⟩
  | publish p =>
      cases h
      have size := Publish.encodedSize_eq fits (.inl small)
      exact ⟨size, writes_frame size small (Publish.writes fits small)⟩
  | publishAck p =>
      have size := PublishAckOf.encodedSize_eq h small
      exact ⟨size, writes_frame size small (PublishAckOf.writes fits h small)⟩
  | publishReceived p =>
      have size := PublishAckOf.encodedSize_eq h small
      exact ⟨size, writes_frame size small (PublishAckOf.writes fits h small)⟩
  | publishRelease p =>
      have size := PublishAckOf.encodedSize_eq h small
      exact ⟨size, writes_frame size small (PublishAckOf.writes fits h small)⟩
  | publishComplete p =>
      have size := PublishAckOf.encodedSize_eq h small
      exact ⟨size, writes_frame size small (PublishAckOf.writes fits h small)⟩
  | subscribe p =>
      cases h
      have size := Subscribe.encodedSize_eq fits (.inl small)
      exact ⟨size, writes_frame size small (Subscribe.writes fits small)⟩
  | subscribeAck p =>
      obtain rfl := SubscribeAck.encodedSize_eq_ok h small
      have size := (StatusAckOf.length_image_cutTo small).symm
      exact ⟨size, writes_frame size small (StatusAckOf.writes fits small)⟩
  | unsubscribe p =>
      cases h
      have size := Unsubscribe.encodedSize_eq (.inl small)
      exact ⟨size, writes_frame size small (Unsubscribe.writes fits small)⟩
  | unsubscribeAck p =>
      have sum := UnsubscribeAck.encodedSize_eq p limit
      obtain rfl : UnsubscribeAck.encodedSize p limit = n := by cases h; rfl
      rw [sum] at small ⊢
      have size := (StatusAckOf.length_image_cutTo small).symm
      exact ⟨size, writes_frame size small (StatusAckOf.writes fits small)⟩
  | pingRequest =>
      cases h
      exact ⟨rfl, Writes.putSlice _⟩
  | pingResponse =>
      cases h
      exact ⟨rfl, Writes.putSlice _⟩
  | disconnect p =>
      cases h
      have size := Disconnect.encodedSize_eq (.inl small)
      exact ⟨size, writes_frame size small (Disconnect.writes fits small)⟩
  | auth p =>
      cases h
      have size := Auth.encodedSize_eq (.inl small)
      exact ⟨size, writes_frame size small (Auth.writes fits small)⟩

/-- The decoder reads the content of a packet back. -/
theorem decodes {p : Packet} (fits : p.Fits) (acceptable : p.Acceptable)
    (small : p.content.length ≤ MAX_PACKET_SIZE) :
    DecodesAll (decodePacket p.firstByte) p.content p.normalized := by
  cases p with
  | connect p => exact DecodesAll.map (Connect.decode_image fits acceptable.1 acceptable.2 small)
  | connectAck p => exact DecodesAll.map (ConnectAck.decode_image fits small)
  | publish p =>
      have range : packetType.PUBLISH_START ≤ (publish p).firstByte ∧
          (publish p).firstByte ≤ packetType.PUBLISH_END := p.flags_firstByte.2.2.2
      unfold decodePacket
      rw [if_pos range]
      exact DecodesAll.map (Publish.decode_image fits small)
  | publishAck p => exact DecodesAll.map (PublishAckOf.decode_image _ fits small)
  | publishReceived p => exact DecodesAll.map (PublishAckOf.decode_image _ fits small)
  | publishRelease p => exact DecodesAll.map (PublishAckOf.decode_image _ fits small)
  | publishComplete p => exact DecodesAll.map (PublishAckOf.decode_image _ fits small)
  | subscribe p => exact DecodesAll.map (Subscribe.decode_image fits small)
  | subscribeAck p => exact DecodesAll.map (StatusAckOf.decode_image fits small)
  | unsubscribe p => exact DecodesAll.map (Unsubscribe.decode_image fits small)
  | unsubscribeAck p => exact DecodesAll.map (StatusAckOf.decode_image fits small)
  | pingRequest => exact DecodesAll.pure _
  | pingResponse => exact DecodesAll.pure _
  | disconnect p => exact DecodesAll.map (Disconnect.decode_image fits small)
  | auth p => exact DecodesAll.map (Auth.decode_image fits small)

/-- Nothing is cut from a packet that stays a few bytes below the largest size. -/
theorem cut_eq_self {p : Packet} (h : p.content.length + 4 ≤ MAX_PACKET_SIZE) :
    p.cut MAX_PACKET_SIZE = p := by
  have whole : p.content.length ≤ MAX_PACKET_SIZE := by omega
  cases p with
  | connectAck p => exact congrArg connectAck (ConnectAck.cut_eq_self whole)
  | publishAck p => exact congrArg publishAck (PublishAckOf.cut_eq_self h)
  | publishReceived p => exact congrArg publishReceived (PublishAckOf.cut_eq_self h)
  | publishRelease p => exact congrArg publishRelease (PublishAckOf.cut_eq_self h)
  | publishComplete p => exact congrArg publishComplete (PublishAckOf.cut_eq_self h)
  | subscribeAck p => exact congrArg subscribeAck (StatusAckOf.cut_eq_self h)
  | unsubscribeAck p => exact congrArg unsubscribeAck (StatusAckOf.cut_eq_self h)
  | disconnect p => exact congrArg disconnect (Disconnect.cut_eq_self whole)
  | auth p => exact congrArg auth (Auth.cut_eq_self whole)
  | _ => rfl

/-- The size of a packet that nothing is cut from. -/
theorem encodedSize_max {p : Packet} (fits : p.Fits) (small : p.content.length ≤ MAX_PACKET_SIZE)
    (whole : p.cut MAX_PACKET_SIZE = p) :
    p.encodedSize MAX_PACKET_SIZE = .ok p.content.length := by
  cases p with
  | connect p => exact congrArg Outcome.ok (Connect.encodedSize_eq (.inr small))
  | connectAck p => exact congrArg Outcome.ok (ConnectAck.encodedSize_max small)
  | publish p => exact congrArg Outcome.ok (Publish.encodedSize_eq fits (.inr small))
  | publishAck p => exact PublishAckOf.encodedSize_max small (publishAck.inj whole)
  | publishReceived p => exact PublishAckOf.encodedSize_max small (publishReceived.inj whole)
  | publishRelease p => exact PublishAckOf.encodedSize_max small (publishRelease.inj whole)
  | publishComplete p => exact PublishAckOf.encodedSize_max small (publishComplete.inj whole)
  | subscribe p => exact congrArg Outcome.ok (Subscribe.encodedSize_eq fits (.inr small))
  | subscribeAck p => exact SubscribeAck.encodedSize_max small (subscribeAck.inj whole)
  | unsubscribe p => exact congrArg Outcome.ok (Unsubscribe.encodedSize_eq (.inr small))
  | unsubscribeAck p =>
      have sum := StatusAckOf.size_max small (unsubscribeAck.inj whole)
      exact congrArg Outcome.ok ((UnsubscribeAck.encodedSize_eq p _).trans sum)
  | pingRequest => rfl
  | pingResponse => rfl
  | disconnect p => exact congrArg Outcome.ok (Disconnect.encodedSize_max small)
  | auth p => exact congrArg Outcome.ok (Auth.encodedSize_max small)

end Packet

end OxiMqtt.Codec.V5

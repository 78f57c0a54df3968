import OxiMqtt.Codec.V3.Decode

/-!
# The MQTT 3.1.1 encoder

`get_encoded_size`, `encode` and `encode_connect` of `codec/v3/encode.rs`, and the sending
side of the codec of `codec/v3/codec.rs`.

* `Packet.writes`, `Packet.length_content`: the encoder writes the frame of a packet, and the
  size pass has measured its content.
* `Packet.decodes`: the decoder reads the content back, with protocol level 4 for a CONNECT.
* `encode_round_trip`: a well-formed packet is decoded from the bytes it is encoded to.
-/

namespace OxiMqtt.Codec.V3

set_option linter.dupNamespace false

open Wire Wire.Reader Wire.ByteWriter

/-! ## The size pass -/

/-- `Protocol::name` -/
def protocolName (protocol : UInt8) : Bytes := if protocol = MQTT_LEVEL_31 then MQISDP else MQTT

/-- `get_encoded_publish_size` -/
def getEncodedPublishSize (p : Publish) : Nat :=
  if p.qos = .atLeastOnce ∨ p.qos = .exactlyOnce then
    4 + ByteString.len p.topic + p.payload.length
  else 2 + ByteString.len p.topic + p.payload.length

/-- `get_encoded_subscribe_size` -/
def getEncodedSubscribeSize (topicFilters : List (ByteString × QoS)) : Nat :=
  2 + topicFilters.foldl (fun acc f => acc + 2 + ByteString.len f.1 + 1) 0

/-- `get_encoded_unsubscribe_size` -/
def getEncodedUnsubscribeSize (topicFilters : List ByteString) : Nat :=
  2 + topicFilters.foldl (fun acc filter => acc + 2 + ByteString.len filter) 0

/-- The size of a CONNECT. -/
def getEncodedConnectSize (p : Connect) : Nat :=
  1 + 1 + 2 + (2 + (protocolName p.protocol).length) + (2 + ByteString.len p.clientId) +
    (p.lastWill.map fun will => 2 + ByteString.len will.topic + 2 + will.message.length).getD 0 +
    (p.username.map fun s => 2 + ByteString.len s).getD 0 +
    (p.password.map fun bs => 2 + List.length bs).getD 0

/-- `get_encoded_size` -/
def getEncodedSize : Packet → Nat
  | .connect connect => getEncodedConnectSize connect
  | .publish publish => getEncodedPublishSize publish
  | .connectAck _ | .publishAck _ | .publishReceived _ | .publishRelease _ | .publishComplete _
  | .unsubscribeAck _ => 2
  | .subscribe _ topicFilters => getEncodedSubscribeSize topicFilters
  | .subscribeAck _ status => 2 + status.length
  | .unsubscribe _ topicFilters => getEncodedUnsubscribeSize topicFilters
  | .pingRequest | .pingResponse | .disconnect => 0

/-! ## The encode pass -/

/-- The flags of a CONNECT. -/
def Connect.flags (p : Connect) : UInt8 :=
  ConnectFlags.build p.username.isSome p.password.isSome
    (p.lastWill.map fun will => (will.retain, will.qos)) p.cleanSession

/-- `encode_connect` -/
def encodeConnect (p : Connect) : ByteWriter EncodeError Unit := do
  Codec.encode (protocolName p.protocol)
  putSlice [MQTT_LEVEL_311, p.flags]
  putU16 p.keepAlive
  Codec.encode p.clientId
  forSome p.lastWill fun will => do
    Codec.encode will.topic
    Codec.encode will.message
  forSome p.username Codec.encode
  forSome p.password Codec.encode

/-- The first byte of a PUBLISH. -/
def publishByte (p : Publish) : UInt8 :=
  packetType.PUBLISH_START ||| (toU8 p.qos <<< 1) ||| (boolU8 p.dup <<< 3) ||| boolU8 p.retain

/-- The packet id of a PUBLISH, which must be there exactly above QoS 0. -/
def encodePublishId (p : Publish) : ByteWriter EncodeError Unit :=
  if p.qos = .atMostOnce then
    if p.packetId.isSome then ByteWriter.fail .malformedPacket else pure ()
  else do
    let packetId ← ByteWriter.okOr p.packetId .packetIdRequired
    Codec.encode packetId

/-- The code of one status of a SUBACK. -/
def statusByte : SubscribeReturnCode → UInt8
  | .success qos => toU8 qos
  | .failure => 0x80

/-- A frame: the first byte, the size of the content, and the content. -/
def encodeFrame (firstByte : UInt8) (contentSize : Nat) (content : ByteWriter EncodeError Unit) :
    ByteWriter EncodeError Unit := do
  putU8 firstByte
  writeVariableLength contentSize
  content

/-- `encode` -/
def encode (contentSize : Nat) : Packet → ByteWriter EncodeError Unit
  | .connect connect => encodeFrame packetType.CONNECT contentSize (encodeConnect connect)
  | .connectAck ack => encodeFrame packetType.CONNACK contentSize
      (putSlice [boolU8 ack.sessionPresent, toU8 ack.returnCode])
  | .publish publish => encodeFrame (publishByte publish) contentSize do
      Codec.encode publish.topic
      encodePublishId publish
      putSlice publish.payload
  | .publishAck packetId => encodeFrame packetType.PUBACK contentSize (Codec.encode packetId)
  | .publishReceived packetId => encodeFrame packetType.PUBREC contentSize (Codec.encode packetId)
  | .publishRelease packetId => encodeFrame packetType.PUBREL contentSize (Codec.encode packetId)
  | .publishComplete packetId => encodeFrame packetType.PUBCOMP contentSize (Codec.encode packetId)
  | .subscribe packetId topicFilters => encodeFrame packetType.SUBSCRIBE contentSize do
      Codec.encode packetId
      ByteWriter.forEach (fun f => do Codec.encode f.1; putU8 (toU8 f.2)) topicFilters
  | .subscribeAck packetId status => encodeFrame packetType.SUBACK contentSize do
      Codec.encode packetId
      putSlice (status.map statusByte)
  | .unsubscribe packetId topicFilters => encodeFrame packetType.UNSUBSCRIBE contentSize do
      Codec.encode packetId
      ByteWriter.forEach Codec.encode topicFilters
  | .unsubscribeAck packetId => encodeFrame packetType.UNSUBACK contentSize (Codec.encode packetId)
  | .pingRequest => putSlice [packetType.PINGREQ, 0]
  | .pingResponse => putSlice [packetType.PINGRESP, 0]
  | .disconnect => putSlice [packetType.DISCONNECT, 0]

/-- A PUBLISH above QoS 0 without a packet id. -/
def lacksPacketId : Packet → Bool
  | .publish publish =>
      (publish.qos = .atLeastOnce || publish.qos = .exactlyOnce) && publish.packetId.isNone
  | _ => false

/-- `Encoder::encode` -/
def Codec.encode (_c : Codec) (item : Packet) : ByteWriter EncodeError Unit :=
  if lacksPacketId item then ByteWriter.fail .packetIdRequired
  else V3.encode (getEncodedSize item % 2 ^ 32) item

/-! ## Frames -/

/-- The bytes of a will. -/
def LastWill.image (will : LastWill) : Bytes := Codec.image will.topic ++ Codec.image will.message

/-- The bytes of a CONNECT. -/
def Connect.image (p : Connect) : Bytes :=
  Codec.image (protocolName p.protocol) ++ (MQTT_LEVEL_311 :: p.flags :: (be16 p.keepAlive ++
    (Codec.image p.clientId ++ ((p.lastWill.map LastWill.image).getD [] ++
      ((p.username.map Codec.image).getD [] ++ (p.password.map Codec.image).getD [])))))

/-- The bytes of the packet id of a PUBLISH. -/
def publishIdImage (p : Publish) : Bytes := (p.packetId.map fun id => be16 id.val).getD []

/-- The bytes of one topic filter with its QoS. -/
def filterImage (f : ByteString × QoS) : Bytes := Codec.image f.1 ++ [toU8 f.2]

namespace Packet

/-- The first byte of the frame of a packet. -/
def firstByte : Packet → UInt8
  | connect _ => packetType.CONNECT
  | connectAck _ => packetType.CONNACK
  | publish p => publishByte p
  | publishAck _ => packetType.PUBACK
  | publishReceived _ => packetType.PUBREC
  | publishRelease _ => packetType.PUBREL
  | publishComplete _ => packetType.PUBCOMP
  | subscribe _ _ => packetType.SUBSCRIBE
  | subscribeAck _ _ => packetType.SUBACK
  | unsubscribe _ _ => packetType.UNSUBSCRIBE
  | unsubscribeAck _ => packetType.UNSUBACK
  | pingRequest => packetType.PINGREQ
  | pingResponse => packetType.PINGRESP
  | disconnect => packetType.DISCONNECT

/-- The content of the frame of a packet. -/
def content : Packet → Bytes
  | connect p => p.image
  | connectAck p => [boolU8 p.sessionPresent, toU8 p.returnCode]
  | publish p => Codec.image p.topic ++ (publishIdImage p ++ p.payload)
  | publishAck packetId => be16 packetId.val
  | publishReceived packetId => be16 packetId.val
  | publishRelease packetId => be16 packetId.val
  | publishComplete packetId => be16 packetId.val
  | subscribe packetId topicFilters => be16 packetId.val ++ topicFilters.flatMap filterImage
  | subscribeAck packetId status => be16 packetId.val ++ status.map statusByte
  | unsubscribe packetId topicFilters => be16 packetId.val ++ topicFilters.flatMap Codec.image
  | unsubscribeAck packetId => be16 packetId.val
  | pingRequest => []
  | pingResponse => []
  | disconnect => []

/-- The bytes of a packet on the wire. -/
def frame (p : Packet) : Bytes := p.firstByte :: (varInt p.content.length ++ p.content)

/-- Every string and every binary field has at most 65535 bytes, and a PUBLISH has a packet id
exactly above QoS 0. -/
def Fits : Packet → Prop
  | connect p => Codec.Fits p.clientId ∧
      (∀ will ∈ p.lastWill, Codec.Fits will.topic ∧ Codec.Fits will.message) ∧
      (∀ s ∈ p.username, Codec.Fits s) ∧ ∀ bs ∈ p.password, Codec.Fits bs
  | publish p => Codec.Fits p.topic ∧ (p.packetId.isSome = true ↔ p.qos ≠ .atMostOnce)
  | subscribe _ topicFilters => ∀ f ∈ topicFilters, Codec.Fits f.1
  | unsubscribe _ topicFilters => ∀ f ∈ topicFilters, Codec.Fits f
  | _ => True

/-- What a decoded packet cannot have: an empty client id without a clean session, certificate
information, publish properties. -/
def Acceptable : Packet → Prop
  | connect p => (ByteString.isEmpty p.clientId = true → p.cleanSession = true) ∧ p.cert = none
  | publish p => p.properties = none
  | _ => True

/-- The packet as it comes back: a CONNECT is written with protocol level 4. -/
def reread : Packet → Packet
  | connect p => .connect { p with protocol := MQTT_LEVEL_311 }
  | p => p

end Packet

/-! ## Sizes -/

theorem length_image_string (s : ByteString) : (Codec.image s).length = 2 + ByteString.len s :=
  WireType.length_image s

theorem length_image_bytes (bs : Bytes) : (Codec.image bs).length = 2 + bs.length :=
  WireType.length_image bs

theorem length_connect (p : Connect) : p.image.length = getEncodedConnectSize p := by
  have will : ((p.lastWill.map LastWill.image).getD []).length = (p.lastWill.map fun will =>
      2 + ByteString.len will.topic + 2 + will.message.length).getD 0 := by
    refine length_map_image fun w _ => ?_
    rw [LastWill.image, List.length_append, length_image_string, length_image_bytes]
    omega
  have username : ((p.username.map Codec.image).getD []).length =
      (p.username.map fun s => 2 + ByteString.len s).getD 0 :=
    length_map_image fun s _ => length_image_string s
  have password : ((p.password.map Codec.image).getD []).length =
      (p.password.map fun bs => 2 + List.length bs).getD 0 :=
    length_map_image fun bs _ => length_image_bytes bs
  simp only [Connect.image, getEncodedConnectSize, List.length_append, List.length_cons, will,
    username, password, length_image_string, length_image_bytes, length_be16]
  omega

/-- The size pass measures the content. -/
theorem Packet.length_content {p : Packet} (fits : p.Fits) :
    p.content.length = getEncodedSize p := by
  cases p with
  | connect p => exact length_connect p
  | publish p =>
      have id : (publishIdImage p).length = if p.qos = .atMostOnce then 0 else 2 := by
        have some := fits.2
        rw [publishIdImage]
        cases hid : p.packetId with
        | none => simp [hid] at some; simp [some]
        | some n => simp [hid] at some; simp [some]
      simp only [content, getEncodedSize, getEncodedPublishSize, List.length_append,
        length_image_string, id]
      cases p.qos <;> simp <;> omega
  | subscribe packetId topicFilters =>
      have each : ∀ f : ByteString × QoS, (filterImage f).length = 2 + ByteString.len f.1 + 1 := by
        intro f
        rw [filterImage, List.length_append, length_image_string]
        rfl
      have sum := foldl_size topicFilters each 0
      simp only [← Nat.add_assoc] at sum
      rw [content, getEncodedSize, getEncodedSubscribeSize, List.length_append, sum]
      simp
  | subscribeAck packetId status =>
      simp only [content, getEncodedSize, List.length_append, length_be16, List.length_map]
  | unsubscribe packetId topicFilters =>
      have sum := foldl_size topicFilters length_image_string 0
      simp only [← Nat.add_assoc] at sum
      rw [content, getEncodedSize, getEncodedUnsubscribeSize, List.length_append, sum]
      simp
  | _ => rfl

/-! ## Writing -/

theorem length_protocolName (protocol : UInt8) :
    (protocolName protocol).length = if protocol = MQTT_LEVEL_31 then 6 else 4 := by
  rw [protocolName]
  split <;> rfl

theorem fits_protocolName (protocol : UInt8) : Codec.Fits (protocolName protocol) := by
  change (protocolName protocol).length ≤ 65535
  rw [length_protocolName]
  split <;> decide

theorem writes_connect {p : Connect} (fits : (Packet.connect p).Fits) :
    Writes (encodeConnect p) p.image := by
  rcases fits with ⟨clientId, lastWill, username, password⟩
  have order : p.image = Codec.image (protocolName p.protocol) ++ ([MQTT_LEVEL_311, p.flags] ++
      (be16 p.keepAlive ++ (Codec.image p.clientId ++ ((p.lastWill.map LastWill.image).getD [] ++
        ((p.username.map Codec.image).getD [] ++ (p.password.map Codec.image).getD []))))) := rfl
  rw [order, encodeConnect]
  refine (WireType.writes _ (fits_protocolName p.protocol)).bind ?_
  refine (Writes.putSlice _).bind ((Writes.putU16 _).bind ?_)
  refine (WireType.writes _ clientId).bind ?_
  refine Writes.bind (Writes.forSome fun will h => ?_) ?_
  · exact (WireType.writes _ (lastWill will h).1).bind (WireType.writes _ (lastWill will h).2)
  · refine Writes.bind (Writes.forSome fun s h => WireType.writes s (username s h)) ?_
    exact Writes.forSome fun bs h => WireType.writes bs (password bs h)

theorem writes_publishId {p : Publish} (h : p.packetId.isSome = true ↔ p.qos ≠ .atMostOnce) :
    Writes (encodePublishId p) (publishIdImage p) := by
  rw [encodePublishId, publishIdImage]
  cases hid : p.packetId with
  | none =>
      have zero : p.qos = .atMostOnce := by simpa [hid] using h
      rw [if_pos zero]
      exact Writes.pure
  | some id =>
      have above : p.qos ≠ .atMostOnce := by simpa [hid] using h
      rw [if_neg above]
      exact Writes.bind_okOr rfl (Writes.putU16 id.val)

theorem writes_frame {firstByte : UInt8} {w : ByteWriter EncodeError Unit} {bs : Bytes} {n : Nat}
    (size : bs.length = n) (small : n ≤ MAX_PACKET_SIZE) (h : Writes w bs) :
    Writes (encodeFrame firstByte n w) (firstByte :: (varInt bs.length ++ bs)) := by
  rw [size]
  exact (Writes.putU8 _).bind ((writes_writeVariableLength small).bind h)

/-- The encode pass writes the frame of a packet. -/
theorem Packet.writes {p : Packet} (fits : p.Fits) (small : getEncodedSize p ≤ MAX_PACKET_SIZE) :
    Writes (V3.encode (getEncodedSize p) p) p.frame := by
  have size := length_content fits
  cases p with
  | connect p => exact writes_frame size small (writes_connect fits)
  | connectAck p => exact writes_frame size small (Writes.putSlice _)
  | publish p =>
      refine writes_frame size small ((WireType.writes _ fits.1).bind ?_)
      exact (writes_publishId fits.2).bind (Writes.putSlice _)
  | publishAck packetId => exact writes_frame size small (Writes.putU16 _)
  | publishReceived packetId => exact writes_frame size small (Writes.putU16 _)
  | publishRelease packetId => exact writes_frame size small (Writes.putU16 _)
  | publishComplete packetId => exact writes_frame size small (Writes.putU16 _)
  | subscribe packetId topicFilters =>
      refine writes_frame size small ((Writes.putU16 _).bind ?_)
      exact Writes.forEach _ fun f hf => (WireType.writes f.1 (fits f hf)).bind (Writes.putU8 _)
  | subscribeAck packetId status =>
      exact writes_frame size small ((Writes.putU16 _).bind (Writes.putSlice _))
  | unsubscribe packetId topicFilters =>
      refine writes_frame size small ((Writes.putU16 _).bind ?_)
      exact Writes.forEach _ fun f hf => WireType.writes f (fits f hf)
  | unsubscribeAck packetId => exact writes_frame size small (Writes.putU16 _)
  | pingRequest => exact Writes.putSlice _
  | pingResponse => exact Writes.putSlice _
  | disconnect => exact Writes.putSlice _

/-! ## Reading back -/

theorem decodes_readProtocolName (protocol : UInt8) :
    Decodes (readProtocolName (UInt16.ofNat (protocolName protocol).length))
      (protocolName protocol) () := by
  intro rest
  rw [readProtocolName, protocolName]
  split
  · -- The length of the longer name rules out the shorter one.
    refine (Reader.bind_of_ok
      (show protocolIs 6 4 MQTT (MQISDP ++ rest) = .ok (false, _) from rfl)).trans ?_
    refine (Reader.bind_of_ok (protocolIs_self rfl rfl rest)).trans ?_
    exact (Decodes.advance rfl : Decodes (advance 6) MQISDP ()) rest
  · refine (Reader.bind_of_ok (protocolIs_self rfl rfl rest)).trans ?_
    exact (Decodes.advance rfl : Decodes (advance 4) MQTT ()) rest

theorem decodes_connect {p : Connect} (fits : (Packet.connect p).Fits)
    (acceptable : (Packet.connect p).Acceptable) :
    DecodesAll decodeConnectPacket p.image (.connect { p with protocol := MQTT_LEVEL_311 }) := by
  rcases fits with ⟨clientId, lastWill, username, password⟩
  rcases acceptable with ⟨client, cert⟩
  have bits : ConnectFlags.Announces p.flags _ _ _ _ := ConnectFlags.announces_build _ _ _ _
  have clientOk : (!ByteString.isEmpty p.clientId ||
      contains p.flags ConnectFlags.CLEAN_START) = true := by
    rw [bits.isCleanStart]
    cases h : ByteString.isEmpty p.clientId with
    | false => rfl
    | true => rw [client h]; rfl
  have long : 10 ≤ p.image.length := by
    rw [length_connect, getEncodedConnectSize, length_protocolName]
    split <;> omega
  have willPart : Decodes (readIf (contains p.flags ConnectFlags.WILL) (decodeLastWill p.flags))
      ((p.lastWill.map LastWill.image).getD []) p.lastWill := by
    refine Decodes.readIf (by rw [bits.hasWill, Option.isSome_map]) fun w hw => ?_
    have announced : (w.retain, w.qos) ∈ p.lastWill.map fun will => (will.retain, will.qos) :=
      Option.mem_map_of_mem _ hw
    refine (WireType.decodes w.topic (lastWill w hw).1).bind ?_
    refine (WireType.decodes w.message (lastWill w hw).2).bind_last ?_
    refine (Decodes.fromOutcome (bits.willQos _ announced)).bind_nil ?_
    rw [bits.willRetain _ announced]
    exact Decodes.pure w
  refine DecodesAll.ensureRemaining long ?_
  have order : p.image = be16 (UInt16.ofNat (protocolName p.protocol).length) ++
      (protocolName p.protocol ++ (MQTT_LEVEL_311 :: p.flags :: (be16 p.keepAlive ++
        (Codec.image p.clientId ++ ((p.lastWill.map LastWill.image).getD [] ++
          ((p.username.map Codec.image).getD [] ++ (p.password.map Codec.image).getD [])))))) :=
    List.append_assoc _ _ _
  rw [order]
  refine DecodesAll.bind (Decodes.getU16 _) ?_
  refine DecodesAll.bind (decodes_readProtocolName p.protocol) (DecodesAll.getU8 ?_)
  refine DecodesAll.bind_nil (Decodes.ensure rfl) (DecodesAll.getU8 ?_)
  refine DecodesAll.bind_nil (Decodes.okOr bits.known) ?_
  refine DecodesAll.bind (decodes_u16 p.keepAlive) ?_
  refine DecodesAll.bind (WireType.decodes p.clientId clientId) ?_
  refine DecodesAll.bind_nil (Decodes.ensure clientOk) ?_
  refine DecodesAll.bind willPart ?_
  refine DecodesAll.bind (Decodes.readIf bits.hasUsername fun s hs =>
    WireType.decodes s (username s hs)) ?_
  refine DecodesAll.bind_all (Decodes.readIf bits.hasPassword fun bs hbs =>
    WireType.decodes bs (password bs hbs)).all ?_
  simp only [bits.isCleanStart, ← cert]
  exact DecodesAll.pure _

theorem publishByte_flags (p : Publish) :
    PrimEnum.tryFrom ((publishByte p &&& 0b1111 &&& 0b0110) >>> 1) =
        (.ok p.qos : Outcome DecodeError QoS) ∧
      (publishByte p &&& 0b1111 &&& 0b1000 == 0b1000) = p.dup ∧
      (publishByte p &&& 0b1111 &&& 0b0001 == 0b0001) = p.retain ∧
      packetType.PUBLISH_START ≤ publishByte p ∧ publishByte p ≤ packetType.PUBLISH_END := by
  unfold publishByte
  cases p.qos <;> cases p.dup <;> cases p.retain <;> decide

theorem decodes_publishId {p : Publish} (h : p.packetId.isSome = true ↔ p.qos ≠ .atMostOnce) :
    Decodes (readPublishId p.qos) (publishIdImage p) p.packetId := by
  rw [readPublishId, publishIdImage]
  cases hid : p.packetId with
  | none =>
      have zero : p.qos = .atMostOnce := by simpa [hid] using h
      rw [if_pos zero]
      exact Decodes.pure none
  | some id =>
      have above : p.qos ≠ .atMostOnce := by simpa [hid] using h
      rw [if_neg above]
      exact (WireType.decodes id trivial).map

theorem decodes_publish {p : Publish} (fits : (Packet.publish p).Fits)
    (plain : p.properties = none) :
    DecodesAll (decodePublishPacket (publishByte p &&& 0b1111)) (Packet.publish p).content
      (.publish p) := by
  rcases publishByte_flags p with ⟨qos, dup, retain, -⟩
  refine DecodesAll.bind (WireType.decodes p.topic fits.1) ?_
  refine DecodesAll.bind_nil (Decodes.fromOutcome qos) ?_
  refine DecodesAll.bind (decodes_publishId fits.2) ?_
  refine DecodesAll.bind_all (DecodesAll.takeRest p.payload) ?_
  rw [dup, retain, ← plain]
  exact DecodesAll.pure _

theorem decodes_readTopicFilter {f : ByteString × QoS} (fits : Codec.Fits f.1) :
    Decodes readTopicFilter (filterImage f) f := by
  have masked : toU8 f.2 &&& 0b0000_0011 = toU8 f.2 := by
    cases f.2 <;> rfl
  refine (WireType.decodes f.1 fits).bind ?_
  refine Decodes.ensureRemaining (Nat.le_refl 1) ((Decodes.getU8 _).bind_last ?_)
  rw [masked]
  exact (decodes_tryFrom f.2).bind_nil (Decodes.pure _)

theorem returnCode_statusByte (status : SubscribeReturnCode) :
    returnCode (statusByte status) = .ok status := by
  cases status with
  | failure => rfl
  | success qos => cases qos <;> rfl

theorem decodes_ack (f : NonZeroU16 → Packet) (packetId : NonZeroU16) :
    DecodesAll (decodeAck f) (be16 packetId.val) (f packetId) := by
  refine DecodesAll.bind_all (WireType.decodes packetId trivial).all ?_
  exact DecodesAll.ensureConsumed (DecodesAll.pure _)

/-- The decoder reads the content of a packet back. -/
theorem Packet.decodes {p : Packet} (fits : p.Fits) (acceptable : p.Acceptable) :
    DecodesAll (decodePacket p.firstByte) p.content p.reread := by
  cases p with
  | connect p => exact decodes_connect fits acceptable
  | connectAck p =>
      have flags : fromBits ConnectAckFlags.ALL (boolU8 p.sessionPresent) =
          some (boolU8 p.sessionPresent) := by
        cases p.sessionPresent <;> rfl
      have present : contains (boolU8 p.sessionPresent) ConnectAckFlags.SESSION_PRESENT =
          p.sessionPresent := by
        cases p.sessionPresent <;> rfl
      refine DecodesAll.ensureRemaining (Nat.le_refl 2) (DecodesAll.getU8 ?_)
      refine DecodesAll.bind_nil (Decodes.okOr flags) (DecodesAll.getU8 ?_)
      refine DecodesAll.bind_nil (decodes_tryFrom p.returnCode) ?_
      rw [present]
      exact DecodesAll.pure _
  | publish p =>
      have range : packetType.PUBLISH_START ≤ (publish p).firstByte ∧
          (publish p).firstByte ≤ packetType.PUBLISH_END := (publishByte_flags p).2.2.2
      unfold decodePacket
      rw [if_pos range]
      exact decodes_publish fits acceptable
  | publishAck packetId => exact decodes_ack _ packetId
  | publishReceived packetId => exact decodes_ack _ packetId
  | publishRelease packetId => exact decodes_ack _ packetId
  | publishComplete packetId => exact decodes_ack _ packetId
  | subscribe packetId topicFilters =>
      have filters := feeds_elements (fun f hf => decodes_readTopicFilter (fits f hf)) fun f _ =>
        List.append_ne_nil_of_left_ne_nil (image_ne_nil f.1) _
      refine DecodesAll.bind (WireType.decodes packetId trivial) ?_
      exact DecodesAll.bind_all filters.decodesAll (DecodesAll.pure _)
  | subscribeAck packetId status =>
      refine DecodesAll.bind (WireType.decodes packetId trivial) ?_
      refine DecodesAll.bind_all (DecodesAll.takeRest _) ?_
      refine DecodesAll.bind_nil (Decodes.fromOutcome ?_) (DecodesAll.pure _)
      exact forEach_map status fun code _ => returnCode_statusByte code
  | unsubscribe packetId topicFilters =>
      have filters := feeds_elements (fun f hf => WireType.decodes f (fits f hf)) fun f _ =>
        image_ne_nil f
      refine DecodesAll.bind (WireType.decodes packetId trivial) ?_
      exact DecodesAll.bind_all filters.decodesAll (DecodesAll.pure _)
  | unsubscribeAck packetId => exact decodes_ack _ packetId
  | pingRequest => exact DecodesAll.pure _
  | pingResponse => exact DecodesAll.pure _
  | disconnect => exact DecodesAll.pure _

/-! ## The round trip -/

theorem lacksPacketId_of_fits {p : Packet} (fits : p.Fits) : lacksPacketId p = false := by
  cases p with
  | publish p =>
      have some := fits.2
      rw [lacksPacketId]
      cases hid : p.packetId with
      | some id => simp
      | none =>
          have zero : p.qos = .atMostOnce := by simpa [hid] using some
          simp [zero]
  | _ => rfl

namespace Codec

/-- The codec writes the frame of a packet. -/
theorem writes {p : Packet} (c : Codec) (fits : p.Fits)
    (small : getEncodedSize p ≤ MAX_PACKET_SIZE) : Writes (c.encode p) p.frame := by
  have words : getEncodedSize p % 2 ^ 32 = getEncodedSize p := by
    unfold MAX_PACKET_SIZE at small
    exact Nat.mod_eq_of_lt (by omega)
  rw [encode, lacksPacketId_of_fits fits, if_neg Bool.false_ne_true, words]
  exact Packet.writes fits small

/-- The frame of a packet is read back. -/
theorem decode_frame {p : Packet} (fits : p.Fits) (acceptable : p.Acceptable)
    (small : getEncodedSize p ≤ MAX_PACKET_SIZE) (rest : Bytes) :
    ∃ c, (Codec.new 0).decode (p.frame ++ rest) =
      (.ok (some (p.reread, p.content.length)), c, rest) := by
  have run : decodeFrames framed.decodePacket (framed.maxSize (Codec.new 0))
      (framed.state (Codec.new 0)) (p.frame ++ rest) =
      (.ok (some (p.reread, p.content.length)), .frameHeader, rest) :=
    decodeHeader_frame (Packet.length_content fits ▸ small) (fun h => h.1 rfl)
      (Packet.decodes fits acceptable) rest
  exact ⟨_, framed.decode_of_run run⟩

end Codec

/-- A packet that is decoded from the bytes it is encoded to: its fields are within the wire
limits, a CONNECT has protocol level 4, and the size of the content can be announced. -/
structure Packet.WellFormed (p : Packet) : Prop where
  fits : p.Fits
  acceptable : p.Acceptable
  level : ∀ connect, p = .connect connect → connect.protocol = MQTT_LEVEL_311
  small : getEncodedSize p ≤ MAX_PACKET_SIZE

theorem Packet.WellFormed.reread_eq {p : Packet} (wf : p.WellFormed) : p.reread = p := by
  cases p with
  | connect p =>
      have level := wf.level p rfl
      rw [reread, ← level]
  | _ => rfl

/-- Round trip: encoding a well-formed packet succeeds and writes a content of the size that
was computed, and decoding the bytes with anything behind them gives the packet and that size
back, and leaves what is behind. -/
theorem encode_round_trip {p : Packet} (wf : p.WellFormed) (codec : Codec) (dst rest : Bytes) :
    ∃ content c, codec.encode p dst =
        (.ok (), dst ++ p.firstByte :: (varInt (getEncodedSize p) ++ content)) ∧
      content.length = getEncodedSize p ∧
      (Codec.new 0).decode (p.firstByte :: (varInt (getEncodedSize p) ++ content) ++ rest) =
        (.ok (some (p, getEncodedSize p)), c, rest) := by
  have size := Packet.length_content wf.fits
  have written := Codec.writes codec wf.fits wf.small dst
  rcases Codec.decode_frame wf.fits wf.acceptable wf.small rest with ⟨c, decoded⟩
  rw [Packet.frame, size] at written decoded
  rw [wf.reread_eq] at decoded
  exact ⟨p.content, c, written, size, decoded⟩

/-- A client that resumes its session, with a will and a user name. -/
def resuming : Connect where
  protocol := MQTT_LEVEL_311
  cleanSession := false
  keepAlive := 60
  lastWill := some ⟨.exactlyOnce, true, "w", [1]⟩
  clientId := "c"
  username := some "u"
  password := none
  cert := none

/-- Its CONNECT behind one byte and before a ping. -/
theorem encode_round_trip_resuming :
    ∃ content c, (Codec.new 0).encode (.connect resuming) [9] =
        (.ok (), [9] ++ 0x10 :: (varInt (getEncodedSize (.connect resuming)) ++ content)) ∧
      content.length = getEncodedSize (.connect resuming) ∧
      (Codec.new 0).decode
          (0x10 :: (varInt (getEncodedSize (.connect resuming)) ++ content) ++ [0xC0, 0]) =
        (.ok (some (.connect resuming, getEncodedSize (.connect resuming))), c, [0xC0, 0]) := by
  have fits : (Packet.connect resuming).Fits := by
    refine ⟨?_, fun w hw => ?_, fun s hs => ?_, fun bs hbs => by cases hbs⟩
    · exact show ByteString.len "c" ≤ 65535 by decide
    · cases hw
      exact ⟨show ByteString.len "w" ≤ 65535 by decide, show [(1 : UInt8)].length ≤ 65535 by decide⟩
    · cases hs
      exact show ByteString.len "u" ≤ 65535 by decide
  have wf : (Packet.connect resuming).WellFormed :=
    ⟨fits, ⟨fun h => absurd h (by decide), rfl⟩, fun _ h => by cases h; rfl, by decide⟩
  exact encode_round_trip wf (Codec.new 0) [9] [0xC0, 0]

end OxiMqtt.Codec.V3

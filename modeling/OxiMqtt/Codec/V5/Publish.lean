import OxiMqtt.Codec.V5.Properties

/-!
# MQTT 5 PUBLISH

`codec/v5/packet/publish.rs`.  The packet is a topic, a packet id above QoS 0, a
property block and the payload, which is whatever is left.  The length of the
property block is found backwards, from the size of the whole content.

A packet without properties is written with the default ones and read back with
them (`Publish.normalized`).
-/

namespace OxiMqtt.Codec

open Wire Wire.Reader Wire.ByteWriter V5

namespace V5

/-- The subscription identifier read from a property. -/
def readSubId : Reader DecodeError NonZeroU32 := do
  let id ← decodeVariableLengthCursor
  okOr (NonZeroU32.new (UInt32.ofNat id)) .malformedPacket

/-- The bytes of a subscription identifier property. -/
def subIdImage (id : NonZeroU32) : Bytes := pt.SUB_ID :: varInt id.val.toNat

theorem decodes_readSubId {id : NonZeroU32} (fits : id.val.toNat ≤ MAX_PACKET_SIZE) :
    Decodes readSubId (varInt id.val.toNat) id := by
  refine (decodes_varInt fits).bind_last (Decodes.okOr ?_)
  rw [UInt32.ofNat_toNat, NonZeroU32.new_val]

theorem safe_readSubId : Safe 0 readSubId 0 0 :=
  (safe_variableLengthLoop 0 0).zero_bind
    fun _ => Safe.okOr _ _ 0

theorem writes_subId {id : NonZeroU32} (fits : id.val.toNat ≤ MAX_PACKET_SIZE) :
    Writes (do putU8 pt.SUB_ID; writeVariableLength id.val.toNat) (subIdImage id) :=
  (Writes.putU8 pt.SUB_ID).bind (writes_writeVariableLength fits)

end V5

/-! ## Properties -/

namespace PublishProperties

/-- The properties collected by `parse_publish_properties`. -/
structure Props : Type where
  messageExpiryInterval : Option NonZeroU32 := none
  topicAlias : Option NonZeroU16 := none
  contentType : Option ByteString := none
  correlationData : Option Bytes := none
  subscriptionIds : List NonZeroU32 := []
  responseTopic : Option ByteString := none
  isUtf8Payload : Option Bool := none
  userProps : UserProperties := []

/-- The dispatch of `parse_publish_properties` on the property type. -/
def Props.read (acc : Props) : UInt8 → Reader DecodeError Props
  | pt.UTF8_PAYLOAD => do return { acc with isUtf8Payload := ← readValue acc.isUtf8Payload }
  | pt.MSG_EXPIRY_INT => do
      return { acc with messageExpiryInterval := ← readValue acc.messageExpiryInterval }
  | pt.CONTENT_TYPE => do return { acc with contentType := ← readValue acc.contentType }
  | pt.RESP_TOPIC => do return { acc with responseTopic := ← readValue acc.responseTopic }
  | pt.CORR_DATA => do return { acc with correlationData := ← readValue acc.correlationData }
  | pt.SUB_ID => do return { acc with subscriptionIds := acc.subscriptionIds ++ [← readSubId] }
  | pt.TOPIC_ALIAS => do return { acc with topicAlias := ← readValue acc.topicAlias }
  | pt.USER => do return { acc with userProps := acc.userProps ++ [← decode] }
  | _ => fail .malformedPacket

/-- `parse_publish_properties` -/
def parse : Reader DecodeError PublishProperties := do
  let props ← readProperties Props.read {}
  return {
    messageExpiryInterval := props.messageExpiryInterval
    topicAlias := props.topicAlias
    contentType := props.contentType
    correlationData := props.correlationData
    subscriptionIds := props.subscriptionIds
    responseTopic := props.responseTopic
    isUtf8Payload := props.isUtf8Payload.getD false
    userProperties := props.userProps }

/-- The property length in `encoded_size`. -/
def propLen (p : PublishProperties) : Nat :=
  encodedPropertySize p.topicAlias + encodedPropertySize p.correlationData +
    encodedPropertySize p.messageExpiryInterval + encodedPropertySize p.contentType +
    encodedPropertySizeDefault p.isUtf8Payload false + encodedPropertySize p.responseTopic +
    p.subscriptionIds.foldl (fun acc id => acc + (1 + varIntLen id.val.toNat)) 0 +
    encodedSize p.userProperties

/-- `encoded_size`; the limit is not used. -/
def encodedSize (p : PublishProperties) (_limit : Nat) : Nat := p.propLen + varIntLen p.propLen

/-- `encode` -/
def encode (p : PublishProperties) (size : Nat) : ByteWriter EncodeError Unit := do
  let propLen ← varIntLenFromSize size
  writeVariableLength propLen
  encodeProperty p.topicAlias pt.TOPIC_ALIAS
  encodeProperty p.correlationData pt.CORR_DATA
  encodeProperty p.messageExpiryInterval pt.MSG_EXPIRY_INT
  encodeProperty p.contentType pt.CONTENT_TYPE
  encodePropertyDefault p.isUtf8Payload false pt.UTF8_PAYLOAD
  encodeProperty p.responseTopic pt.RESP_TOPIC
  ByteWriter.forEach (fun id => do putU8 pt.SUB_ID; writeVariableLength id.val.toNat) p.subscriptionIds
  Codec.encode p.userProperties

/-- The fields are within their wire limits. -/
structure Fits (p : PublishProperties) : Prop where
  correlationData : ∀ bs ∈ p.correlationData, Codec.Fits bs
  contentType : ∀ s ∈ p.contentType, Codec.Fits s
  responseTopic : ∀ s ∈ p.responseTopic, Codec.Fits s
  subscriptionIds : ∀ id ∈ p.subscriptionIds, id.val.toNat ≤ MAX_PACKET_SIZE
  userProperties : UsersFit p.userProperties

/-- The bytes of the properties. -/
def propsImage (p : PublishProperties) : Bytes :=
  propImage pt.TOPIC_ALIAS p.topicAlias ++
    (propImage pt.CORR_DATA p.correlationData ++
    (propImage pt.MSG_EXPIRY_INT p.messageExpiryInterval ++
    (propImage pt.CONTENT_TYPE p.contentType ++
    (propImage pt.UTF8_PAYLOAD (elide p.isUtf8Payload false) ++
    (propImage pt.RESP_TOPIC p.responseTopic ++
    (p.subscriptionIds.flatMap subIdImage ++
    usersImage p.userProperties))))))

/-- The bytes of the property block. -/
def image (p : PublishProperties) : Bytes := varInt p.propsImage.length ++ p.propsImage

theorem foldl_subIds {ids : List NonZeroU32} (fits : ∀ id ∈ ids, id.val.toNat ≤ MAX_PACKET_SIZE)
    (start : Nat) : ids.foldl (fun acc id => acc + (1 + varIntLen id.val.toNat)) start =
      start + (ids.flatMap subIdImage).length := by
  induction ids generalizing start with
  | nil => rfl
  | cons id ids ih =>
      rw [List.foldl_cons, ih fun i hi => fits i (List.mem_cons_of_mem _ hi), List.flatMap_cons,
        List.length_append, varIntLen_eq (fits id List.mem_cons_self), subIdImage, List.length_cons]
      omega

theorem length_propsImage {p : PublishProperties} (fits : p.Fits) :
    p.propsImage.length = p.propLen := by
  unfold propsImage propLen
  rw [foldl_subIds fits.subscriptionIds]
  simp only [List.length_append, length_propImage, length_usersImage, encodedPropertySizeDefault_eq]
  omega

/-- The size pass measures the bytes, if either of the two is small. -/
theorem encodedSize_eq {p : PublishProperties} {limit : Nat} (fits : p.Fits)
    (small : p.encodedSize limit ≤ MAX_PACKET_SIZE ∨ p.image.length ≤ MAX_PACKET_SIZE) :
    p.encodedSize limit = p.image.length := by
  unfold encodedSize at small ⊢
  rw [image, List.length_append, length_propsImage fits] at small ⊢
  rw [varIntLen_eq (by omega)]
  omega

theorem writes {p : PublishProperties} {limit : Nat} (fits : p.Fits)
    (small : p.encodedSize limit ≤ MAX_PACKET_SIZE) :
    Writes (p.encode (p.encodedSize limit)) p.image := by
  have size := encodedSize_eq fits (.inl small)
  have bound : p.propsImage.length ≤ MAX_PACKET_SIZE := by
    rw [length_propsImage fits]
    unfold encodedSize at small
    omega
  rw [size, image, List.length_append, encode, varIntLenFromSize_eq bound]
  refine (writes_writeVariableLength bound).bind ?_
  refine (writes_encodeProperty (fun _ _ => trivial) _).bind ?_
  refine (writes_encodeProperty fits.correlationData _).bind ?_
  refine (writes_encodeProperty (fun _ _ => trivial) _).bind ?_
  refine (writes_encodeProperty fits.contentType _).bind ?_
  refine (writes_encodePropertyDefault trivial _).bind ?_
  refine (writes_encodeProperty fits.responseTopic _).bind ?_
  refine (Writes.forEach _ fun id hid => writes_subId (fits.subscriptionIds id hid)).bind ?_
  exact writes_users fits.userProperties

theorem feeds_props {p : PublishProperties} (fits : p.Fits) :
    FeedsProps Props.read {} p.propsImage
      { messageExpiryInterval := p.messageExpiryInterval
        topicAlias := p.topicAlias
        contentType := p.contentType
        correlationData := p.correlationData
        subscriptionIds := p.subscriptionIds
        responseTopic := p.responseTopic
        isUtf8Payload := elide p.isUtf8Payload false
        userProps := p.userProperties } :=
  (feeds_property pt.TOPIC_ALIAS (fun (acc : Props) x => { acc with topicAlias := x })
      p.topicAlias rfl rfl fun _ _ => trivial).trans
    ((feeds_property pt.CORR_DATA (fun (acc : Props) x => { acc with correlationData := x })
      p.correlationData rfl rfl fits.correlationData).trans
    ((feeds_property pt.MSG_EXPIRY_INT (fun (acc : Props) x => { acc with messageExpiryInterval := x })
      p.messageExpiryInterval rfl rfl fun _ _ => trivial).trans
    ((feeds_property pt.CONTENT_TYPE (fun (acc : Props) x => { acc with contentType := x })
      p.contentType rfl rfl fits.contentType).trans
    ((feeds_property pt.UTF8_PAYLOAD (fun (acc : Props) x => { acc with isUtf8Payload := x })
      (elide p.isUtf8Payload false) rfl rfl fun _ _ => trivial).trans
    ((feeds_property pt.RESP_TOPIC (fun (acc : Props) x => { acc with responseTopic := x })
      p.responseTopic rfl rfl fits.responseTopic).trans
    ((feeds_list pt.SUB_ID (fun (acc : Props) ids => { acc with subscriptionIds := ids })
      (fun _ => rfl) rfl fun id hid => decodes_readSubId (fits.subscriptionIds id hid)).trans
    (feeds_users (fun (acc : Props) us => { acc with userProps := us }) (fun _ => rfl) rfl
      fits.userProperties)))))))

theorem decodes {p : PublishProperties} (fits : p.Fits)
    (small : p.propsImage.length ≤ MAX_PACKET_SIZE) : Decodes parse p.image p := by
  refine (decodes_readProperties (feeds_props fits) small).bind_last ?_
  rw [getD_elide]
  exact Decodes.pure p

theorem safe_read (acc : Props) (tag : UInt8) : Safe 0 (acc.read tag) 0 0 := by
  unfold Props.read
  split
  all_goals first
    | exact (safe_readValue _).bind_zero fun _ => Safe.pure _ 0
    | exact safe_readSubId.bind_zero fun _ => Safe.pure _ 0
    | exact safe_decode.bind_zero fun _ => Safe.pure _ 0
    | exact Safe.fail _ 0 0 0

theorem safe_parse : Safe 0 parse 0 0 :=
  (safe_readProperties safe_read _).zero_bind fun _ => Safe.pure _ 0

theorem fits_default : PublishProperties.default.Fits where
  correlationData := fun _ h => by cases h
  contentType := fun _ h => by cases h
  responseTopic := fun _ h => by cases h
  subscriptionIds := fun _ h => by cases h
  userProperties := fun _ h => by cases h

end PublishProperties

/-! ## The packet -/

namespace Publish

/-- The packet id, which packets above QoS 0 carry. -/
def readPacketId (qos : QoS) : Reader DecodeError (Option NonZeroU16) :=
  if qos = .atMostOnce then pure none else some <$> decode

/-- `Publish::decode` -/
def decode (packetFlags : UInt8) : Reader DecodeError Publish := do
  let topic : ByteString ← Codec.decode
  let qos ← fromOutcome (PrimEnum.tryFrom ((packetFlags &&& 0b0110) >>> 1))
  let packetId ← readPacketId qos
  let properties ← PublishProperties.parse
  let payload ← takeRest
  return {
    dup := packetFlags &&& 0b1000 == 0b1000
    qos
    retain := packetFlags &&& 0b0001 == 0b0001
    topic
    packetId
    payload
    properties := some properties }

/-- `encoded_size`; the limit is not used. -/
def encodedSize (p : Publish) (limit : Nat) : Nat :=
  let packetIdSize := if p.qos = .atMostOnce then 0 else 2
  Codec.encodedSize p.topic + packetIdSize +
    (p.properties.getD PublishProperties.default).encodedSize limit + p.payload.length

/-- The packet id of `Publish::encode`. -/
def encodePacketId (p : Publish) : ByteWriter EncodeError Unit :=
  if p.qos = .atMostOnce then
    if p.packetId.isSome then fail .malformedPacket else pure ()
  else do
    let packetId ← okOr p.packetId .packetIdRequired
    Codec.encode packetId

/-- `encode` -/
def encode (p : Publish) (size : Nat) : ByteWriter EncodeError Unit := do
  counted
    (do
      Codec.encode p.topic
      p.encodePacketId)
    fun written => do
      let propSize ← checkedSub size ((written + p.payload.length) % 2 ^ 32)
      (p.properties.getD PublishProperties.default).encode propSize
      putSlice p.payload

/-- The first byte of the packet, with the flags of the fixed header. -/
def firstByte (p : Publish) : UInt8 :=
  packetType.PUBLISH_START ||| (toU8 p.qos <<< 1) ||| (boolU8 p.dup <<< 3) ||| boolU8 p.retain

/-- The packet as the decoder returns it: with its properties, or the default ones. -/
def normalized (p : Publish) : Publish :=
  { p with properties := some (p.properties.getD PublishProperties.default) }

/-- The fields are within their wire limits, and there is a packet id exactly
above QoS 0. -/
structure Fits (p : Publish) : Prop where
  topic : Codec.Fits p.topic
  packetId : p.packetId.isSome = true ↔ p.qos ≠ .atMostOnce
  properties : ∀ props ∈ p.properties, props.Fits

/-- The bytes of the content. -/
def image (p : Publish) : Bytes :=
  Codec.image p.topic ++ ((p.packetId.map Codec.image).getD [] ++
    ((p.properties.getD PublishProperties.default).image ++ p.payload))

theorem Fits.props {p : Publish} (fits : p.Fits) :
    (p.properties.getD PublishProperties.default).Fits := by
  cases h : p.properties with
  | none => exact PublishProperties.fits_default
  | some props => exact fits.properties props h

/-- The packet id by the QoS. -/
theorem Fits.packetId_cases {p : Publish} (fits : p.Fits) :
    (p.qos = .atMostOnce ∧ p.packetId = none) ∨
      (p.qos ≠ .atMostOnce ∧ ∃ id, p.packetId = some id) := by
  by_cases h : p.qos = .atMostOnce
  · refine .inl ⟨h, ?_⟩
    cases hid : p.packetId with
    | none => rfl
    | some id => exact absurd h (fits.packetId.mp (by rw [hid]; rfl))
  · exact .inr ⟨h, Option.isSome_iff_exists.mp (fits.packetId.mpr h)⟩

theorem length_packetIdImage {p : Publish} (fits : p.Fits) :
    ((p.packetId.map Codec.image).getD []).length = if p.qos = .atMostOnce then 0 else 2 := by
  rcases fits.packetId_cases with ⟨hq, hid⟩ | ⟨hq, id, hid⟩
  · rw [hid, if_pos hq]
    rfl
  · rw [hid, if_neg hq]
    rfl

/-- The size pass measures the bytes, if either of the two is small. -/
theorem encodedSize_eq {p : Publish} {limit : Nat} (fits : p.Fits)
    (small : p.encodedSize limit ≤ MAX_PACKET_SIZE ∨ p.image.length ≤ MAX_PACKET_SIZE) :
    p.encodedSize limit = p.image.length := by
  unfold encodedSize at small ⊢
  dsimp only at small ⊢
  rw [image, List.length_append, List.length_append, List.length_append, length_packetIdImage fits]
    at small ⊢
  have props : (p.properties.getD PublishProperties.default).encodedSize limit = _ :=
    PublishProperties.encodedSize_eq fits.props (by omega)
  rw [props, WireType.length_image]
  omega

theorem writes_packetId {p : Publish} (fits : p.Fits) :
    Writes p.encodePacketId ((p.packetId.map Codec.image).getD []) := by
  unfold encodePacketId
  rcases fits.packetId_cases with ⟨hq, hid⟩ | ⟨hq, id, hid⟩
  · rw [if_pos hq, hid]
    exact Writes.pure
  · rw [if_neg hq, hid]
    exact Writes.bind_okOr rfl (Writes.putU16 id.val)

theorem writes {p : Publish} {limit : Nat} (fits : p.Fits)
    (small : p.encodedSize limit ≤ MAX_PACKET_SIZE) :
    Writes (p.encode (p.encodedSize limit)) p.image := by
  have total := encodedSize_eq fits (.inl small)
  have propsSmall : (p.properties.getD PublishProperties.default).encodedSize limit ≤
      MAX_PACKET_SIZE := by
    unfold encodedSize at small
    dsimp only at small
    omega
  have size := PublishProperties.encodedSize_eq fits.props (.inl propsSmall)
  have props := PublishProperties.writes fits.props propsSmall
  rw [image, ← List.append_assoc] at total ⊢
  refine Writes.counted ((WireType.writes p.topic fits.topic).bind (writes_packetId fits)) ?_
  have words : (Codec.image p.topic ++ (p.packetId.map Codec.image).getD []).length +
      p.payload.length < 2 ^ 32 := by
    unfold MAX_PACKET_SIZE at small
    simp only [List.length_append] at total ⊢
    omega
  rw [Nat.mod_eq_of_lt words]
  refine Writes.bind_checkedSub ?_ (props.bind (Writes.putSlice _))
  rw [size]
  simp only [List.length_append] at total ⊢
  omega

theorem readPacketId_decodes {p : Publish} (fits : p.Fits) :
    Decodes (readPacketId p.qos) ((p.packetId.map Codec.image).getD []) p.packetId := by
  unfold readPacketId
  rcases fits.packetId_cases with ⟨hq, hid⟩ | ⟨hq, id, hid⟩
  · rw [if_pos hq, hid]
    exact Decodes.pure none
  · rw [if_neg hq, hid]
    exact (WireType.decodes id trivial).map

/-- What the decoder reads from the first byte. -/
theorem flags_firstByte (p : Publish) :
    PrimEnum.tryFrom ((p.firstByte &&& 0b1111 &&& 0b0110) >>> 1) =
        (.ok p.qos : Outcome DecodeError QoS) ∧
      (p.firstByte &&& 0b1111 &&& 0b1000 == 0b1000) = p.dup ∧
      (p.firstByte &&& 0b1111 &&& 0b0001 == 0b0001) = p.retain ∧
      packetType.PUBLISH_START ≤ p.firstByte ∧ p.firstByte ≤ packetType.PUBLISH_END := by
  unfold firstByte
  cases p.qos <;> cases p.dup <;> cases p.retain <;> decide

theorem decode_image {p : Publish} (fits : p.Fits) (small : p.image.length ≤ MAX_PACKET_SIZE) :
    DecodesAll (decode (p.firstByte &&& 0b1111)) p.image p.normalized := by
  obtain ⟨qos, dup, retain, -⟩ := p.flags_firstByte
  have block : (p.properties.getD PublishProperties.default).propsImage.length ≤
      MAX_PACKET_SIZE := by
    simp only [image, PublishProperties.image, List.length_append] at small
    omega
  refine DecodesAll.bind (WireType.decodes p.topic fits.topic) ?_
  refine DecodesAll.bind_nil (Decodes.fromOutcome qos) ?_
  refine DecodesAll.bind (readPacketId_decodes fits) ?_
  refine DecodesAll.bind (PublishProperties.decodes fits.props block) ?_
  refine DecodesAll.bind_all (DecodesAll.takeRest p.payload) ?_
  rw [dup, retain]
  exact DecodesAll.pure p.normalized

theorem safe (packetFlags : UInt8) : Safe 0 (decode packetFlags) 0 0 := by
  refine safe_decode.zero_bind fun topic => (safe_tryFrom _ 0).zero_bind fun qos => ?_
  have packetId : Safe 0 (readPacketId qos) 0 0 := by
    unfold readPacketId
    split
    · exact Safe.pure none 0
    · exact safe_decode.map
  refine packetId.zero_bind fun id => PublishProperties.safe_parse.zero_bind fun props => ?_
  exact (Safe.takeRest 0).zero_bind fun payload => Safe.pure _ 0

end Publish

end OxiMqtt.Codec

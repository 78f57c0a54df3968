import OxiMqtt.Codec.V5.Properties

/-!
# MQTT 5 CONNECT

`codec/v5/packet/connect.rs`: the protocol name and level, the connect flags, the
property block, and the payload whose parts the flags announce.  A will has a
property block of its own.

The flag byte announces the parts of the payload (`ConnectFlags.announces_build`).
-/

namespace OxiMqtt.Codec.V5

open Wire Wire.Reader Wire.ByteWriter

/-- `LastWill` -/
structure LastWill : Type where
  qos : QoS
  retain : Bool
  topic : ByteString
  message : Bytes
  willDelayIntervalSec : Option UInt32
  correlationData : Option Bytes
  messageExpiryInterval : Option NonZeroU32
  contentType : Option ByteString
  userProperties : UserProperties
  isUtf8Payload : Option Bool
  responseTopic : Option ByteString
  deriving DecidableEq, Repr

/-- `Connect` -/
structure Connect : Type where
  cleanStart : Bool
  keepAlive : UInt16
  sessionExpiryIntervalSecs : UInt32
  authMethod : Option ByteString
  authData : Option Bytes
  requestProblemInfo : Bool
  requestResponseInfo : Bool
  receiveMax : Option NonZeroU16
  topicAliasMax : UInt16
  userProperties : UserProperties
  maxPacketSize : Option NonZeroU32
  lastWill : Option LastWill
  clientId : ByteString
  username : Option ByteString
  password : Option Bytes
  cert : Option CertInfo
  deriving DecidableEq, Repr

/-! ## The will -/

namespace LastWill

/-- The properties collected by `decode_last_will`. -/
structure Props : Type where
  willDelayIntervalSec : Option UInt32 := none
  correlationData : Option Bytes := none
  messageExpiryInterval : Option NonZeroU32 := none
  contentType : Option ByteString := none
  userProperties : UserProperties := []
  isUtf8Payload : Option Bool := none
  responseTopic : Option ByteString := none

/-- The dispatch of `decode_last_will` on the property type. -/
def Props.read (acc : Props) : UInt8 → Reader DecodeError Props
  | pt.WILL_DELAY_INT => do
      return { acc with willDelayIntervalSec := ← readValue acc.willDelayIntervalSec }
  | pt.CORR_DATA => do return { acc with correlationData := ← readValue acc.correlationData }
  | pt.MSG_EXPIRY_INT => do
      return { acc with messageExpiryInterval := ← readValue acc.messageExpiryInterval }
  | pt.CONTENT_TYPE => do return { acc with contentType := ← readValue acc.contentType }
  | pt.UTF8_PAYLOAD => do return { acc with isUtf8Payload := ← readValue acc.isUtf8Payload }
  | pt.RESP_TOPIC => do return { acc with responseTopic := ← readValue acc.responseTopic }
  | pt.USER => do return { acc with userProperties := acc.userProperties ++ [← decode] }
  | _ => fail .malformedPacket

/-- `decode_last_will` -/
def decode (flags : UInt8) : Reader DecodeError LastWill := do
  let props ← readProperties Props.read {}
  let topic : ByteString ← Codec.decode
  let message : Bytes ← Codec.decode
  let qos ← fromOutcome
    (PrimEnum.tryFrom ((flags &&& ConnectFlags.WILL_QOS) >>> WILL_QOS_SHIFT))
  return {
    qos
    retain := contains flags ConnectFlags.WILL_RETAIN
    topic
    message
    willDelayIntervalSec := props.willDelayIntervalSec
    correlationData := props.correlationData
    messageExpiryInterval := props.messageExpiryInterval
    contentType := props.contentType
    userProperties := props.userProperties
    isUtf8Payload := props.isUtf8Payload
    responseTopic := props.responseTopic }

/-- `LastWill::properties_len` -/
def propertiesLen (w : LastWill) : Nat :=
  encodedPropertySize w.willDelayIntervalSec + encodedPropertySize w.correlationData +
    encodedPropertySize w.messageExpiryInterval + encodedPropertySize w.contentType +
    encodedPropertySize w.isUtf8Payload + encodedPropertySize w.responseTopic +
    encodedSize w.userProperties

/-- The share of a will in `Connect::encoded_size`. -/
def size (w : LastWill) : Nat :=
  varIntLen w.propertiesLen + w.propertiesLen + encodedSize w.topic + encodedSize w.message

/-- The part of `Connect::encode` that writes the will. -/
def encode (w : LastWill) : ByteWriter EncodeError Unit := do
  writeVariableLength (w.propertiesLen % 2 ^ 32)
  encodeProperty w.willDelayIntervalSec pt.WILL_DELAY_INT
  encodeProperty w.isUtf8Payload pt.UTF8_PAYLOAD
  encodeProperty w.messageExpiryInterval pt.MSG_EXPIRY_INT
  encodeProperty w.contentType pt.CONTENT_TYPE
  encodeProperty w.responseTopic pt.RESP_TOPIC
  encodeProperty w.correlationData pt.CORR_DATA
  Codec.encode w.userProperties
  Codec.encode w.topic
  Codec.encode w.message

/-- The fields are within their wire limits. -/
structure Fits (w : LastWill) : Prop where
  topic : Codec.Fits w.topic
  message : Codec.Fits w.message
  correlationData : ∀ bs ∈ w.correlationData, Codec.Fits bs
  contentType : ∀ s ∈ w.contentType, Codec.Fits s
  responseTopic : ∀ s ∈ w.responseTopic, Codec.Fits s
  userProperties : UsersFit w.userProperties

/-- The bytes of the will properties. -/
def propsImage (w : LastWill) : Bytes :=
  propImage pt.WILL_DELAY_INT w.willDelayIntervalSec ++
    (propImage pt.UTF8_PAYLOAD w.isUtf8Payload ++
    (propImage pt.MSG_EXPIRY_INT w.messageExpiryInterval ++
    (propImage pt.CONTENT_TYPE w.contentType ++
    (propImage pt.RESP_TOPIC w.responseTopic ++
    (propImage pt.CORR_DATA w.correlationData ++
    usersImage w.userProperties)))))

/-- The bytes of the will. -/
def image (w : LastWill) : Bytes :=
  (varInt w.propsImage.length ++ w.propsImage) ++ (Codec.image w.topic ++ Codec.image w.message)

theorem length_propsImage (w : LastWill) : w.propsImage.length = w.propertiesLen := by
  unfold propsImage propertiesLen
  simp only [List.length_append, length_propImage, length_usersImage]
  omega

theorem length_image {w : LastWill} (small : w.propertiesLen ≤ MAX_PACKET_SIZE) :
    w.image.length = w.size := by
  simp only [image, size, List.length_append, length_propsImage, WireType.length_image,
    varIntLen_eq small]
  omega

theorem writes {w : LastWill} (fits : w.Fits) (small : w.propertiesLen ≤ MAX_PACKET_SIZE) :
    Writes w.encode w.image := by
  have len : w.propertiesLen % 2 ^ 32 = w.propsImage.length := by
    rw [length_propsImage]
    exact Nat.mod_eq_of_lt (by unfold MAX_PACKET_SIZE at small; omega)
  have block : w.image = varInt w.propsImage.length ++ (w.propsImage ++
      (Codec.image w.topic ++ Codec.image w.message)) := List.append_assoc _ _ _
  rw [block, encode, len]
  refine (writes_writeVariableLength (length_propsImage w ▸ small)).bind ?_
  simp only [propsImage, List.append_assoc]
  refine (writes_encodeProperty (fun _ _ => trivial) _).bind ?_
  refine (writes_encodeProperty (fun _ _ => trivial) _).bind ?_
  refine (writes_encodeProperty (fun _ _ => trivial) _).bind ?_
  refine (writes_encodeProperty fits.contentType _).bind ?_
  refine (writes_encodeProperty fits.responseTopic _).bind ?_
  refine (writes_encodeProperty fits.correlationData _).bind ?_
  refine (writes_users fits.userProperties).bind ?_
  exact (WireType.writes _ fits.topic).bind (WireType.writes _ fits.message)

theorem feeds_props {w : LastWill} (fits : w.Fits) :
    FeedsProps Props.read {} w.propsImage
      { willDelayIntervalSec := w.willDelayIntervalSec
        correlationData := w.correlationData
        messageExpiryInterval := w.messageExpiryInterval
        contentType := w.contentType
        userProperties := w.userProperties
        isUtf8Payload := w.isUtf8Payload
        responseTopic := w.responseTopic } :=
  (feeds_property pt.WILL_DELAY_INT (fun (acc : Props) x => { acc with willDelayIntervalSec := x })
      w.willDelayIntervalSec rfl rfl fun _ _ => trivial).trans
    ((feeds_property pt.UTF8_PAYLOAD (fun (acc : Props) x => { acc with isUtf8Payload := x })
      w.isUtf8Payload rfl rfl fun _ _ => trivial).trans
    ((feeds_property pt.MSG_EXPIRY_INT (fun (acc : Props) x => { acc with messageExpiryInterval := x })
      w.messageExpiryInterval rfl rfl fun _ _ => trivial).trans
    ((feeds_property pt.CONTENT_TYPE (fun (acc : Props) x => { acc with contentType := x })
      w.contentType rfl rfl fits.contentType).trans
    ((feeds_property pt.RESP_TOPIC (fun (acc : Props) x => { acc with responseTopic := x })
      w.responseTopic rfl rfl fits.responseTopic).trans
    ((feeds_property pt.CORR_DATA (fun (acc : Props) x => { acc with correlationData := x })
      w.correlationData rfl rfl fits.correlationData).trans
    (feeds_users (fun (acc : Props) us => { acc with userProperties := us }) (fun _ => rfl) rfl
      fits.userProperties))))))

/-- The will is read back under flags that carry its QoS and retain bit. -/
theorem decodes {w : LastWill} {flags : UInt8} (fits : w.Fits)
    (small : w.propertiesLen ≤ MAX_PACKET_SIZE)
    (qos : PrimEnum.tryFrom ((flags &&& ConnectFlags.WILL_QOS) >>> WILL_QOS_SHIFT) =
      (.ok w.qos : Outcome DecodeError QoS))
    (retain : contains flags ConnectFlags.WILL_RETAIN = w.retain) :
    Decodes (decode flags) w.image w := by
  refine (decodes_readProperties (feeds_props fits) (length_propsImage w ▸ small)).bind ?_
  refine (WireType.decodes w.topic fits.topic).bind ?_
  refine (WireType.decodes w.message fits.message).bind_last ?_
  refine (Decodes.fromOutcome qos).bind_nil ?_
  rw [retain]
  exact Decodes.pure w

theorem safe_read (acc : Props) (tag : UInt8) : Safe 0 (acc.read tag) 0 0 := by
  unfold Props.read
  split
  all_goals first
    | exact (safe_readValue _).bind_zero fun _ => Safe.pure _ 0
    | exact safe_decode.bind_zero fun _ => Safe.pure _ 0
    | exact Safe.fail _ 0 0 0

theorem safe (flags : UInt8) : Safe 0 (decode flags) 0 0 := by
  refine (safe_readProperties safe_read _).zero_bind fun props => ?_
  refine safe_decode.zero_bind fun topic => safe_decode.zero_bind fun message => ?_
  exact (safe_tryFrom _ 0).zero_bind fun _ => Safe.pure _ 0

end LastWill

/-! ## The connect packet -/

namespace Connect

/-- The properties collected by `Connect::decode`. -/
structure Props : Type where
  sessionExpiryIntervalSecs : Option UInt32 := none
  authMethod : Option ByteString := none
  authData : Option Bytes := none
  requestProblemInfo : Option Bool := none
  requestResponseInfo : Option Bool := none
  receiveMax : Option NonZeroU16 := none
  topicAliasMax : Option UInt16 := none
  userProperties : UserProperties := []
  maxPacketSize : Option NonZeroU32 := none

/-- The dispatch of `Connect::decode` on the property type. -/
def Props.read (acc : Props) : UInt8 → Reader DecodeError Props
  | pt.SESS_EXPIRY_INT => do
      return { acc with sessionExpiryIntervalSecs := ← readValue acc.sessionExpiryIntervalSecs }
  | pt.AUTH_METHOD => do return { acc with authMethod := ← readValue acc.authMethod }
  | pt.AUTH_DATA => do return { acc with authData := ← readValue acc.authData }
  | pt.REQ_PROB_INFO => do
      return { acc with requestProblemInfo := ← readValue acc.requestProblemInfo }
  | pt.REQ_RESP_INFO => do
      return { acc with requestResponseInfo := ← readValue acc.requestResponseInfo }
  | pt.RECEIVE_MAX => do return { acc with receiveMax := ← readValue acc.receiveMax }
  | pt.TOPIC_ALIAS_MAX => do return { acc with topicAliasMax := ← readValue acc.topicAliasMax }
  | pt.USER => do return { acc with userProperties := acc.userProperties ++ [← decode] }
  | pt.MAX_PACKET_SIZE => do return { acc with maxPacketSize := ← readValue acc.maxPacketSize }
  | _ => fail .malformedPacket

/-- `Connect::decode` -/
def decode : Reader DecodeError Connect := do
  ensureRemaining 10 .invalidLength
  let len ← getU16
  let named ← protocolIs len 4 MQTT
  ensure named .invalidProtocol
  advance 4
  let level ← getU8
  ensure (level == MQTT_LEVEL_5) .unsupportedProtocolLevel
  let flags ← okOr (fromBits ConnectFlags.ALL (← getU8)) .connectReservedFlagSet
  let keepAlive ← getU16
  let props ← readProperties Props.read {}
  let clientId : ByteString ← Codec.decode
  ensure (!ByteString.isEmpty clientId || contains flags ConnectFlags.CLEAN_START) .invalidClientId
  let lastWill ← readIf (contains flags ConnectFlags.WILL) (LastWill.decode flags)
  let username ← readIf (contains flags ConnectFlags.USERNAME) (Codec.decode : Reader _ ByteString)
  let password ← readIf (contains flags ConnectFlags.PASSWORD) (Codec.decode : Reader _ Bytes)
  return {
    cleanStart := contains flags ConnectFlags.CLEAN_START
    keepAlive
    sessionExpiryIntervalSecs := props.sessionExpiryIntervalSecs.getD 0
    authMethod := props.authMethod
    authData := props.authData
    requestProblemInfo := props.requestProblemInfo.getD true
    requestResponseInfo := props.requestResponseInfo.getD false
    receiveMax := props.receiveMax
    topicAliasMax := props.topicAliasMax.getD 0
    userProperties := props.userProperties
    maxPacketSize := props.maxPacketSize
    lastWill
    clientId
    username
    password
    cert := none }

/-- `Connect::properties_len` -/
def propertiesLen (p : Connect) : Nat :=
  encodedPropertySize p.authMethod + encodedPropertySize p.authData +
    encodedPropertySizeDefault p.sessionExpiryIntervalSecs 0 +
    encodedPropertySizeDefault p.requestProblemInfo true +
    encodedPropertySizeDefault p.requestResponseInfo false +
    encodedPropertySize p.receiveMax + encodedPropertySize p.maxPacketSize +
    encodedPropertySizeDefault p.topicAliasMax 0 + encodedSize p.userProperties

/-- `encoded_size`; the limit is not used. -/
def encodedSize (p : Connect) (_limit : Nat) : Nat :=
  6 + 1 + 1 + 2 + varIntLen p.propertiesLen + p.propertiesLen + Codec.encodedSize p.clientId +
    (p.lastWill.map LastWill.size).getD 0 + (p.username.map Codec.encodedSize).getD 0 +
    (p.password.map Codec.encodedSize).getD 0

/-- The connect flags of `Connect::encode`. -/
def flags (p : Connect) : UInt8 :=
  ConnectFlags.build p.username.isSome p.password.isSome
    (p.lastWill.map fun will => (will.retain, will.qos)) p.cleanStart

/-- `encode`; the size is not used. -/
def encode (p : Connect) (_size : Nat) : ByteWriter EncodeError Unit := do
  Codec.encode MQTT
  putSlice [MQTT_LEVEL_5, p.flags]
  Codec.encode p.keepAlive
  writeVariableLength (p.propertiesLen % 2 ^ 32)
  encodePropertyDefault p.sessionExpiryIntervalSecs 0 pt.SESS_EXPIRY_INT
  encodeProperty p.authMethod pt.AUTH_METHOD
  encodeProperty p.authData pt.AUTH_DATA
  encodePropertyDefault p.requestProblemInfo true pt.REQ_PROB_INFO
  encodePropertyDefault p.requestResponseInfo false pt.REQ_RESP_INFO
  encodeProperty p.receiveMax pt.RECEIVE_MAX
  encodeProperty p.maxPacketSize pt.MAX_PACKET_SIZE
  encodePropertyDefault p.topicAliasMax 0 pt.TOPIC_ALIAS_MAX
  Codec.encode p.userProperties
  Codec.encode p.clientId
  forSome p.lastWill LastWill.encode
  forSome p.username Codec.encode
  forSome p.password Codec.encode

/-! ## Agreement -/

/-- The fields are within their wire limits. -/
structure Fits (p : Connect) : Prop where
  authMethod : ∀ s ∈ p.authMethod, Codec.Fits s
  authData : ∀ bs ∈ p.authData, Codec.Fits bs
  userProperties : UsersFit p.userProperties
  lastWill : ∀ w ∈ p.lastWill, w.Fits
  clientId : Codec.Fits p.clientId
  username : ∀ s ∈ p.username, Codec.Fits s
  password : ∀ bs ∈ p.password, Codec.Fits bs

/-- The bytes of the connect properties. -/
def propsImage (p : Connect) : Bytes :=
  propImage pt.SESS_EXPIRY_INT (elide p.sessionExpiryIntervalSecs 0) ++
    (propImage pt.AUTH_METHOD p.authMethod ++
    (propImage pt.AUTH_DATA p.authData ++
    (propImage pt.REQ_PROB_INFO (elide p.requestProblemInfo true) ++
    (propImage pt.REQ_RESP_INFO (elide p.requestResponseInfo false) ++
    (propImage pt.RECEIVE_MAX p.receiveMax ++
    (propImage pt.MAX_PACKET_SIZE p.maxPacketSize ++
    (propImage pt.TOPIC_ALIAS_MAX (elide p.topicAliasMax 0) ++
    usersImage p.userProperties)))))))

/-- The bytes after the properties. -/
def payloadImage (p : Connect) : Bytes :=
  Codec.image p.clientId ++ ((p.lastWill.map LastWill.image).getD [] ++
    ((p.username.map Codec.image).getD [] ++ (p.password.map Codec.image).getD []))

/-- The bytes of the content. -/
def image (p : Connect) : Bytes :=
  be16 4 ++ (MQTT ++ (MQTT_LEVEL_5 :: p.flags :: (be16 p.keepAlive ++
    ((varInt p.propsImage.length ++ p.propsImage) ++ p.payloadImage))))

/-- The bytes of the content around a property block. -/
def imageAround (p : Connect) (props : Bytes) : Bytes :=
  be16 4 ++ (MQTT ++ (MQTT_LEVEL_5 :: p.flags :: (be16 p.keepAlive ++
    ((varInt props.length ++ props) ++ p.payloadImage))))

theorem length_propsImage (p : Connect) : p.propsImage.length = p.propertiesLen := by
  unfold propsImage propertiesLen
  simp only [List.length_append, length_propImage, length_usersImage, encodedPropertySizeDefault_eq]
  omega

theorem will_le_size {p : Connect} {w : LastWill} (hw : w ∈ p.lastWill) (limit : Nat) :
    w.propertiesLen ≤ p.encodedSize limit := by
  rw [Option.mem_def] at hw
  simp only [encodedSize, hw, Option.map_some, Option.getD_some, LastWill.size]
  omega

theorem will_le_imageAround {p : Connect} {w : LastWill} (hw : w ∈ p.lastWill) (props : Bytes) :
    w.propertiesLen ≤ (p.imageAround props).length := by
  rw [Option.mem_def] at hw
  simp only [imageAround, payloadImage, hw, Option.map_some, Option.getD_some, LastWill.image,
    List.length_append, List.length_cons, LastWill.length_propsImage]
  omega

theorem will_le_image {p : Connect} {w : LastWill} (hw : w ∈ p.lastWill) :
    w.propertiesLen ≤ p.image.length := will_le_imageAround hw p.propsImage

/-- The size pass measures the bytes, if either of the two is small. -/
theorem encodedSize_eq {p : Connect} {limit : Nat} (small : p.encodedSize limit ≤ MAX_PACKET_SIZE ∨
    p.image.length ≤ MAX_PACKET_SIZE) : p.encodedSize limit = p.image.length := by
  have willSmall : ∀ w ∈ p.lastWill, w.propertiesLen ≤ MAX_PACKET_SIZE := fun w hw =>
    small.elim (Nat.le_trans (will_le_size hw limit)) (Nat.le_trans (will_le_image hw))
  have will : ((p.lastWill.map LastWill.image).getD []).length =
      (p.lastWill.map LastWill.size).getD 0 :=
    length_map_image fun w hw => LastWill.length_image (willSmall w hw)
  have username : ((p.username.map Codec.image).getD []).length =
      (p.username.map Codec.encodedSize).getD 0 :=
    length_map_image fun s _ => WireType.length_image s
  have password : ((p.password.map Codec.image).getD []).length =
      (p.password.map Codec.encodedSize).getD 0 :=
    length_map_image fun bs _ => WireType.length_image bs
  unfold encodedSize at small ⊢
  simp only [image, payloadImage, List.length_append, List.length_cons, length_be16,
    length_propsImage, will, username, password, WireType.length_image] at small ⊢
  rw [varIntLen_eq (by omega)]
  simp only [MQTT, List.length_cons, List.length_nil]
  omega

theorem writes {p : Connect} {limit : Nat} (fits : p.Fits)
    (small : p.encodedSize limit ≤ MAX_PACKET_SIZE) :
    Writes (p.encode (p.encodedSize limit)) p.image := by
  have bound : p.propertiesLen ≤ MAX_PACKET_SIZE := by
    unfold encodedSize at small
    omega
  have len : p.propertiesLen % 2 ^ 32 = p.propsImage.length := by
    rw [length_propsImage]
    exact Nat.mod_eq_of_lt (by unfold MAX_PACKET_SIZE at bound; omega)
  have name : Writes (Codec.encode MQTT) (be16 4 ++ MQTT) :=
    WireType.writes MQTT (show MQTT.length ≤ 65535 by decide)
  have order : p.image = (be16 4 ++ MQTT) ++ ([MQTT_LEVEL_5, p.flags] ++ (be16 p.keepAlive ++
      (varInt p.propsImage.length ++ (p.propsImage ++ p.payloadImage)))) := by
    simp only [image, List.append_assoc, List.cons_append, List.nil_append]
  rw [order, encode, len]
  refine name.bind ((Writes.putSlice _).bind ((Writes.putU16 _).bind ?_))
  refine (writes_writeVariableLength (length_propsImage p ▸ bound)).bind ?_
  simp only [propsImage, payloadImage, List.append_assoc]
  refine (writes_encodePropertyDefault trivial _).bind ?_
  refine (writes_encodeProperty fits.authMethod _).bind ?_
  refine (writes_encodeProperty fits.authData _).bind ?_
  refine (writes_encodePropertyDefault trivial _).bind ?_
  refine (writes_encodePropertyDefault trivial _).bind ?_
  refine (writes_encodeProperty (fun _ _ => trivial) _).bind ?_
  refine (writes_encodeProperty (fun _ _ => trivial) _).bind ?_
  refine (writes_encodePropertyDefault trivial _).bind ?_
  refine (writes_users fits.userProperties).bind ?_
  refine (WireType.writes _ fits.clientId).bind ?_
  refine Writes.bind (Writes.forSome fun w hw => ?_) ?_
  · exact LastWill.writes (fits.lastWill w hw) (Nat.le_trans (will_le_size hw limit) small)
  · refine Writes.bind (Writes.forSome fun s hs => WireType.writes s (fits.username s hs)) ?_
    exact Writes.forSome fun bs hbs => WireType.writes bs (fits.password bs hbs)

theorem feeds_props {p : Connect} (fits : p.Fits) :
    FeedsProps Props.read {} p.propsImage
      { sessionExpiryIntervalSecs := elide p.sessionExpiryIntervalSecs 0
        authMethod := p.authMethod
        authData := p.authData
        requestProblemInfo := elide p.requestProblemInfo true
        requestResponseInfo := elide p.requestResponseInfo false
        receiveMax := p.receiveMax
        topicAliasMax := elide p.topicAliasMax 0
        userProperties := p.userProperties
        maxPacketSize := p.maxPacketSize } :=
  (feeds_property pt.SESS_EXPIRY_INT
      (fun (acc : Props) x => { acc with sessionExpiryIntervalSecs := x })
      (elide p.sessionExpiryIntervalSecs 0) rfl rfl fun _ _ => trivial).trans
    ((feeds_property pt.AUTH_METHOD (fun (acc : Props) x => { acc with authMethod := x })
      p.authMethod rfl rfl fits.authMethod).trans
    ((feeds_property pt.AUTH_DATA (fun (acc : Props) x => { acc with authData := x })
      p.authData rfl rfl fits.authData).trans
    ((feeds_property pt.REQ_PROB_INFO (fun (acc : Props) x => { acc with requestProblemInfo := x })
      (elide p.requestProblemInfo true) rfl rfl fun _ _ => trivial).trans
    ((feeds_property pt.REQ_RESP_INFO (fun (acc : Props) x => { acc with requestResponseInfo := x })
      (elide p.requestResponseInfo false) rfl rfl fun _ _ => trivial).trans
    ((feeds_property pt.RECEIVE_MAX (fun (acc : Props) x => { acc with receiveMax := x })
      p.receiveMax rfl rfl fun _ _ => trivial).trans
    ((feeds_property pt.MAX_PACKET_SIZE (fun (acc : Props) x => { acc with maxPacketSize := x })
      p.maxPacketSize rfl rfl fun _ _ => trivial).trans
    ((feeds_property pt.TOPIC_ALIAS_MAX (fun (acc : Props) x => { acc with topicAliasMax := x })
      (elide p.topicAliasMax 0) rfl rfl fun _ _ => trivial).trans
    (feeds_users (fun (acc : Props) us => { acc with userProperties := us }) (fun _ => rfl) rfl
      fits.userProperties))))))))

/-- The packet with the properties as the decoder has collected them. -/
def withProps (p : Connect) (acc : Props) : Connect :=
  { p with
    sessionExpiryIntervalSecs := acc.sessionExpiryIntervalSecs.getD 0
    authMethod := acc.authMethod
    authData := acc.authData
    requestProblemInfo := acc.requestProblemInfo.getD true
    requestResponseInfo := acc.requestResponseInfo.getD false
    receiveMax := acc.receiveMax
    topicAliasMax := acc.topicAliasMax.getD 0
    userProperties := acc.userProperties
    maxPacketSize := acc.maxPacketSize
    cert := none }

/-- A content is read with whatever the loop makes of its property block. -/
theorem decode_imageAround {p : Connect} {props : Bytes} {acc : Props} (fits : p.Fits)
    (client : ByteString.isEmpty p.clientId = true → p.cleanStart = true)
    (feeds : FeedsProps Props.read {} props acc)
    (small : (p.imageAround props).length ≤ MAX_PACKET_SIZE) :
    DecodesAll decode (p.imageAround props) (p.withProps acc) := by
  have bits : ConnectFlags.Announces p.flags _ _ _ _ := ConnectFlags.announces_build _ _ _ _
  have block : props.length ≤ MAX_PACKET_SIZE := by
    simp only [imageAround, List.length_append, List.length_cons] at small
    omega
  have clientOk : (!ByteString.isEmpty p.clientId ||
      contains p.flags ConnectFlags.CLEAN_START) = true := by
    rw [bits.isCleanStart]
    cases h : ByteString.isEmpty p.clientId with
    | false => rfl
    | true => rw [client h]; rfl
  have long : 10 ≤ (p.imageAround props).length := by
    simp only [imageAround, MQTT, List.length_append, length_be16, List.length_cons,
      List.length_nil]
    omega
  refine DecodesAll.ensureRemaining long ?_
  refine DecodesAll.bind (Decodes.getU16 4) ?_
  refine decodesAll_protocolIs rfl rfl (DecodesAll.bind_nil (Decodes.ensure rfl) ?_)
  refine DecodesAll.bind (Decodes.advance rfl) (DecodesAll.getU8 ?_)
  refine DecodesAll.bind_nil (Decodes.ensure rfl) (DecodesAll.getU8 ?_)
  refine DecodesAll.bind_nil (Decodes.okOr bits.known) ?_
  refine DecodesAll.bind (Decodes.getU16 p.keepAlive) ?_
  refine DecodesAll.bind (decodes_readProperties feeds block) ?_
  refine DecodesAll.bind (WireType.decodes p.clientId fits.clientId) ?_
  refine DecodesAll.bind_nil (Decodes.ensure clientOk) ?_
  have willPart : Decodes (readIf (contains p.flags ConnectFlags.WILL) (LastWill.decode p.flags))
      ((p.lastWill.map LastWill.image).getD []) p.lastWill := by
    refine Decodes.readIf (by rw [bits.hasWill, Option.isSome_map]) fun w hw => ?_
    have announced : (w.retain, w.qos) ∈ p.lastWill.map fun will => (will.retain, will.qos) :=
      Option.mem_map_of_mem _ hw
    exact LastWill.decodes (fits.lastWill w hw) (Nat.le_trans (will_le_imageAround hw props) small)
      (bits.willQos _ announced) (bits.willRetain _ announced)
  refine DecodesAll.bind willPart ?_
  refine DecodesAll.bind (Decodes.readIf bits.hasUsername fun s hs =>
    WireType.decodes s (fits.username s hs)) ?_
  refine DecodesAll.bind_all (Decodes.readIf bits.hasPassword fun bs hbs =>
    WireType.decodes bs (fits.password bs hbs)).all ?_
  simp only [bits.isCleanStart]
  exact DecodesAll.pure (p.withProps acc)

theorem decode_image {p : Connect} (fits : p.Fits) (client : ByteString.isEmpty p.clientId = true →
    p.cleanStart = true) (cert : p.cert = none) (small : p.image.length ≤ MAX_PACKET_SIZE) :
    DecodesAll decode p.image p := by
  have run := decode_imageAround fits client (feeds_props fits) small
  simp only [withProps, getD_elide, ← cert] at run
  exact run

theorem safe_read (acc : Props) (tag : UInt8) : Safe 0 (acc.read tag) 0 0 := by
  unfold Props.read
  split
  all_goals first
    | exact (safe_readValue _).bind_zero fun _ => Safe.pure _ 0
    | exact safe_decode.bind_zero fun _ => Safe.pure _ 0
    | exact Safe.fail _ 0 0 0

theorem safe : Safe 0 decode 0 0 := by
  refine (Safe.ensureRemaining 10 _).zero_bind fun _ => ?_
  refine (Safe.getU16 8).zero_bind fun len => ?_
  refine (safe_protocolIs len 4 MQTT 4).zero_bind fun named => ?_
  refine (Safe.ensure named _ 8).zero_bind fun _ => ?_
  refine (Safe.advance 4 4).zero_bind fun _ => ?_
  refine (Safe.getU8 3).zero_bind fun level => ?_
  refine (Safe.ensure _ _ 3).zero_bind fun _ => ?_
  refine (Safe.getU8 2).zero_bind fun b => ?_
  refine (Safe.okOr _ _ 2).zero_bind fun flags => ?_
  refine (Safe.getU16 0).zero_bind
    fun keepAlive => ?_
  refine (safe_readProperties safe_read _).zero_bind fun props => ?_
  refine safe_decode.zero_bind fun clientId => (Safe.ensure _ _ 0).zero_bind fun _ => ?_
  refine (Safe.readIf _ (LastWill.safe flags)).zero_bind fun lastWill => ?_
  refine (Safe.readIf _ safe_decode).zero_bind fun username => ?_
  exact (Safe.readIf _ safe_decode).zero_bind fun password => Safe.pure _ 0

end Connect

end OxiMqtt.Codec.V5

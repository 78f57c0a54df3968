import OxiMqtt.Lib.Checked
import OxiMqtt.Codec.V5.Codec
import OxiMqtt.Codec.V5.Sizes

/-!
# The MQTT 5 encoder with its machine arithmetic

The two passes of the encoder as a debug build runs them: every sum and every difference of `usize`
and `u32` values is an operation on words of 64 and 32 bits, and one that leaves the range is the
fault `overflow`.  Casts to `u32` truncate.  The definitions keep the names of the encoder on exact
numbers and stand in the namespace `Debug`.
-/

namespace OxiMqtt.Codec.V5.Debug

open Wire Wire.Checked

/-- `usize` -/
abbrev Usize : Type := Checked 64

/-- `u32` -/
abbrev U32 : Type := Checked 32

/-! ## Sizes of values -/

/-- `encoded_size` of the trait `Encode`: the exact size if it is in range. -/
class Sized (α : Type) [Encode α] where
  encodedSize : α → Usize
  encodedSize_eq : ∀ a, encodedSize a = word (Codec.encodedSize a)

instance : Sized Bool where
  encodedSize _ := 1
  encodedSize_eq _ := rfl

instance : Sized UInt16 where
  encodedSize _ := 2
  encodedSize_eq _ := rfl

instance : Sized NonZeroU16 where
  encodedSize _ := 2
  encodedSize_eq _ := rfl

instance : Sized UInt32 where
  encodedSize _ := 4
  encodedSize_eq _ := rfl

instance : Sized NonZeroU32 where
  encodedSize _ := 4
  encodedSize_eq _ := rfl

instance : Sized Bytes where
  encodedSize bs := 2 + word bs.length
  encodedSize_eq bs := word_add 2 bs.length

instance : Sized ByteString where
  encodedSize s := Sized.encodedSize (ByteString.asBytes s)
  encodedSize_eq s := Sized.encodedSize_eq (ByteString.asBytes s)

instance : Sized UserProperty where
  encodedSize p := Sized.encodedSize p.1 + Sized.encodedSize p.2
  encodedSize_eq p := by
    rw [Sized.encodedSize_eq, Sized.encodedSize_eq]
    exact word_add _ _

instance : Sized UserProperties where
  encodedSize ups := ups.foldl (fun len prop => len + (1 + Sized.encodedSize prop)) 0
  encodedSize_eq ups := by
    refine foldl_word (fun n up => ?_) ups 0
    rw [Sized.encodedSize_eq, ofNat_eq, word_add, word_add]

section Property

variable {α : Type} [Encode α] [Sized α]

/-- `encoded_property_size` -/
def encodedPropertySize (v : Option α) : Usize :=
  match v with
  | some a => 1 + Sized.encodedSize a
  | none => 0

/-- `encoded_property_size_default` -/
def encodedPropertySizeDefault [DecidableEq α] (v dflt : α) : Usize :=
  if v = dflt then 0 else 1 + Sized.encodedSize v

end Property

/-! ## The size pass -/

/-- The loop of `encoded_size_opt_props`. -/
def encodedSizeOptPropsLoop (reasonStr : Option ByteString) : UserProperties → Nat → Nat → Usize
  | [], limit, len =>
      match reasonStr with
      | some reason =>
          (1 + Sized.encodedSize reason : Usize).bind fun reasonLen =>
            if reasonLen ≤ limit then word len + word reasonLen else word len
      | none => word len
  | up :: ups, limit, len =>
      (1 + Sized.encodedSize up : Usize).bind fun propLen =>
        if propLen > limit then word len
        else
          (word limit - word (propLen % 2 ^ 32) : U32).bind fun limit =>
          (word len + word propLen : Usize).bind fun len =>
          encodedSizeOptPropsLoop reasonStr ups limit len

/-- `encoded_size_opt_props` -/
def encodedSizeOptProps (userProps : UserProperties) (reasonStr : Option ByteString) (limit : Nat) :
    Usize := encodedSizeOptPropsLoop reasonStr userProps limit 0

/-- `reduce_limit` -/
def reduceLimit (limit reduction : Nat) : U32 :=
  if reduction > limit then 0 else word limit - word (reduction % 2 ^ 32)

/-- The size of a packet with a header, fixed properties and diagnostic properties that are cut to
the limit. -/
def sizeWithDiag (headerLen : Nat) (propLen : Usize) (ups : UserProperties)
    (reasonStr : Option ByteString) (limit : Nat) : Usize :=
  propLen.bind fun propLen =>
  (word headerLen + 4 + word propLen : Usize).bind fun reduction =>
  (reduceLimit limit reduction).bind fun limit =>
  (encodedSizeOptProps ups reasonStr limit).bind fun diagLen =>
  (word propLen + word diagLen : Usize).bind fun propLen =>
  word headerLen + word (varIntLen propLen) + word propLen

/-- `ack_props::encoded_size` -/
def ackPropsEncodedSize (properties : UserProperties) (reasonString : Option ByteString)
    (limit : Nat) : Usize :=
  if limit < 4 then 1
  else
    (word limit - 4 : U32).bind fun limit =>
    (encodedSizeOptProps properties reasonString limit).bind fun len =>
    word (varIntLen len) + word len

/-- `encoded_size` of PUBACK, PUBREC, PUBREL and PUBCOMP. -/
def PublishAckOf.encodedSize {ρ : Type} (p : PublishAckOf ρ) (limit : Nat) : Usize :=
  (word limit - 3 - 4 : U32).bind fun limit =>
  3 + ackPropsEncodedSize p.properties p.reasonString limit

/-- `SubscribeAck::encoded_size` -/
def SubscribeAck.encodedSize (p : SubscribeAck) (limit : Nat) : Usize :=
  let len := p.status.length
  if len > 2 ^ 32 - 1 - 2 then word (2 ^ 64 - 1)
  else
    (word limit - 2 - word (len % 2 ^ 32) : U32).bind fun limit =>
    2 + ackPropsEncodedSize p.properties p.reasonString limit + word len

/-- `UnsubscribeAck::encoded_size` -/
def UnsubscribeAck.encodedSize (p : UnsubscribeAck) (limit : Nat) : Usize :=
  let len := p.status.length
  (2 + word len : Usize).bind fun reduction =>
  (reduceLimit limit reduction).bind fun limit =>
  2 + word len + ackPropsEncodedSize p.properties p.reasonString limit

/-- `LastWill::properties_len` -/
def LastWill.propertiesLen (w : LastWill) : Usize :=
  encodedPropertySize w.willDelayIntervalSec + encodedPropertySize w.correlationData +
    encodedPropertySize w.messageExpiryInterval + encodedPropertySize w.contentType +
    encodedPropertySize w.isUtf8Payload + encodedPropertySize w.responseTopic +
    Sized.encodedSize w.userProperties

/-- The share of a will in `Connect::encoded_size`. -/
def LastWill.size (w : LastWill) : Usize :=
  (LastWill.propertiesLen w).bind fun propLen =>
  word (varIntLen propLen) + word propLen + Sized.encodedSize w.topic + Sized.encodedSize w.message

/-- `Connect::properties_len` -/
def Connect.propertiesLen (p : Connect) : Usize :=
  encodedPropertySize p.authMethod + encodedPropertySize p.authData +
    encodedPropertySizeDefault p.sessionExpiryIntervalSecs 0 +
    encodedPropertySizeDefault p.requestProblemInfo true +
    encodedPropertySizeDefault p.requestResponseInfo false +
    encodedPropertySize p.receiveMax + encodedPropertySize p.maxPacketSize +
    encodedPropertySizeDefault p.topicAliasMax 0 + Sized.encodedSize p.userProperties

/-- `Connect::encoded_size` -/
def Connect.encodedSize (p : Connect) (_limit : Nat) : Usize :=
  (Connect.propertiesLen p).bind fun propLen =>
  6 + 1 + 1 + 2 + word (varIntLen propLen) + word propLen + Sized.encodedSize p.clientId +
    (p.lastWill.map LastWill.size).getD 0 + (p.username.map Sized.encodedSize).getD 0 +
    (p.password.map Sized.encodedSize).getD 0

/-- The length of the properties of a CONNACK that are never cut. -/
def ConnectAck.propLen (p : ConnectAck) : Usize :=
  encodedPropertySize p.sessionExpiryIntervalSecs +
    encodedPropertySizeDefault p.receiveMax RECEIVE_MAX_DEFAULT +
    (if p.maxQos.value < QoS.exactlyOnce.value then 1 + 1 else 0) +
    encodedPropertySize p.maxPacketSize +
    encodedPropertySize p.assignedClientId +
    encodedPropertySizeDefault p.retainAvailable true +
    encodedPropertySizeDefault p.wildcardSubscriptionAvailable true +
    encodedPropertySizeDefault p.subscriptionIdentifiersAvailable true +
    encodedPropertySizeDefault p.sharedSubscriptionAvailable true +
    encodedPropertySize p.serverKeepaliveSec +
    encodedPropertySize p.responseInfo +
    encodedPropertySize p.serverReference +
    encodedPropertySize p.authMethod +
    encodedPropertySize p.authData +
    (if p.topicAliasMax > 0 then 1 + Sized.encodedSize p.topicAliasMax else 0)

/-- `ConnectAck::encoded_size` -/
def ConnectAck.encodedSize (p : ConnectAck) (limit : Nat) : Usize :=
  sizeWithDiag 2 (ConnectAck.propLen p) p.userProperties p.reasonString limit

/-- `Disconnect::encoded_size` -/
def Disconnect.encodedSize (p : Disconnect) (limit : Nat) : Usize :=
  sizeWithDiag 1
    (encodedPropertySize p.sessionExpiryIntervalSecs + encodedPropertySize p.serverReference)
    p.userProperties p.reasonString limit

/-- `Auth::encoded_size` -/
def Auth.encodedSize (p : Auth) (limit : Nat) : Usize :=
  sizeWithDiag 1 (encodedPropertySize p.authMethod + encodedPropertySize p.authData)
    p.userProperties p.reasonString limit

/-- The property length in `PublishProperties::encoded_size`. -/
def PublishProperties.propLen (p : PublishProperties) : Usize :=
  encodedPropertySize p.topicAlias + encodedPropertySize p.correlationData +
    encodedPropertySize p.messageExpiryInterval + encodedPropertySize p.contentType +
    encodedPropertySizeDefault p.isUtf8Payload false + encodedPropertySize p.responseTopic +
    p.subscriptionIds.foldl (fun acc id => acc + 1 + word (varIntLen id.val.toNat)) 0 +
    Sized.encodedSize p.userProperties

/-- `PublishProperties::encoded_size` -/
def PublishProperties.encodedSize (p : PublishProperties) (_limit : Nat) : Usize :=
  (PublishProperties.propLen p).bind fun propLen => word propLen + word (varIntLen propLen)

/-- `Publish::encoded_size` -/
def Publish.encodedSize (p : Publish) (limit : Nat) : Usize :=
  let packetIdSize := if p.qos = .atMostOnce then 0 else 2
  Sized.encodedSize p.topic + packetIdSize +
    PublishProperties.encodedSize (p.properties.getD PublishProperties.default) limit +
    word p.payload.length

/-- The property length in `Subscribe::encoded_size`. -/
def Subscribe.propLen (p : Subscribe) : Usize :=
  (p.id.map fun v => 1 + word (varIntLen v.val.toNat)).getD 0 + Sized.encodedSize p.userProperties

/-- `Subscribe::encoded_size` -/
def Subscribe.encodedSize (p : Subscribe) (_limit : Nat) : Usize :=
  (Subscribe.propLen p).bind fun propLen =>
  (p.topicFilters.foldl (fun acc f => acc + Sized.encodedSize f.1 + 1) 0 : Usize).bind
    fun payloadLen =>
  Sized.encodedSize p.packetId + word (varIntLen propLen) + word propLen + word payloadLen

/-- `Unsubscribe::encoded_size` -/
def Unsubscribe.encodedSize (p : Unsubscribe) (_limit : Nat) : Usize :=
  (Sized.encodedSize p.userProperties).bind fun propLen =>
  2 + word (varIntLen propLen) + word propLen +
    p.topicFilters.foldl (fun acc filter => acc + 2 + word (ByteString.len filter)) 0

/-- `encoded_size` -/
def Packet.encodedSize (limit : Nat) : Packet → Usize
  | .connect p => Connect.encodedSize p limit
  | .publish p => Publish.encodedSize p limit
  | .connectAck p => ConnectAck.encodedSize p limit
  | .publishAck p => PublishAckOf.encodedSize p limit
  | .publishReceived p => PublishAckOf.encodedSize p limit
  | .publishRelease p => PublishAckOf.encodedSize p limit
  | .publishComplete p => PublishAckOf.encodedSize p limit
  | .subscribe p => Subscribe.encodedSize p limit
  | .subscribeAck p => SubscribeAck.encodedSize p limit
  | .unsubscribe p => Unsubscribe.encodedSize p limit
  | .unsubscribeAck p => UnsubscribeAck.encodedSize p limit
  | .pingRequest => 0
  | .pingResponse => 0
  | .disconnect p => Disconnect.encodedSize p limit
  | .auth p => Auth.encodedSize p limit

/-! ## The encode pass -/

open ByteWriter

/-- `var_int_len_from_size` -/
def varIntLenFromSize (val : Nat) : U32 :=
  let overSize := varIntLenU32 val
  (word val - word overSize + 1 : U32).bind fun res => word val - word (varIntLenU32 res)

/-- `encode_opt_props` -/
def encodeOptProps : UserProperties → Option ByteString → Nat → ByteWriter EncodeError Unit
  | [], reasonStr, size =>
      match reasonStr with
      | some reason =>
          if ByteString.len reason < size then do
            putU8 pt.REASON_STRING
            Encode.encode reason
          else pure ()
      | none => pure ()
  | up :: ups, reasonStr, size => do
      let propLen ← fromChecked (1 + Sized.encodedSize up.1 + Sized.encodedSize up.2)
      if propLen > size then pure ()
      else do
        putU8 pt.USER
        Encode.encode up
        let size ← fromChecked (word size - word (propLen % 2 ^ 32) : U32)
        encodeOptProps ups reasonStr size

/-- The encode pass of a packet with a header, fixed properties and diagnostic properties. -/
def encodeWithDiag (headerLen : Nat) (header fixed : ByteWriter EncodeError Unit)
    (ups : UserProperties) (reasonStr : Option ByteString) (size : Nat) :
    ByteWriter EncodeError Unit :=
  countedChecked
    (do
      header
      let propSize ← fromChecked (word size - word headerLen : U32)
      let propLen ← fromChecked (varIntLenFromSize propSize)
      writeVariableLength propLen
      fixed)
    fun written => do
      let rest ← fromChecked (word size - word (written % 2 ^ 32) : U32)
      encodeOptProps ups reasonStr rest

/-- `ack_props::encode` -/
def ackPropsEncode (properties : UserProperties) (reasonString : Option ByteString) (size : Nat) :
    ByteWriter EncodeError Unit :=
  if size = 0 then crash .assertion
  else if size = 1 then putU8 0
  else do
    let size ← fromChecked (varIntLenFromSize size)
    writeVariableLength size
    encodeOptProps properties reasonString size

/-- `encode` of PUBACK, PUBREC, PUBREL and PUBCOMP. -/
def PublishAckOf.encode {ρ : Type} [PrimEnum ρ] (p : PublishAckOf ρ) (size : Nat) :
    ByteWriter EncodeError Unit := do
  Encode.encode p.packetId.val
  putU8 (toU8 p.reasonCode)
  let propSize ← fromChecked (word size - 3 : U32)
  ackPropsEncode p.properties p.reasonString propSize

/-- `encode` of SUBACK and UNSUBACK. -/
def StatusAckOf.encode {ρ : Type} [PrimEnum ρ] (p : StatusAckOf ρ) (size : Nat) :
    ByteWriter EncodeError Unit := do
  Encode.encode p.packetId
  let len := p.status.length % 2 ^ 32
  let size ← fromChecked (word size - 2 - word len : U32)
  ackPropsEncode p.properties p.reasonString size
  forEach (fun reason => putU8 (toU8 reason)) p.status

/-- The part of `Connect::encode` that writes the will. -/
def LastWill.encode (w : LastWill) : ByteWriter EncodeError Unit := do
  let propLen ← fromChecked (LastWill.propertiesLen w)
  writeVariableLength (propLen % 2 ^ 32)
  encodeProperty w.willDelayIntervalSec pt.WILL_DELAY_INT
  encodeProperty w.isUtf8Payload pt.UTF8_PAYLOAD
  encodeProperty w.messageExpiryInterval pt.MSG_EXPIRY_INT
  encodeProperty w.contentType pt.CONTENT_TYPE
  encodeProperty w.responseTopic pt.RESP_TOPIC
  encodeProperty w.correlationData pt.CORR_DATA
  Encode.encode w.userProperties
  Encode.encode w.topic
  Encode.encode w.message

/-- `Connect::encode` -/
def Connect.encode (p : Connect) (_size : Nat) : ByteWriter EncodeError Unit := do
  Encode.encode MQTT
  putSlice [MQTT_LEVEL_5, p.flags]
  Encode.encode p.keepAlive
  let propLen ← fromChecked (Connect.propertiesLen p)
  writeVariableLength (propLen % 2 ^ 32)
  encodePropertyDefault p.sessionExpiryIntervalSecs 0 pt.SESS_EXPIRY_INT
  encodeProperty p.authMethod pt.AUTH_METHOD
  encodeProperty p.authData pt.AUTH_DATA
  encodePropertyDefault p.requestProblemInfo true pt.REQ_PROB_INFO
  encodePropertyDefault p.requestResponseInfo false pt.REQ_RESP_INFO
  encodeProperty p.receiveMax pt.RECEIVE_MAX
  encodeProperty p.maxPacketSize pt.MAX_PACKET_SIZE
  encodePropertyDefault p.topicAliasMax 0 pt.TOPIC_ALIAS_MAX
  Encode.encode p.userProperties
  Encode.encode p.clientId
  forSome p.lastWill LastWill.encode
  forSome p.username Encode.encode
  forSome p.password Encode.encode

/-- `ConnectAck::encode` -/
def ConnectAck.encode (p : ConnectAck) (size : Nat) : ByteWriter EncodeError Unit :=
  encodeWithDiag 2 (putSlice [boolU8 p.sessionPresent, toU8 p.reasonCode]) p.encodeFixed
    p.userProperties p.reasonString size

/-- `Disconnect::encode` -/
def Disconnect.encode (p : Disconnect) (size : Nat) : ByteWriter EncodeError Unit :=
  encodeWithDiag 1 (putU8 (toU8 p.reasonCode))
    (do
      encodeProperty p.sessionExpiryIntervalSecs pt.SESS_EXPIRY_INT
      encodeProperty p.serverReference pt.SERVER_REF)
    p.userProperties p.reasonString size

/-- `Auth::encode` -/
def Auth.encode (p : Auth) (size : Nat) : ByteWriter EncodeError Unit :=
  encodeWithDiag 1 (putU8 (toU8 p.reasonCode))
    (do
      encodeProperty p.authMethod pt.AUTH_METHOD
      encodeProperty p.authData pt.AUTH_DATA)
    p.userProperties p.reasonString size

/-- `PublishProperties::encode` -/
def PublishProperties.encode (p : PublishProperties) (size : Nat) : ByteWriter EncodeError Unit := do
  let propLen ← fromChecked (varIntLenFromSize size)
  writeVariableLength propLen
  encodeProperty p.topicAlias pt.TOPIC_ALIAS
  encodeProperty p.correlationData pt.CORR_DATA
  encodeProperty p.messageExpiryInterval pt.MSG_EXPIRY_INT
  encodeProperty p.contentType pt.CONTENT_TYPE
  encodePropertyDefault p.isUtf8Payload false pt.UTF8_PAYLOAD
  encodeProperty p.responseTopic pt.RESP_TOPIC
  forEach (fun id => do putU8 pt.SUB_ID; writeVariableLength id.val.toNat) p.subscriptionIds
  Encode.encode p.userProperties

/-- `Publish::encode` -/
def Publish.encode (p : Publish) (size : Nat) : ByteWriter EncodeError Unit := do
  countedChecked
    (do
      Encode.encode p.topic
      p.encodePacketId)
    fun written => do
      let rest ← fromChecked (word written + word p.payload.length : Usize)
      let propSize ← fromChecked (word size - word (rest % 2 ^ 32) : U32)
      PublishProperties.encode (p.properties.getD PublishProperties.default) propSize
      putSlice p.payload

/-- `Subscribe::encode` -/
def Subscribe.encode (p : Subscribe) (_size : Nat) : ByteWriter EncodeError Unit := do
  Encode.encode p.packetId
  let users ← fromChecked (Sized.encodedSize p.userProperties)
  let propLen ← fromChecked ((p.id.map fun v => 1 + word (varIntLen v.val.toNat)).getD 0 +
    word (users % 2 ^ 32) : U32)
  writeVariableLength propLen
  forSome p.id fun id => do
    putU8 pt.SUB_ID
    writeVariableLength id.val.toNat
  Encode.encode p.userProperties
  forEach (fun f => do Encode.encode f.1; Encode.encode f.2) p.topicFilters

/-- `Unsubscribe::encode` -/
def Unsubscribe.encode (p : Unsubscribe) (_size : Nat) : ByteWriter EncodeError Unit := do
  Encode.encode p.packetId
  let propLen ← fromChecked (Sized.encodedSize p.userProperties)
  writeVariableLength (propLen % 2 ^ 32)
  Encode.encode p.userProperties
  forEach (fun filter => Encode.encode filter) p.topicFilters

/-- `encode` -/
def Packet.encode (checkSize : Nat) : Packet → ByteWriter EncodeError Unit
  | .connect p => Packet.encodeFrame packetType.CONNECT checkSize (Connect.encode p)
  | .connectAck p => Packet.encodeFrame packetType.CONNACK checkSize (ConnectAck.encode p)
  | .publish p => Packet.encodeFrame p.firstByte checkSize (Publish.encode p)
  | .publishAck p => Packet.encodeFrame packetType.PUBACK checkSize (PublishAckOf.encode p)
  | .publishReceived p => Packet.encodeFrame packetType.PUBREC checkSize (PublishAckOf.encode p)
  | .publishRelease p => Packet.encodeFrame packetType.PUBREL checkSize (PublishAckOf.encode p)
  | .publishComplete p => Packet.encodeFrame packetType.PUBCOMP checkSize (PublishAckOf.encode p)
  | .subscribe p => Packet.encodeFrame packetType.SUBSCRIBE checkSize (Subscribe.encode p)
  | .subscribeAck p => Packet.encodeFrame packetType.SUBACK checkSize (StatusAckOf.encode p)
  | .unsubscribe p => Packet.encodeFrame packetType.UNSUBSCRIBE checkSize (Unsubscribe.encode p)
  | .unsubscribeAck p => Packet.encodeFrame packetType.UNSUBACK checkSize (StatusAckOf.encode p)
  | .pingRequest => putSlice [packetType.PINGREQ, 0]
  | .pingResponse => putSlice [packetType.PINGRESP, 0]
  | .disconnect p => Packet.encodeFrame packetType.DISCONNECT checkSize (Disconnect.encode p)
  | .auth p => Packet.encodeFrame packetType.AUTH checkSize (Auth.encode p)

/-- `Codec::encode` -/
def encode (c : Codec) (item : Packet) : ByteWriter EncodeError Unit := do
  let contentSize ← fromChecked (Packet.encodedSize c.maxSize (c.outgoing item))
  if contentSize > c.maxSize then fail (.overMaxPacketSize (contentSize % 2 ^ 32) c.maxSize)
  else do
    let _ ← fromChecked (word contentSize + 5 : Usize)
    Packet.encode (contentSize % 2 ^ 32) (c.outgoing item)

end OxiMqtt.Codec.V5.Debug

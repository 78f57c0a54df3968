import OxiMqtt.Codec.V5.Properties

/-!
# MQTT 5 CONNACK

`codec/v5/packet/connack.rs`: two header bytes, fourteen properties that are left
out at their defaults, the topic alias maximum, and the user properties and reason
string that may be cut to the limit.
-/

namespace OxiMqtt.Codec.V5

open Wire Wire.Reader Wire.ByteWriter

/-- `ConnectAckReason` -/
inductive ConnectAckReason : Type
  | success
  | unspecifiedError
  | malformedPacket
  | protocolError
  | implementationSpecificError
  | unsupportedProtocolVersion
  | clientIdentifierNotValid
  | badUserNameOrPassword
  | notAuthorized
  | serverUnavailable
  | serverBusy
  | banned
  | badAuthenticationMethod
  | topicNameInvalid
  | packetTooLarge
  | quotaExceeded
  | payloadFormatInvalid
  | retainNotSupported
  | qosNotSupported
  | useAnotherServer
  | serverMoved
  | connectionRateExceeded
  deriving DecidableEq, Repr

instance : PrimEnum ConnectAckReason where
  table := [(0, .success), (128, .unspecifiedError), (129, .malformedPacket),
    (130, .protocolError), (131, .implementationSpecificError),
    (132, .unsupportedProtocolVersion), (133, .clientIdentifierNotValid),
    (134, .badUserNameOrPassword), (135, .notAuthorized), (136, .serverUnavailable),
    (137, .serverBusy), (138, .banned), (140, .badAuthenticationMethod),
    (144, .topicNameInvalid), (149, .packetTooLarge), (151, .quotaExceeded),
    (153, .payloadFormatInvalid), (154, .retainNotSupported), (155, .qosNotSupported),
    (156, .useAnotherServer), (157, .serverMoved), (159, .connectionRateExceeded)]
  toU8
    | .success => 0
    | .unspecifiedError => 128
    | .malformedPacket => 129
    | .protocolError => 130
    | .implementationSpecificError => 131
    | .unsupportedProtocolVersion => 132
    | .clientIdentifierNotValid => 133
    | .badUserNameOrPassword => 134
    | .notAuthorized => 135
    | .serverUnavailable => 136
    | .serverBusy => 137
    | .banned => 138
    | .badAuthenticationMethod => 140
    | .topicNameInvalid => 144
    | .packetTooLarge => 149
    | .quotaExceeded => 151
    | .payloadFormatInvalid => 153
    | .retainNotSupported => 154
    | .qosNotSupported => 155
    | .useAnotherServer => 156
    | .serverMoved => 157
    | .connectionRateExceeded => 159
  lookup_toU8 := by intro r; cases r <;> rfl


/-- `ConnectAck` -/
structure ConnectAck : Type where
  sessionPresent : Bool
  reasonCode : ConnectAckReason
  sessionExpiryIntervalSecs : Option UInt32
  receiveMax : NonZeroU16
  maxQos : QoS
  maxPacketSize : Option UInt32
  assignedClientId : Option ByteString
  topicAliasMax : UInt16
  retainAvailable : Bool
  wildcardSubscriptionAvailable : Bool
  subscriptionIdentifiersAvailable : Bool
  sharedSubscriptionAvailable : Bool
  serverKeepaliveSec : Option UInt16
  responseInfo : Option ByteString
  serverReference : Option ByteString
  authMethod : Option ByteString
  authData : Option Bytes
  reasonString : Option ByteString
  userProperties : UserProperties
  deriving DecidableEq, Repr

namespace ConnectAck

/-! ## Decoding -/

/-- The properties collected by `ConnectAck::decode`. -/
structure Props : Type where
  sessionExpiryIntervalSecs : Option UInt32 := none
  receiveMax : Option NonZeroU16 := none
  maxQos : Option QoS := none
  retainAvailable : Option Bool := none
  maxPacketSize : Option UInt32 := none
  assignedClientId : Option ByteString := none
  topicAliasMax : Option UInt16 := none
  wildcardSubAvail : Option Bool := none
  subIdsAvail : Option Bool := none
  sharedSubAvail : Option Bool := none
  serverKaSec : Option UInt16 := none
  responseInfo : Option ByteString := none
  serverReference : Option ByteString := none
  authMethod : Option ByteString := none
  authData : Option Bytes := none
  userProperties : UserProperties := []
  reasonString : Option ByteString := none

/-- The maximum QoS, which has no `Decode` instance. -/
def readMaxQos (cur : Option QoS) : Reader DecodeError (Option QoS) := do
  ensure cur.isNone .malformedPacket
  ensureRemaining 1 .invalidLength
  let v ← getU8
  some <$> fromOutcome (PrimEnum.tryFrom v)

/-- The dispatch of `ConnectAck::decode` on the property type. -/
def Props.read (acc : Props) : UInt8 → Reader DecodeError Props
  | pt.SESS_EXPIRY_INT => do
      return { acc with sessionExpiryIntervalSecs := ← readValue acc.sessionExpiryIntervalSecs }
  | pt.RECEIVE_MAX => do return { acc with receiveMax := ← readValue acc.receiveMax }
  | pt.MAX_QOS => do return { acc with maxQos := ← readMaxQos acc.maxQos }
  | pt.RETAIN_AVAIL => do return { acc with retainAvailable := ← readValue acc.retainAvailable }
  | pt.MAX_PACKET_SIZE => do return { acc with maxPacketSize := ← readValue acc.maxPacketSize }
  | pt.ASSND_CLIENT_ID => do
      return { acc with assignedClientId := ← readValue acc.assignedClientId }
  | pt.TOPIC_ALIAS_MAX => do return { acc with topicAliasMax := ← readValue acc.topicAliasMax }
  | pt.REASON_STRING => do return { acc with reasonString := ← readValue acc.reasonString }
  | pt.USER => do return { acc with userProperties := acc.userProperties ++ [← decode] }
  | pt.WILDCARD_SUB_AVAIL => do
      return { acc with wildcardSubAvail := ← readValue acc.wildcardSubAvail }
  | pt.SUB_IDS_AVAIL => do return { acc with subIdsAvail := ← readValue acc.subIdsAvail }
  | pt.SHARED_SUB_AVAIL => do return { acc with sharedSubAvail := ← readValue acc.sharedSubAvail }
  | pt.SERVER_KA => do return { acc with serverKaSec := ← readValue acc.serverKaSec }
  | pt.RESP_INFO => do return { acc with responseInfo := ← readValue acc.responseInfo }
  | pt.SERVER_REF => do return { acc with serverReference := ← readValue acc.serverReference }
  | pt.AUTH_METHOD => do return { acc with authMethod := ← readValue acc.authMethod }
  | pt.AUTH_DATA => do return { acc with authData := ← readValue acc.authData }
  | _ => fail .malformedPacket

/-- `ConnectAck::decode` -/
def decode : Reader DecodeError ConnectAck := do
  ensureRemaining 2 .invalidLength
  let flags ← okOr (fromBits ConnectAckFlags.ALL (← getU8)) .connAckReservedFlagSet
  let reasonCode ← fromOutcome (PrimEnum.tryFrom (← getU8))
  let props ← readProperties Props.read {}
  ensureConsumed .invalidLength
  return {
    sessionPresent := contains flags ConnectAckFlags.SESSION_PRESENT
    reasonCode
    sessionExpiryIntervalSecs := props.sessionExpiryIntervalSecs
    receiveMax := props.receiveMax.getD RECEIVE_MAX_DEFAULT
    maxQos := props.maxQos.getD .exactlyOnce
    maxPacketSize := props.maxPacketSize
    assignedClientId := props.assignedClientId
    topicAliasMax := props.topicAliasMax.getD 0
    retainAvailable := props.retainAvailable.getD true
    wildcardSubscriptionAvailable := props.wildcardSubAvail.getD true
    subscriptionIdentifiersAvailable := props.subIdsAvail.getD true
    sharedSubscriptionAvailable := props.sharedSubAvail.getD true
    serverKeepaliveSec := props.serverKaSec
    responseInfo := props.responseInfo
    serverReference := props.serverReference
    authMethod := props.authMethod
    authData := props.authData
    reasonString := props.reasonString
    userProperties := props.userProperties }

/-! ## Encoding -/

/-- The length of the properties that are never cut. -/
def propLen (p : ConnectAck) : Nat :=
  encodedPropertySize p.sessionExpiryIntervalSecs +
    encodedPropertySizeDefault p.receiveMax RECEIVE_MAX_DEFAULT +
    (if p.maxQos.value < QoS.exactlyOnce.value then 1 + 1 else 0) +
    encodedPropertySize p.maxPacketSize +
    encodedPropertySize p.assignedClientId +
    encodedPropertySizeDefault p.retainAvailable true +
    encodedPropertySizeDefault p.wildcardSubscriptionAvailable true +
    encodedPropertySizeDefault p.subscriptionIdentifiersAvailable true +
    encodedPropertySizeDefault p.sharedSubscriptionAvailable true +
    encodedPropertySize p.serverKeepaliveSec +
    encodedPropertySize p.responseInfo +
    encodedPropertySize p.serverReference +
    encodedPropertySize p.authMethod +
    encodedPropertySize p.authData +
    (if p.topicAliasMax > 0 then 1 + Codec.encodedSize p.topicAliasMax else 0)

/-- `encoded_size` -/
def encodedSize (p : ConnectAck) (limit : Nat) : Nat :=
  sizeWithDiag 2 p.propLen p.userProperties p.reasonString limit

/-- The maximum QoS, written only when it is below the highest one. -/
def encodeMaxQos (qos : QoS) : ByteWriter EncodeError Unit :=
  if qos.value < QoS.exactlyOnce.value then putSlice [pt.MAX_QOS, toU8 qos] else pure ()

/-- `encode` -/
def encode (p : ConnectAck) (size : Nat) : ByteWriter EncodeError Unit :=
  encodeWithDiag 2 (putSlice [boolU8 p.sessionPresent, toU8 p.reasonCode])
    (do
      encodeProperty p.sessionExpiryIntervalSecs pt.SESS_EXPIRY_INT
      encodePropertyDefault p.receiveMax RECEIVE_MAX_DEFAULT pt.RECEIVE_MAX
      encodeMaxQos p.maxQos
      encodePropertyDefault p.retainAvailable true pt.RETAIN_AVAIL
      encodeProperty p.maxPacketSize pt.MAX_PACKET_SIZE
      encodeProperty p.assignedClientId pt.ASSND_CLIENT_ID
      encodePropertyDefault p.topicAliasMax 0 pt.TOPIC_ALIAS_MAX
      encodePropertyDefault p.wildcardSubscriptionAvailable true pt.WILDCARD_SUB_AVAIL
      encodePropertyDefault p.subscriptionIdentifiersAvailable true pt.SUB_IDS_AVAIL
      encodePropertyDefault p.sharedSubscriptionAvailable true pt.SHARED_SUB_AVAIL
      encodeProperty p.serverKeepaliveSec pt.SERVER_KA
      encodeProperty p.responseInfo pt.RESP_INFO
      encodeProperty p.serverReference pt.SERVER_REF
      encodeProperty p.authMethod pt.AUTH_METHOD
      encodeProperty p.authData pt.AUTH_DATA)
    p.userProperties p.reasonString size

/-! ## Agreement -/

/-- The fields are within their wire limits. -/
structure Fits (p : ConnectAck) : Prop where
  assignedClientId : ∀ s ∈ p.assignedClientId, Codec.Fits s
  responseInfo : ∀ s ∈ p.responseInfo, Codec.Fits s
  serverReference : ∀ s ∈ p.serverReference, Codec.Fits s
  authMethod : ∀ s ∈ p.authMethod, Codec.Fits s
  authData : ∀ bs ∈ p.authData, Codec.Fits bs
  diag : DiagFit p.userProperties p.reasonString

/-- The bytes of the maximum QoS, left out for the highest one. -/
def maxQosImage (qos : QoS) : Bytes := if qos = .exactlyOnce then [] else [pt.MAX_QOS, toU8 qos]

/-- The properties that are never cut, as the decoder collects them. -/
def fixedProps (p : ConnectAck) : Props where
  sessionExpiryIntervalSecs := p.sessionExpiryIntervalSecs
  receiveMax := elide p.receiveMax RECEIVE_MAX_DEFAULT
  maxQos := if p.maxQos = .exactlyOnce then none else some p.maxQos
  retainAvailable := elide p.retainAvailable true
  maxPacketSize := p.maxPacketSize
  assignedClientId := p.assignedClientId
  topicAliasMax := elide p.topicAliasMax 0
  wildcardSubAvail := elide p.wildcardSubscriptionAvailable true
  subIdsAvail := elide p.subscriptionIdentifiersAvailable true
  sharedSubAvail := elide p.sharedSubscriptionAvailable true
  serverKaSec := p.serverKeepaliveSec
  responseInfo := p.responseInfo
  serverReference := p.serverReference
  authMethod := p.authMethod
  authData := p.authData

/-- The bytes of the properties that are never cut. -/
def fixedImage (p : ConnectAck) : Bytes :=
  propImage pt.SESS_EXPIRY_INT p.sessionExpiryIntervalSecs ++
    (propImage pt.RECEIVE_MAX (elide p.receiveMax RECEIVE_MAX_DEFAULT) ++
    (maxQosImage p.maxQos ++
    (propImage pt.RETAIN_AVAIL (elide p.retainAvailable true) ++
    (propImage pt.MAX_PACKET_SIZE p.maxPacketSize ++
    (propImage pt.ASSND_CLIENT_ID p.assignedClientId ++
    (propImage pt.TOPIC_ALIAS_MAX (elide p.topicAliasMax 0) ++
    (propImage pt.WILDCARD_SUB_AVAIL (elide p.wildcardSubscriptionAvailable true) ++
    (propImage pt.SUB_IDS_AVAIL (elide p.subscriptionIdentifiersAvailable true) ++
    (propImage pt.SHARED_SUB_AVAIL (elide p.sharedSubscriptionAvailable true) ++
    (propImage pt.SERVER_KA p.serverKeepaliveSec ++
    (propImage pt.RESP_INFO p.responseInfo ++
    (propImage pt.SERVER_REF p.serverReference ++
    (propImage pt.AUTH_METHOD p.authMethod ++
    propImage pt.AUTH_DATA p.authData)))))))))))))

/-- The bytes of the content. -/
def image (p : ConnectAck) : Bytes :=
  diagImage [boolU8 p.sessionPresent, toU8 p.reasonCode] p.fixedImage p.userProperties
    p.reasonString

/-- The packet as it is sent under a limit. -/
def cut (p : ConnectAck) (limit : Nat) : ConnectAck :=
  { p with
    userProperties := (keepDiag 2 p.propLen p.userProperties p.reasonString limit).1
    reasonString := (keepDiag 2 p.propLen p.userProperties p.reasonString limit).2 }

theorem length_maxQosImage (qos : QoS) : (maxQosImage qos).length =
    if qos.value < QoS.exactlyOnce.value then 1 + 1 else 0 := by
  cases qos <;> rfl

theorem topicAliasSize (n : UInt16) :
    (if n > 0 then 1 + Codec.encodedSize n else 0) = encodedPropertySize (elide n 0) := by
  rw [← encodedPropertySizeDefault_eq]
  unfold encodedPropertySizeDefault
  by_cases h : n = 0
  · subst h
    rfl
  · have pos : n > 0 := UInt16.pos_iff_ne_zero.mpr h
    rw [if_pos pos, if_neg h]

theorem length_fixedImage (p : ConnectAck) : p.fixedImage.length = p.propLen := by
  unfold fixedImage propLen
  simp only [List.length_append, length_propImage, length_maxQosImage, topicAliasSize,
    encodedPropertySizeDefault_eq]
  omega

theorem encodedSize_eq {p : ConnectAck} {limit : Nat} (small : p.encodedSize limit ≤ MAX_PACKET_SIZE ∨
    (p.cut limit).image.length ≤ MAX_PACKET_SIZE) :
    p.encodedSize limit = (p.cut limit).image.length :=
  sizeWithDiag_eq rfl p.length_fixedImage small

theorem writes_maxQos (qos : QoS) : Writes (encodeMaxQos qos) (maxQosImage qos) := by
  cases qos with
  | atMostOnce => exact Writes.putSlice _
  | atLeastOnce => exact Writes.putSlice _
  | exactlyOnce => exact Writes.pure

theorem writes {p : ConnectAck} {limit : Nat} (fits : (p.cut limit).Fits)
    (small : p.encodedSize limit ≤ MAX_PACKET_SIZE) :
    Writes (p.encode (p.encodedSize limit)) (p.cut limit).image := by
  refine writes_encodeWithDiag (Writes.putSlice _) rfl ?_ p.length_fixedImage fits.diag small
  refine Writes.bind (writes_encodeProperty (fun _ _ => trivial) _) ?_
  refine Writes.bind (writes_encodePropertyDefault trivial _) ?_
  refine Writes.bind (writes_maxQos _) ?_
  refine Writes.bind (writes_encodePropertyDefault trivial _) ?_
  refine Writes.bind (writes_encodeProperty (fun _ _ => trivial) _) ?_
  refine Writes.bind (writes_encodeProperty fits.assignedClientId _) ?_
  refine Writes.bind (writes_encodePropertyDefault trivial _) ?_
  refine Writes.bind (writes_encodePropertyDefault trivial _) ?_
  refine Writes.bind (writes_encodePropertyDefault trivial _) ?_
  refine Writes.bind (writes_encodePropertyDefault trivial _) ?_
  refine Writes.bind (writes_encodeProperty (fun _ _ => trivial) _) ?_
  refine Writes.bind (writes_encodeProperty fits.responseInfo _) ?_
  refine Writes.bind (writes_encodeProperty fits.serverReference _) ?_
  refine Writes.bind (writes_encodeProperty fits.authMethod _) ?_
  exact writes_encodeProperty fits.authData _

theorem feeds_maxQos {acc : Props} (unset : acc.maxQos = none) (qos : QoS) :
    FeedsProps Props.read acc (maxQosImage qos)
      { acc with maxQos := if qos = .exactlyOnce then none else some qos } := by
  have reads : acc.read pt.MAX_QOS = readMaxQos none >>= fun q => pure { acc with maxQos := q } := by
    rw [← unset]
    rfl
  have some_of : ∀ q : QoS, FeedsProps Props.read acc [pt.MAX_QOS, toU8 q]
      { acc with maxQos := some q } := by
    intro q
    refine Feeds.of_decodes ?_ (List.cons_ne_nil _ _)
    refine Decodes.bind (Decodes.getU8 pt.MAX_QOS) ?_
    rw [reads]
    refine Decodes.bind_last ?_ (Decodes.pure _)
    refine Decodes.bind_nil (Decodes.ensure rfl) (Decodes.ensureRemaining (Nat.le_refl 1) ?_)
    exact (Decodes.getU8 _).bind_last (decodes_tryFrom q).map
  cases qos with
  | atMostOnce => exact some_of _
  | atLeastOnce => exact some_of _
  | exactlyOnce =>
      have same : { acc with maxQos := none } = acc := by rw [← unset]
      change FeedsProps Props.read acc [] { acc with maxQos := none }
      rw [same]
      exact Feeds.refl _ _

theorem feeds_fixed {p : ConnectAck} (fits : p.Fits) :
    FeedsProps Props.read {} p.fixedImage p.fixedProps :=
  (feeds_property pt.SESS_EXPIRY_INT
    (fun (acc : Props) x => { acc with sessionExpiryIntervalSecs := x })
      p.sessionExpiryIntervalSecs rfl rfl fun _ _ => trivial).trans
    ((feeds_property pt.RECEIVE_MAX (fun (acc : Props) x => { acc with receiveMax := x })
      (elide p.receiveMax RECEIVE_MAX_DEFAULT) rfl rfl fun _ _ => trivial).trans
    ((feeds_maxQos rfl p.maxQos).trans
    ((feeds_property pt.RETAIN_AVAIL (fun (acc : Props) x => { acc with retainAvailable := x })
      (elide p.retainAvailable true) rfl rfl fun _ _ => trivial).trans
    ((feeds_property pt.MAX_PACKET_SIZE (fun (acc : Props) x => { acc with maxPacketSize := x })
      p.maxPacketSize rfl rfl fun _ _ => trivial).trans
    ((feeds_property pt.ASSND_CLIENT_ID (fun (acc : Props) x => { acc with assignedClientId := x })
      p.assignedClientId rfl rfl fits.assignedClientId).trans
    ((feeds_property pt.TOPIC_ALIAS_MAX (fun (acc : Props) x => { acc with topicAliasMax := x })
      (elide p.topicAliasMax 0) rfl rfl fun _ _ => trivial).trans
    ((feeds_property pt.WILDCARD_SUB_AVAIL (fun (acc : Props) x => { acc with wildcardSubAvail := x })
      (elide p.wildcardSubscriptionAvailable true) rfl rfl fun _ _ => trivial).trans
    ((feeds_property pt.SUB_IDS_AVAIL (fun (acc : Props) x => { acc with subIdsAvail := x })
      (elide p.subscriptionIdentifiersAvailable true) rfl rfl fun _ _ => trivial).trans
    ((feeds_property pt.SHARED_SUB_AVAIL (fun (acc : Props) x => { acc with sharedSubAvail := x })
      (elide p.sharedSubscriptionAvailable true) rfl rfl fun _ _ => trivial).trans
    ((feeds_property pt.SERVER_KA (fun (acc : Props) x => { acc with serverKaSec := x })
      p.serverKeepaliveSec rfl rfl fun _ _ => trivial).trans
    ((feeds_property pt.RESP_INFO (fun (acc : Props) x => { acc with responseInfo := x })
      p.responseInfo rfl rfl fits.responseInfo).trans
    ((feeds_property pt.SERVER_REF (fun (acc : Props) x => { acc with serverReference := x })
      p.serverReference rfl rfl fits.serverReference).trans
    ((feeds_property pt.AUTH_METHOD (fun (acc : Props) x => { acc with authMethod := x })
      p.authMethod rfl rfl fits.authMethod).trans
    (feeds_property pt.AUTH_DATA (fun (acc : Props) x => { acc with authData := x })
      p.authData rfl rfl fits.authData))))))))))))))

theorem feeds_props {p : ConnectAck} (fits : p.Fits) :
    FeedsProps Props.read {} (p.fixedImage ++ optPropsImage p.userProperties p.reasonString)
      { p.fixedProps with userProperties := p.userProperties, reasonString := p.reasonString } :=
  (feeds_fixed fits).trans
    ((feeds_users (fun (acc : Props) us => { acc with userProperties := us }) (fun _ => rfl) rfl
      fits.diag.1).trans
    (feeds_property pt.REASON_STRING (fun (acc : Props) x => { acc with reasonString := x })
      p.reasonString rfl rfl fits.diag.2))

theorem decode_image {p : ConnectAck} (fits : p.Fits) (small : p.image.length ≤ MAX_PACKET_SIZE) :
    DecodesAll decode p.image p := by
  have block := Nat.le_trans length_fixed_le_diagImage small
  have flags : fromBits ConnectAckFlags.ALL (boolU8 p.sessionPresent) =
      some (boolU8 p.sessionPresent) := by
    cases p.sessionPresent <;> rfl
  have present : contains (boolU8 p.sessionPresent) ConnectAckFlags.SESSION_PRESENT =
      p.sessionPresent := by
    cases p.sessionPresent <;> rfl
  have maxQos : (if p.maxQos = .exactlyOnce then none else some p.maxQos).getD .exactlyOnce =
      p.maxQos := by
    cases p.maxQos <;> rfl
  refine DecodesAll.ensureRemaining (by simp [image, diagImage]) ?_
  refine DecodesAll.getU8 ?_
  refine DecodesAll.bind_nil (Decodes.okOr flags) ?_
  refine DecodesAll.getU8 ?_
  refine DecodesAll.bind_nil (decodes_tryFrom p.reasonCode) ?_
  refine DecodesAll.bind_all (decodes_readProperties (feeds_props fits) block).all ?_
  refine DecodesAll.ensureConsumed ?_
  simp only [fixedProps, getD_elide, present, maxQos]
  exact DecodesAll.pure p

theorem safe_readMaxQos (cur : Option QoS) : Safe 0 (readMaxQos cur) 0 0 :=
  (Safe.ensure _ _ 0).zero_bind fun _ => (Safe.ensureRemaining 1 _).zero_bind fun _ =>
    (Safe.getU8 0).zero_bind fun v =>
      (safe_tryFrom v 0).map

theorem safe_read (acc : Props) (tag : UInt8) : Safe 0 (acc.read tag) 0 0 := by
  unfold Props.read
  split
  all_goals first
    | exact (safe_readValue _).bind_zero fun _ => Safe.pure _ 0
    | exact (safe_readMaxQos _).bind_zero fun _ => Safe.pure _ 0
    | exact safe_decode.bind_zero fun _ => Safe.pure _ 0
    | exact Safe.fail _ 0 0 0

theorem safe : Safe 0 decode 0 0 := by
  refine (Safe.ensureRemaining 2 _).zero_bind fun _ => ?_
  refine (Safe.getU8 1).zero_bind fun b => ?_
  refine (Safe.okOr _ _ 1).zero_bind fun flags => ?_
  refine (Safe.getU8 0).zero_bind fun code => ?_
  refine (safe_tryFrom code 0).zero_bind fun reason => ?_
  refine (safe_readProperties safe_read _).zero_bind fun props => ?_
  exact (Safe.ensureConsumed _ 0).zero_bind fun _ => Safe.pure _ 0

/-- Nothing is cut from a packet that fits. -/
theorem cut_eq_self {p : ConnectAck} (h : p.image.length ≤ MAX_PACKET_SIZE) :
    p.cut MAX_PACKET_SIZE = p := by
  have all := keepDiag_eq_self
    (show [boolU8 p.sessionPresent, toU8 p.reasonCode].length = 2 from rfl)
    (by decide) p.length_fixedImage h
  rw [cut, all]

/-- The size of a packet that nothing is cut from. -/
theorem encodedSize_max {p : ConnectAck} (h : p.image.length ≤ MAX_PACKET_SIZE) :
    p.encodedSize MAX_PACKET_SIZE = p.image.length := by
  have whole := cut_eq_self h
  rw [encodedSize_eq (.inr (whole.symm ▸ h)), whole]

/-- A cut packet is within the wire limits if the packet is. -/
theorem Fits.cut {p : ConnectAck} (fits : p.Fits) (limit : Nat) : (p.cut limit).Fits :=
  { fits with diag := fits.diag.keep _ }

end ConnectAck

end OxiMqtt.Codec.V5

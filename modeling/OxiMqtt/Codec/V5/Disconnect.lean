import OxiMqtt.Codec.V5.Properties

/-!
# MQTT 5 DISCONNECT and AUTH

`codec/v5/packet/disconnect.rs` and `codec/v5/packet/auth.rs`.  Both packets are a
reason code and a property block whose user properties and reason string may be
cut to the limit; both may be empty on the wire.
-/

namespace OxiMqtt.Codec.V5

open Wire Wire.Reader Wire.ByteWriter

/-- `DisconnectReasonCode` -/
inductive DisconnectReasonCode : Type
  | normalDisconnection
  | disconnectWithWillMessage
  | unspecifiedError
  | malformedPacket
  | protocolError
  | implementationSpecificError
  | notAuthorized
  | serverBusy
  | serverShuttingDown
  | badAuthenticationMethod
  | keepAliveTimeout
  | sessionTakenOver
  | topicFilterInvalid
  | topicNameInvalid
  | receiveMaximumExceeded
  | topicAliasInvalid
  | packetTooLarge
  | messageRateTooHigh
  | quotaExceeded
  | administrativeAction
  | payloadFormatInvalid
  | retainNotSupported
  | qosNotSupported
  | useAnotherServer
  | serverMoved
  | sharedSubscriptionNotSupported
  | connectionRateExceeded
  | maximumConnectTime
  | subscriptionIdentifiersNotSupported
  | wildcardSubscriptionsNotSupported
  deriving DecidableEq, Repr

instance : PrimEnum DisconnectReasonCode where
  table := [(0, .normalDisconnection), (4, .disconnectWithWillMessage), (128, .unspecifiedError),
    (129, .malformedPacket), (130, .protocolError), (131, .implementationSpecificError),
    (135, .notAuthorized), (137, .serverBusy), (139, .serverShuttingDown),
    (140, .badAuthenticationMethod), (141, .keepAliveTimeout), (142, .sessionTakenOver),
    (143, .topicFilterInvalid), (144, .topicNameInvalid), (147, .receiveMaximumExceeded),
    (148, .topicAliasInvalid), (149, .packetTooLarge), (150, .messageRateTooHigh),
    (151, .quotaExceeded), (152, .administrativeAction), (153, .payloadFormatInvalid),
    (154, .retainNotSupported), (155, .qosNotSupported), (156, .useAnotherServer),
    (157, .serverMoved), (158, .sharedSubscriptionNotSupported), (159, .connectionRateExceeded),
    (160, .maximumConnectTime), (161, .subscriptionIdentifiersNotSupported),
    (162, .wildcardSubscriptionsNotSupported)]
  toU8
    | .normalDisconnection => 0
    | .disconnectWithWillMessage => 4
    | .unspecifiedError => 128
    | .malformedPacket => 129
    | .protocolError => 130
    | .implementationSpecificError => 131
    | .notAuthorized => 135
    | .serverBusy => 137
    | .serverShuttingDown => 139
    | .badAuthenticationMethod => 140
    | .keepAliveTimeout => 141
    | .sessionTakenOver => 142
    | .topicFilterInvalid => 143
    | .topicNameInvalid => 144
    | .receiveMaximumExceeded => 147
    | .topicAliasInvalid => 148
    | .packetTooLarge => 149
    | .messageRateTooHigh => 150
    | .quotaExceeded => 151
    | .administrativeAction => 152
    | .payloadFormatInvalid => 153
    | .retainNotSupported => 154
    | .qosNotSupported => 155
    | .useAnotherServer => 156
    | .serverMoved => 157
    | .sharedSubscriptionNotSupported => 158
    | .connectionRateExceeded => 159
    | .maximumConnectTime => 160
    | .subscriptionIdentifiersNotSupported => 161
    | .wildcardSubscriptionsNotSupported => 162
  lookup_toU8 := by intro r; cases r <;> rfl


/-- `AuthReasonCode` -/
inductive AuthReasonCode : Type
  | success
  | continueAuth
  | reAuth
  deriving DecidableEq, Repr

instance : PrimEnum AuthReasonCode where
  table := [(0, .success), (24, .continueAuth), (25, .reAuth)]
  toU8
    | .success => 0
    | .continueAuth => 24
    | .reAuth => 25
  lookup_toU8 := by intro r; cases r <;> rfl


/-! ## DISCONNECT -/

/-- `Disconnect` -/
structure Disconnect : Type where
  reasonCode : DisconnectReasonCode
  sessionExpiryIntervalSecs : Option UInt32
  serverReference : Option ByteString
  reasonString : Option ByteString
  userProperties : UserProperties
  deriving DecidableEq, Repr

namespace Disconnect

/-- `Disconnect::new` -/
def new (reasonCode : DisconnectReasonCode) : Disconnect where
  reasonCode := reasonCode
  sessionExpiryIntervalSecs := none
  serverReference := none
  reasonString := none
  userProperties := []

/-- `Default for Disconnect` -/
def default : Disconnect := new .normalDisconnection

/-- The properties collected by `Disconnect::decode`. -/
structure Props : Type where
  sessionExpSecs : Option UInt32 := none
  serverReference : Option ByteString := none
  userProperties : UserProperties := []
  reasonString : Option ByteString := none

/-- The dispatch of `Disconnect::decode` on the property type. -/
def Props.read (acc : Props) : UInt8 → Reader DecodeError Props
  | pt.SESS_EXPIRY_INT => do return { acc with sessionExpSecs := ← readValue acc.sessionExpSecs }
  | pt.REASON_STRING => do return { acc with reasonString := ← readValue acc.reasonString }
  | pt.USER => do return { acc with userProperties := acc.userProperties ++ [← decode] }
  | pt.SERVER_REF => do return { acc with serverReference := ← readValue acc.serverReference }
  | _ => fail .malformedPacket

/-- `Disconnect::decode` -/
def decode : Reader DecodeError Disconnect :=
  ifRemaining
    (do
      let reasonCode ← fromOutcome (PrimEnum.tryFrom (← getU8))
      ifRemaining
        (do
          let props ← readProperties Props.read {}
          ensureConsumed .invalidLength
          return {
            reasonCode
            sessionExpiryIntervalSecs := props.sessionExpSecs
            serverReference := props.serverReference
            reasonString := props.reasonString
            userProperties := props.userProperties })
        (return { default with reasonCode }))
    (return default)

/-- The length of the properties that are never cut. -/
def propLen (p : Disconnect) : Nat :=
  encodedPropertySize p.sessionExpiryIntervalSecs + encodedPropertySize p.serverReference

/-- `encoded_size` -/
def encodedSize (p : Disconnect) (limit : Nat) : Nat :=
  sizeWithDiag 1 p.propLen p.userProperties p.reasonString limit

/-- `encode` -/
def encode (p : Disconnect) (size : Nat) : ByteWriter EncodeError Unit :=
  encodeWithDiag 1 (putU8 (toU8 p.reasonCode))
    (do
      encodeProperty p.sessionExpiryIntervalSecs pt.SESS_EXPIRY_INT
      encodeProperty p.serverReference pt.SERVER_REF)
    p.userProperties p.reasonString size

/-- The fields are within their wire limits. -/
structure Fits (p : Disconnect) : Prop where
  serverReference : ∀ s ∈ p.serverReference, Codec.Fits s
  diag : DiagFit p.userProperties p.reasonString

/-- The bytes of the properties that are never cut. -/
def fixedImage (p : Disconnect) : Bytes :=
  propImage pt.SESS_EXPIRY_INT p.sessionExpiryIntervalSecs ++
    propImage pt.SERVER_REF p.serverReference

/-- The bytes of the content. -/
def image (p : Disconnect) : Bytes :=
  diagImage [toU8 p.reasonCode] p.fixedImage p.userProperties p.reasonString

/-- The packet as it is sent under a limit. -/
def cut (p : Disconnect) (limit : Nat) : Disconnect :=
  { p with
    userProperties := (keepDiag 1 p.propLen p.userProperties p.reasonString limit).1
    reasonString := (keepDiag 1 p.propLen p.userProperties p.reasonString limit).2 }

theorem length_fixedImage (p : Disconnect) : p.fixedImage.length = p.propLen := by
  rw [fixedImage, List.length_append, length_propImage, length_propImage, propLen]

theorem encodedSize_eq {p : Disconnect} {limit : Nat} (small : p.encodedSize limit ≤ MAX_PACKET_SIZE ∨
    (p.cut limit).image.length ≤ MAX_PACKET_SIZE) :
    p.encodedSize limit = (p.cut limit).image.length :=
  sizeWithDiag_eq rfl p.length_fixedImage small

theorem writes {p : Disconnect} {limit : Nat} (fits : (p.cut limit).Fits)
    (small : p.encodedSize limit ≤ MAX_PACKET_SIZE) :
    Writes (p.encode (p.encodedSize limit)) (p.cut limit).image :=
  writes_encodeWithDiag (Writes.putU8 _) rfl
    ((writes_encodeProperty (fun _ _ => trivial) _).bind
      (writes_encodeProperty fits.serverReference _))
    p.length_fixedImage fits.diag small

theorem feeds_props {p : Disconnect} (fits : p.Fits) :
    FeedsProps Props.read {} (p.fixedImage ++ optPropsImage p.userProperties p.reasonString)
      ⟨p.sessionExpiryIntervalSecs, p.serverReference, p.userProperties, p.reasonString⟩ :=
  ((feeds_property pt.SESS_EXPIRY_INT (fun (acc : Props) x => { acc with sessionExpSecs := x })
      p.sessionExpiryIntervalSecs rfl rfl fun _ _ => trivial).trans
    (feeds_property pt.SERVER_REF (fun (acc : Props) x => { acc with serverReference := x })
      p.serverReference rfl rfl fits.serverReference)).trans
  ((feeds_users (fun (acc : Props) us => { acc with userProperties := us }) (fun _ => rfl) rfl
      fits.diag.1).trans
    (feeds_property pt.REASON_STRING (fun (acc : Props) x => { acc with reasonString := x })
      p.reasonString rfl rfl fits.diag.2))

theorem decode_image {p : Disconnect} (fits : p.Fits) (small : p.image.length ≤ MAX_PACKET_SIZE) :
    DecodesAll decode p.image p := by
  have block := Nat.le_trans length_fixed_le_diagImage small
  refine DecodesAll.ifRemaining (by simp [image, diagImage]) ?_
  refine DecodesAll.getU8 ?_
  refine DecodesAll.bind_nil (decodes_tryFrom p.reasonCode) ?_
  refine DecodesAll.ifRemaining (varInt_append_ne_nil _ _) ?_
  exact DecodesAll.bind_all (decodes_readProperties (feeds_props fits) block).all
    (DecodesAll.ensureConsumed (DecodesAll.pure p))

theorem safe_read (acc : Props) (tag : UInt8) : Safe 0 (acc.read tag) 0 0 := by
  unfold Props.read
  split
  · exact (safe_readValue _).bind_zero fun _ => Safe.pure _ 0
  · exact (safe_readValue _).bind_zero fun _ => Safe.pure _ 0
  · exact safe_decode.bind_zero fun _ => Safe.pure _ 0
  · exact (safe_readValue _).bind_zero fun _ => Safe.pure _ 0
  · exact Safe.fail _ 0 0 0

theorem safe : Safe 0 decode 0 0 := by
  refine Safe.ifRemaining ?_ (Safe.pure _ 0)
  refine (Safe.getU8 0).zero_bind fun code => ?_
  refine (safe_tryFrom code 0).zero_bind fun reason => ?_
  refine Safe.ifRemaining ?_ (Safe.pure _ 0)
  refine ((safe_readProperties safe_read _).mono (Nat.zero_le _) (Nat.le_refl 0)
    (Nat.zero_le 1)).zero_bind fun r => ?_
  exact (Safe.ensureConsumed _ 0).zero_bind fun _ => Safe.pure _ 0

/-- Nothing is cut from a packet that fits. -/
theorem cut_eq_self {p : Disconnect} (h : p.image.length ≤ MAX_PACKET_SIZE) :
    p.cut MAX_PACKET_SIZE = p := by
  have all := keepDiag_eq_self (show [toU8 p.reasonCode].length = 1 from rfl) (by decide)
    p.length_fixedImage h
  rw [cut, all]

/-- The size of a packet that nothing is cut from. -/
theorem encodedSize_max {p : Disconnect} (h : p.image.length ≤ MAX_PACKET_SIZE) :
    p.encodedSize MAX_PACKET_SIZE = p.image.length := by
  have whole := cut_eq_self h
  rw [encodedSize_eq (.inr (whole.symm ▸ h)), whole]

/-- A cut packet is within the wire limits if the packet is. -/
theorem Fits.cut {p : Disconnect} (fits : p.Fits) (limit : Nat) : (p.cut limit).Fits :=
  ⟨fits.serverReference, fits.diag.keep _⟩

end Disconnect

/-! ## AUTH -/

/-- `Auth` -/
structure Auth : Type where
  reasonCode : AuthReasonCode
  authMethod : Option ByteString
  authData : Option Bytes
  reasonString : Option ByteString
  userProperties : UserProperties
  deriving DecidableEq, Repr

namespace Auth

/-- `Default for Auth` -/
def default : Auth where
  reasonCode := .success
  authMethod := none
  authData := none
  reasonString := none
  userProperties := []

/-- The properties collected by `Auth::decode`. -/
structure Props : Type where
  authMethod : Option ByteString := none
  authData : Option Bytes := none
  userProperties : UserProperties := []
  reasonString : Option ByteString := none

/-- The dispatch of `Auth::decode` on the property type. -/
def Props.read (acc : Props) : UInt8 → Reader DecodeError Props
  | pt.AUTH_METHOD => do return { acc with authMethod := ← readValue acc.authMethod }
  | pt.AUTH_DATA => do return { acc with authData := ← readValue acc.authData }
  | pt.REASON_STRING => do return { acc with reasonString := ← readValue acc.reasonString }
  | pt.USER => do return { acc with userProperties := acc.userProperties ++ [← decode] }
  | _ => fail .malformedPacket

/-- The property block of `Auth::decode`, read only under a condition. -/
def readBlock (present : Bool) : Reader DecodeError Props :=
  if present then do
    let props ← readProperties Props.read {}
    ensureConsumed .invalidLength
    return props
  else return {}

/-- `Auth::decode` -/
def decode : Reader DecodeError Auth :=
  ifRemaining
    (do
      let reasonCode ← fromOutcome (PrimEnum.tryFrom (← getU8))
      ifRemaining
        (do
          let more ← hasRemaining
          let props ← readBlock (reasonCode ≠ .success || more)
          return {
            reasonCode
            authMethod := props.authMethod
            authData := props.authData
            reasonString := props.reasonString
            userProperties := props.userProperties })
        (return { default with reasonCode }))
    (return default)

/-- The length of the properties that are never cut. -/
def propLen (p : Auth) : Nat := encodedPropertySize p.authMethod + encodedPropertySize p.authData

/-- `encoded_size` -/
def encodedSize (p : Auth) (limit : Nat) : Nat :=
  sizeWithDiag 1 p.propLen p.userProperties p.reasonString limit

/-- `encode` -/
def encode (p : Auth) (size : Nat) : ByteWriter EncodeError Unit :=
  encodeWithDiag 1 (putU8 (toU8 p.reasonCode))
    (do
      encodeProperty p.authMethod pt.AUTH_METHOD
      encodeProperty p.authData pt.AUTH_DATA)
    p.userProperties p.reasonString size

/-- The fields are within their wire limits. -/
structure Fits (p : Auth) : Prop where
  authMethod : ∀ s ∈ p.authMethod, Codec.Fits s
  authData : ∀ bs ∈ p.authData, Codec.Fits bs
  diag : DiagFit p.userProperties p.reasonString

/-- The bytes of the properties that are never cut. -/
def fixedImage (p : Auth) : Bytes :=
  propImage pt.AUTH_METHOD p.authMethod ++ propImage pt.AUTH_DATA p.authData

/-- The bytes of the content. -/
def image (p : Auth) : Bytes :=
  diagImage [toU8 p.reasonCode] p.fixedImage p.userProperties p.reasonString

/-- The packet as it is sent under a limit. -/
def cut (p : Auth) (limit : Nat) : Auth :=
  { p with
    userProperties := (keepDiag 1 p.propLen p.userProperties p.reasonString limit).1
    reasonString := (keepDiag 1 p.propLen p.userProperties p.reasonString limit).2 }

theorem length_fixedImage (p : Auth) : p.fixedImage.length = p.propLen := by
  rw [fixedImage, List.length_append, length_propImage, length_propImage, propLen]

theorem encodedSize_eq {p : Auth} {limit : Nat} (small : p.encodedSize limit ≤ MAX_PACKET_SIZE ∨
    (p.cut limit).image.length ≤ MAX_PACKET_SIZE) :
    p.encodedSize limit = (p.cut limit).image.length :=
  sizeWithDiag_eq rfl p.length_fixedImage small

theorem writes {p : Auth} {limit : Nat} (fits : (p.cut limit).Fits)
    (small : p.encodedSize limit ≤ MAX_PACKET_SIZE) :
    Writes (p.encode (p.encodedSize limit)) (p.cut limit).image :=
  writes_encodeWithDiag (Writes.putU8 _) rfl
    ((writes_encodeProperty fits.authMethod _).bind (writes_encodeProperty fits.authData _))
    p.length_fixedImage fits.diag small

theorem feeds_props {p : Auth} (fits : p.Fits) :
    FeedsProps Props.read {} (p.fixedImage ++ optPropsImage p.userProperties p.reasonString)
      ⟨p.authMethod, p.authData, p.userProperties, p.reasonString⟩ :=
  ((feeds_property pt.AUTH_METHOD (fun (acc : Props) x => { acc with authMethod := x })
      p.authMethod rfl rfl fits.authMethod).trans
    (feeds_property pt.AUTH_DATA (fun (acc : Props) x => { acc with authData := x })
      p.authData rfl rfl fits.authData)).trans
  ((feeds_users (fun (acc : Props) us => { acc with userProperties := us }) (fun _ => rfl) rfl
      fits.diag.1).trans
    (feeds_property pt.REASON_STRING (fun (acc : Props) x => { acc with reasonString := x })
      p.reasonString rfl rfl fits.diag.2))

theorem decode_image {p : Auth} (fits : p.Fits) (small : p.image.length ≤ MAX_PACKET_SIZE) :
    DecodesAll decode p.image p := by
  have block := Nat.le_trans length_fixed_le_diagImage small
  refine DecodesAll.ifRemaining (by simp [image, diagImage]) ?_
  refine DecodesAll.getU8 ?_
  refine DecodesAll.bind_nil (decodes_tryFrom p.reasonCode) ?_
  refine DecodesAll.ifRemaining (varInt_append_ne_nil _ _) ?_
  refine DecodesAll.hasRemaining (varInt_append_ne_nil _ _) ?_
  rw [Bool.or_true]
  have props : DecodesAll (readBlock true) _ _ :=
    DecodesAll.bind_all (decodes_readProperties (feeds_props fits) block).all
      (DecodesAll.ensureConsumed (DecodesAll.pure _))
  exact DecodesAll.bind_all props (DecodesAll.pure p)

theorem safe_read (acc : Props) (tag : UInt8) : Safe 0 (acc.read tag) 0 0 := by
  unfold Props.read
  split
  · exact (safe_readValue _).bind_zero fun _ => Safe.pure _ 0
  · exact (safe_readValue _).bind_zero fun _ => Safe.pure _ 0
  · exact (safe_readValue _).bind_zero fun _ => Safe.pure _ 0
  · exact safe_decode.bind_zero fun _ => Safe.pure _ 0
  · exact Safe.fail _ 0 0 0

theorem safe_readBlock (present : Bool) : Safe 0 (readBlock present) 0 0 := by
  unfold readBlock
  split
  · exact (safe_readProperties safe_read _).zero_bind fun _ => (Safe.ensureConsumed _ 0).zero_bind fun _ => Safe.pure _ 0
  · exact Safe.pure _ 0

theorem safe : Safe 0 decode 0 0 := by
  refine Safe.ifRemaining ?_ (Safe.pure _ 0)
  refine (Safe.getU8 0).zero_bind fun code => ?_
  refine (safe_tryFrom code 0).zero_bind fun reason => ?_
  refine Safe.ifRemaining ?_ (Safe.pure _ 0)
  refine ((Safe.hasRemaining 0).mono (Nat.zero_le _) (Nat.le_refl 0) (Nat.le_refl 0)).zero_bind
    fun more => ?_
  exact (safe_readBlock _).zero_bind fun _ => Safe.pure _ 0

/-- Nothing is cut from a packet that fits. -/
theorem cut_eq_self {p : Auth} (h : p.image.length ≤ MAX_PACKET_SIZE) :
    p.cut MAX_PACKET_SIZE = p := by
  have all := keepDiag_eq_self (show [toU8 p.reasonCode].length = 1 from rfl) (by decide)
    p.length_fixedImage h
  rw [cut, all]

/-- The size of a packet that nothing is cut from. -/
theorem encodedSize_max {p : Auth} (h : p.image.length ≤ MAX_PACKET_SIZE) :
    p.encodedSize MAX_PACKET_SIZE = p.image.length := by
  have whole := cut_eq_self h
  rw [encodedSize_eq (.inr (whole.symm ▸ h)), whole]

/-- A cut packet is within the wire limits if the packet is. -/
theorem Fits.cut {p : Auth} (fits : p.Fits) (limit : Nat) : (p.cut limit).Fits :=
  ⟨fits.authMethod, fits.authData, fits.diag.keep _⟩

end Auth

end OxiMqtt.Codec.V5

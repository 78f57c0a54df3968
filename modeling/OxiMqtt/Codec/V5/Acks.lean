import OxiMqtt.Codec.V5.Properties

/-!
# MQTT 5 acknowledgments

The packets of `codec/v5/packet/pubacks.rs` and the SUBACK and UNSUBACK of
`codec/v5/packet/subscribe.rs`.  The two pairs have the same code up to their
reason codes, so the decoder and the size pass are written once over the
enumeration of reasons.

Every packet type comes with the bytes of its content (`image`), what is left of
it under a limit (`cut`), and the four facts the codec uses: the size pass
measures the content of the cut packet, the encode pass writes it, the decoder
reads a content back, and nothing is cut far enough below the limit.
-/

namespace OxiMqtt.Codec.V5

open Wire Wire.Reader Wire.ByteWriter

/-- `PublishAckReason` -/
inductive PublishAckReason : Type
  | success
  | noMatchingSubscribers
  | unspecifiedError
  | implementationSpecificError
  | notAuthorized
  | topicNameInvalid
  | packetIdentifierInUse
  | quotaExceeded
  | payloadFormatInvalid
  deriving DecidableEq, Repr

instance : PrimEnum PublishAckReason where
  table := [(0, .success), (16, .noMatchingSubscribers), (128, .unspecifiedError),
    (131, .implementationSpecificError), (135, .notAuthorized), (144, .topicNameInvalid),
    (145, .packetIdentifierInUse), (151, .quotaExceeded), (153, .payloadFormatInvalid)]
  toU8
    | .success => 0
    | .noMatchingSubscribers => 16
    | .unspecifiedError => 128
    | .implementationSpecificError => 131
    | .notAuthorized => 135
    | .topicNameInvalid => 144
    | .packetIdentifierInUse => 145
    | .quotaExceeded => 151
    | .payloadFormatInvalid => 153
  lookup_toU8 := by intro r; cases r <;> rfl

/-- `PublishAck2Reason` -/
inductive PublishAck2Reason : Type
  | success
  | sendOnward
  | packetIdNotFound
  deriving DecidableEq, Repr

instance : PrimEnum PublishAck2Reason where
  table := [(0, .success), (2, .sendOnward), (146, .packetIdNotFound)]
  toU8
    | .success => 0
    | .sendOnward => 2
    | .packetIdNotFound => 146
  lookup_toU8 := by intro r; cases r <;> rfl

/-- `SubscribeAckReason` -/
inductive SubscribeAckReason : Type
  | grantedQos0
  | grantedQos1
  | grantedQos2
  | unspecifiedError
  | implementationSpecificError
  | notAuthorized
  | topicFilterInvalid
  | packetIdentifierInUse
  | quotaExceeded
  | sharedSubscriptionNotSupported
  | subscriptionIdentifiersNotSupported
  | wildcardSubscriptionsNotSupported
  deriving DecidableEq, Repr

instance : PrimEnum SubscribeAckReason where
  table := [(0, .grantedQos0), (1, .grantedQos1), (2, .grantedQos2), (128, .unspecifiedError),
    (131, .implementationSpecificError), (135, .notAuthorized), (143, .topicFilterInvalid),
    (145, .packetIdentifierInUse), (151, .quotaExceeded), (158, .sharedSubscriptionNotSupported),
    (161, .subscriptionIdentifiersNotSupported), (162, .wildcardSubscriptionsNotSupported)]
  toU8
    | .grantedQos0 => 0
    | .grantedQos1 => 1
    | .grantedQos2 => 2
    | .unspecifiedError => 128
    | .implementationSpecificError => 131
    | .notAuthorized => 135
    | .topicFilterInvalid => 143
    | .packetIdentifierInUse => 145
    | .quotaExceeded => 151
    | .sharedSubscriptionNotSupported => 158
    | .subscriptionIdentifiersNotSupported => 161
    | .wildcardSubscriptionsNotSupported => 162
  lookup_toU8 := by intro r; cases r <;> rfl

/-- `UnsubscribeAckReason` -/
inductive UnsubscribeAckReason : Type
  | success
  | noSubscriptionExisted
  | unspecifiedError
  | implementationSpecificError
  | notAuthorized
  | topicFilterInvalid
  | packetIdentifierInUse
  deriving DecidableEq, Repr

instance : PrimEnum UnsubscribeAckReason where
  table := [(0, .success), (17, .noSubscriptionExisted), (128, .unspecifiedError),
    (131, .implementationSpecificError), (135, .notAuthorized), (143, .topicFilterInvalid),
    (145, .packetIdentifierInUse)]
  toU8
    | .success => 0
    | .noSubscriptionExisted => 17
    | .unspecifiedError => 128
    | .implementationSpecificError => 131
    | .notAuthorized => 135
    | .topicFilterInvalid => 143
    | .packetIdentifierInUse => 145
  lookup_toU8 := by intro r; cases r <;> rfl

/-! ## PUBACK, PUBREC, PUBREL, PUBCOMP -/

/-- `PublishAck` and `PublishAck2`, over the reasons of the packet. -/
structure PublishAckOf (ρ : Type) : Type where
  packetId : NonZeroU16
  reasonCode : ρ
  properties : UserProperties
  reasonString : Option ByteString
  deriving DecidableEq, Repr

abbrev PublishAck : Type := PublishAckOf PublishAckReason

abbrev PublishAck2 : Type := PublishAckOf PublishAck2Reason

namespace PublishAckOf

variable {ρ : Type} [PrimEnum ρ]

/-- `decode`, where `success` is the reason of the default packet. -/
def decode (success : ρ) : Reader DecodeError (PublishAckOf ρ) := do
  let packetId : NonZeroU16 ← Codec.decode
  ifRemaining
    (do
      let reasonCode ← fromOutcome (PrimEnum.tryFrom (← getU8))
      ifRemaining
        (do
          let (properties, reasonString) ← ackPropsDecode
          ensureConsumed .invalidLength
          return { packetId, reasonCode, properties, reasonString })
        (return { packetId, reasonCode, properties := [], reasonString := none }))
    (return { packetId, reasonCode := success, properties := [], reasonString := none })

/-- `encoded_size`; the limit is reduced by plain subtractions. -/
def encodedSize (p : PublishAckOf ρ) (limit : Nat) : Outcome EncodeError Nat := do
  let limit ← subU32 limit 3
  let limit ← subU32 limit 4
  return 3 + ackPropsEncodedSize p.properties p.reasonString limit

/-- `encode` -/
def encode (p : PublishAckOf ρ) (size : Nat) : ByteWriter EncodeError Unit := do
  Codec.encode p.packetId.val
  putU8 (toU8 p.reasonCode)
  let propSize ← checkedSub size 3
  ackPropsEncode p.properties p.reasonString propSize

/-- The fields are within their wire limits. -/
def Fits (p : PublishAckOf ρ) : Prop := DiagFit p.properties p.reasonString

/-- The bytes of the content. -/
def image (p : PublishAckOf ρ) : Bytes :=
  be16 p.packetId.val ++ ([toU8 p.reasonCode] ++ ackPropsImage p.properties p.reasonString)

/-- The packet as it is sent under a limit. -/
def cut (p : PublishAckOf ρ) (limit : Nat) : PublishAckOf ρ :=
  { p with
    properties := (keepAckProps p.properties p.reasonString (limit - 7)).1
    reasonString := (keepAckProps p.properties p.reasonString (limit - 7)).2 }

theorem length_image (p : PublishAckOf ρ) : p.image.length =
    (varInt (optPropsImage p.properties p.reasonString).length).length +
      (optPropsImage p.properties p.reasonString).length + 3 := by
  simp only [image, ackPropsImage, List.length_append, length_be16, List.length_singleton]
  omega

omit [PrimEnum ρ] in
theorem encodedSize_eq_ok {p : PublishAckOf ρ} {limit n : Nat} (h : p.encodedSize limit = .ok n) :
    n = 3 + ackPropsEncodedSize p.properties p.reasonString (limit - 7) := by
  obtain ⟨l₁, h₁, h⟩ := Outcome.bind_eq_ok.mp h
  obtain ⟨l₂, h₂, h⟩ := Outcome.bind_eq_ok.mp h
  obtain ⟨-, rfl⟩ := subU32_eq_ok.mp h₁
  obtain ⟨-, rfl⟩ := subU32_eq_ok.mp h₂
  cases h
  rw [Nat.sub_sub]

theorem encodedSize_eq {p : PublishAckOf ρ} {limit n : Nat} (h : p.encodedSize limit = .ok n)
    (small : n ≤ MAX_PACKET_SIZE) : n = (p.cut limit).image.length := by
  have size := encodedSize_eq_ok h
  have kept := length_optPropsImage_le_ackPropsEncodedSize p.properties p.reasonString (limit - 7)
  rw [image, List.length_append, List.length_append, length_be16, List.length_singleton, cut,
    ← ackPropsEncodedSize_eq (by omega)]
  omega

theorem writes {p : PublishAckOf ρ} {limit n : Nat} (fits : (p.cut limit).Fits)
    (h : p.encodedSize limit = .ok n) (small : n ≤ MAX_PACKET_SIZE) :
    Writes (p.encode n) (p.cut limit).image := by
  have size := encodedSize_eq_ok h
  exact (Writes.putU16 _).bind ((Writes.putU8 _).bind
    (Writes.bind_checkedSub size (writes_ackPropsEncode fits (by omega))))

theorem decode_image {p : PublishAckOf ρ} (success : ρ) (fits : p.Fits)
    (small : p.image.length ≤ MAX_PACKET_SIZE) : DecodesAll (decode success) p.image p := by
  have block : (optPropsImage p.properties p.reasonString).length ≤ MAX_PACKET_SIZE := by
    rw [length_image] at small
    omega
  refine DecodesAll.bind (WireType.decodes p.packetId trivial) ?_
  refine DecodesAll.ifRemaining (by simp) ?_
  refine DecodesAll.getU8 ?_
  refine DecodesAll.bind_nil (decodes_tryFrom p.reasonCode) ?_
  refine DecodesAll.ifRemaining (ackPropsImage_ne_nil _ _) ?_
  exact DecodesAll.bind_all (decodes_ackPropsDecode fits block).all
    (DecodesAll.ensureConsumed (DecodesAll.pure p))

theorem safe_decode (success : ρ) : Safe 0 (decode success) 0 0 := by
  refine Codec.safe_decode.zero_bind fun packetId => ?_
  refine Safe.ifRemaining ?_ (Safe.pure _ 0)
  refine (Safe.getU8 0).zero_bind fun code => ?_
  refine (safe_tryFrom code 0).zero_bind fun reason => ?_
  refine Safe.ifRemaining ?_ (Safe.pure _ 0)
  refine (safe_ackPropsDecode.mono (Nat.zero_le _) (Nat.le_refl 0)
    (Nat.zero_le 1)).zero_bind fun r => ?_
  exact (Safe.ensureConsumed _ 0).zero_bind fun _ => Safe.pure _ 0

/-- Nothing is cut when the content stays four bytes below the largest packet. -/
theorem cut_eq_self {p : PublishAckOf ρ} (h : p.image.length + 4 ≤ MAX_PACKET_SIZE) :
    p.cut MAX_PACKET_SIZE = p := by
  rw [length_image] at h
  have room := add_four_le_of_varInt (m := 7) (by omega) (by decide)
  rw [cut, keepAckProps_of_le (by omega)]

/-- The size of a packet that nothing is cut from. -/
theorem encodedSize_max {p : PublishAckOf ρ} (small : p.image.length ≤ MAX_PACKET_SIZE)
    (whole : p.cut MAX_PACKET_SIZE = p) : p.encodedSize MAX_PACKET_SIZE = .ok p.image.length := by
  have size : p.encodedSize MAX_PACKET_SIZE =
      .ok (3 + ackPropsEncodedSize p.properties p.reasonString (MAX_PACKET_SIZE - 7)) := rfl
  have kept : keepAckProps p.properties p.reasonString (MAX_PACKET_SIZE - 7) =
      (p.properties, p.reasonString) :=
    Prod.ext (congrArg properties whole) (congrArg reasonString whole)
  rw [length_image] at small
  rw [size, ackPropsEncodedSize_eq (by rw [kept]; dsimp only; omega), kept, length_image,
    ackPropsImage, List.length_append]
  dsimp only
  congr 1
  omega

omit [PrimEnum ρ] in
/-- A cut packet is within the wire limits if the packet is. -/
theorem Fits.cut {p : PublishAckOf ρ} (fits : p.Fits) (limit : Nat) : (p.cut limit).Fits :=
  DiagFit.keepAck fits (limit - 7)

end PublishAckOf

/-! ## SUBACK and UNSUBACK -/

/-- `SubscribeAck` and `UnsubscribeAck`, over the reasons of the packet. -/
structure StatusAckOf (ρ : Type) : Type where
  packetId : NonZeroU16
  properties : UserProperties
  reasonString : Option ByteString
  status : List ρ
  deriving DecidableEq, Repr

abbrev SubscribeAck : Type := StatusAckOf SubscribeAckReason

abbrev UnsubscribeAck : Type := StatusAckOf UnsubscribeAckReason

namespace StatusAckOf

variable {ρ : Type} [PrimEnum ρ]

/-- `decode` -/
def decode : Reader DecodeError (StatusAckOf ρ) := do
  let packetId : NonZeroU16 ← Codec.decode
  let (properties, reasonString) ← ackPropsDecode
  let codes ← takeRest
  let status ← fromOutcome (Reader.forEach PrimEnum.tryFrom codes)
  return { packetId, properties, reasonString, status }

/-- `encode` -/
def encode (p : StatusAckOf ρ) (size : Nat) : ByteWriter EncodeError Unit := do
  Codec.encode p.packetId
  let len := p.status.length % 2 ^ 32
  let size ← checkedSub size 2
  let size ← checkedSub size len
  ackPropsEncode p.properties p.reasonString size
  ByteWriter.forEach (fun reason => putU8 (toU8 reason)) p.status

/-- The fields are within their wire limits. -/
def Fits (p : StatusAckOf ρ) : Prop := DiagFit p.properties p.reasonString

/-- The bytes of the content. -/
def image (p : StatusAckOf ρ) : Bytes :=
  be16 p.packetId.val ++ (ackPropsImage p.properties p.reasonString ++ p.status.map toU8)

/-- The packet with the properties that are kept under a limit for them. -/
def cutTo (p : StatusAckOf ρ) (limit : Nat) : StatusAckOf ρ :=
  { p with
    properties := (keepAckProps p.properties p.reasonString limit).1
    reasonString := (keepAckProps p.properties p.reasonString limit).2 }

theorem length_image (p : StatusAckOf ρ) : p.image.length =
    2 + (ackPropsImage p.properties p.reasonString).length + p.status.length := by
  simp only [image, List.length_append, length_be16, List.length_map]
  omega

theorem length_image_cutTo {p : StatusAckOf ρ} {limit : Nat}
    (small : 2 + ackPropsEncodedSize p.properties p.reasonString limit + p.status.length ≤
      MAX_PACKET_SIZE) :
    (p.cutTo limit).image.length =
      2 + ackPropsEncodedSize p.properties p.reasonString limit + p.status.length := by
  have kept := length_optPropsImage_le_ackPropsEncodedSize p.properties p.reasonString limit
  rw [length_image, cutTo, ackPropsEncodedSize_eq (by omega)]

theorem writes {p : StatusAckOf ρ} {limit : Nat} (fits : (p.cutTo limit).Fits)
    (small : 2 + ackPropsEncodedSize p.properties p.reasonString limit + p.status.length ≤
      MAX_PACKET_SIZE) :
    Writes (p.encode (2 + ackPropsEncodedSize p.properties p.reasonString limit + p.status.length))
      (p.cutTo limit).image := by
  have len : p.status.length % 2 ^ 32 = p.status.length :=
    Nat.mod_eq_of_lt (by unfold MAX_PACKET_SIZE at small; omega)
  have codes : Writes (ByteWriter.forEach (fun reason => putU8 (toU8 reason)) p.status :
      ByteWriter EncodeError Unit) (p.status.map toU8) := by
    rw [List.map_eq_flatMap]
    exact Writes.forEach _ fun _ _ => Writes.putU8 _
  refine (Writes.putU16 _).bind ?_
  dsimp only
  rw [len]
  refine Writes.bind_checkedSub (Nat.add_assoc _ _ _) ?_
  refine Writes.bind_checkedSub (Nat.add_comm _ _) ?_
  exact (writes_ackPropsEncode fits (by omega)).bind codes

theorem decode_image {p : StatusAckOf ρ} (fits : p.Fits)
    (small : p.image.length ≤ MAX_PACKET_SIZE) : DecodesAll decode p.image p := by
  have block : (optPropsImage p.properties p.reasonString).length ≤ MAX_PACKET_SIZE := by
    rw [length_image, ackPropsImage, List.length_append] at small
    omega
  refine DecodesAll.bind (WireType.decodes p.packetId trivial) ?_
  refine DecodesAll.bind (decodes_ackPropsDecode fits block) ?_
  refine DecodesAll.bind_all (DecodesAll.takeRest _) ?_
  exact DecodesAll.bind_nil (Decodes.fromOutcome
    (forEach_map p.status fun r _ => PrimEnum.tryFrom_toU8 r)) (DecodesAll.pure p)

theorem safe_decode : Safe 0 (decode : Reader DecodeError (StatusAckOf ρ)) 0 0 := by
  refine Codec.safe_decode.zero_bind fun packetId => ?_
  refine safe_ackPropsDecode.zero_bind fun r => ?_
  refine (Safe.takeRest 0).zero_bind fun codes => ?_
  exact (Safe.fromOutcome (forEach_ne_fault (fun v => PrimEnum.tryFrom_ne_fault v) codes)
    0).zero_bind fun _ => Safe.pure _ 0

theorem cutTo_eq_self {p : StatusAckOf ρ} {limit : Nat}
    (h : p.image.length + 2 ≤ limit + p.status.length) : p.cutTo limit = p := by
  rw [length_image, ackPropsImage, List.length_append] at h
  rw [cutTo, keepAckProps_of_le (by omega)]

omit [PrimEnum ρ] in
/-- A cut packet is within the wire limits if the packet is. -/
theorem Fits.cutTo {p : StatusAckOf ρ} (fits : p.Fits) (limit : Nat) : (p.cutTo limit).Fits :=
  DiagFit.keepAck fits limit

/-- The packet as it is sent under a limit. -/
def cut (p : StatusAckOf ρ) (limit : Nat) : StatusAckOf ρ :=
  p.cutTo (limit - (2 + p.status.length))

/-- Nothing is cut when the content stays four bytes below the largest packet. -/
theorem cut_eq_self {p : StatusAckOf ρ} (h : p.image.length + 4 ≤ MAX_PACKET_SIZE) :
    p.cut MAX_PACKET_SIZE = p := by
  have len : p.status.length ≤ p.image.length := by
    rw [length_image]
    omega
  exact cutTo_eq_self (by omega)

/-- What the size pass adds up for a packet that nothing is cut from. -/
theorem size_max {p : StatusAckOf ρ} (h : p.image.length ≤ MAX_PACKET_SIZE)
    (whole : p.cut MAX_PACKET_SIZE = p) :
    2 + ackPropsEncodedSize p.properties p.reasonString
      (MAX_PACKET_SIZE - (2 + p.status.length)) + p.status.length = p.image.length := by
  have kept : keepAckProps p.properties p.reasonString (MAX_PACKET_SIZE - (2 + p.status.length)) =
      (p.properties, p.reasonString) :=
    Prod.ext (congrArg properties whole) (congrArg reasonString whole)
  have small : (optPropsImage p.properties p.reasonString).length ≤ MAX_PACKET_SIZE := by
    rw [length_image, ackPropsImage, List.length_append] at h
    omega
  rw [ackPropsEncodedSize_eq (by rw [kept]; exact small), kept, length_image]

omit [PrimEnum ρ] in
/-- A cut packet is within the wire limits if the packet is. -/
theorem Fits.cut {p : StatusAckOf ρ} (fits : p.Fits) (limit : Nat) : (p.cut limit).Fits :=
  fits.cutTo _

end StatusAckOf

/-- `SubscribeAck::encoded_size`; the limit is reduced by plain subtractions. -/
def SubscribeAck.encodedSize (p : SubscribeAck) (limit : Nat) : Outcome EncodeError Nat :=
  let len := p.status.length
  if len > 2 ^ 32 - 1 - 2 then .ok (2 ^ 64 - 1)
  else do
    let limit ← subU32 limit 2
    let limit ← subU32 limit len
    return 2 + ackPropsEncodedSize p.properties p.reasonString limit + len

/-- `UnsubscribeAck::encoded_size`; the limit is reduced by `reduce_limit`. -/
def UnsubscribeAck.encodedSize (p : UnsubscribeAck) (limit : Nat) : Nat :=
  let len := p.status.length
  2 + len + ackPropsEncodedSize p.properties p.reasonString (reduceLimit limit (2 + len))

theorem SubscribeAck.encodedSize_eq_ok {p : SubscribeAck} {limit n : Nat}
    (h : p.encodedSize limit = .ok n) (small : n ≤ MAX_PACKET_SIZE) :
    n = 2 + ackPropsEncodedSize p.properties p.reasonString (limit - (2 + p.status.length)) +
      p.status.length := by
  unfold SubscribeAck.encodedSize at h
  dsimp only at h
  split at h
  · cases h
    exact absurd small (by decide)
  · obtain ⟨l₁, h₁, h⟩ := Outcome.bind_eq_ok.mp h
    obtain ⟨l₂, h₂, h⟩ := Outcome.bind_eq_ok.mp h
    obtain ⟨-, rfl⟩ := subU32_eq_ok.mp h₁
    obtain ⟨-, rfl⟩ := subU32_eq_ok.mp h₂
    cases h
    rw [Nat.sub_sub]

theorem SubscribeAck.encodedSize_max {p : SubscribeAck} (h : p.image.length ≤ MAX_PACKET_SIZE)
    (whole : p.cut MAX_PACKET_SIZE = p) :
    p.encodedSize MAX_PACKET_SIZE = .ok p.image.length := by
  have len : 2 + p.status.length ≤ MAX_PACKET_SIZE := by
    rw [StatusAckOf.length_image] at h
    omega
  have first : subU32 MAX_PACKET_SIZE 2 = .ok (MAX_PACKET_SIZE - 2) := rfl
  have second : subU32 (MAX_PACKET_SIZE - 2) p.status.length =
      .ok (MAX_PACKET_SIZE - (2 + p.status.length)) :=
    subU32_eq_ok.mpr ⟨by omega, Nat.sub_sub _ _ _⟩
  unfold SubscribeAck.encodedSize
  dsimp only
  rw [if_neg (by unfold MAX_PACKET_SIZE at len; omega), first, Outcome.ok_bind, second,
    Outcome.ok_bind, ← StatusAckOf.size_max h whole]
  rfl

theorem UnsubscribeAck.encodedSize_eq (p : UnsubscribeAck) (limit : Nat) :
    p.encodedSize limit =
      2 + ackPropsEncodedSize p.properties p.reasonString (limit - (2 + p.status.length)) +
        p.status.length := by
  unfold UnsubscribeAck.encodedSize
  dsimp only
  rw [reduceLimit_eq]
  omega

/-! ## The packets under their own names -/

/-- `PublishAck::decode` -/
def PublishAck.decode : Reader DecodeError PublishAck := PublishAckOf.decode .success

/-- `PublishAck2::decode` -/
def PublishAck2.decode : Reader DecodeError PublishAck2 := PublishAckOf.decode .success

/-- `SubscribeAck::decode` -/
def SubscribeAck.decode : Reader DecodeError SubscribeAck := StatusAckOf.decode

/-- `UnsubscribeAck::decode` -/
def UnsubscribeAck.decode : Reader DecodeError UnsubscribeAck := StatusAckOf.decode

end OxiMqtt.Codec.V5

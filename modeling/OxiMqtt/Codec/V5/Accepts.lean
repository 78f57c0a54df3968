import OxiMqtt.Codec.Accepts
import OxiMqtt.Codec.V5.Packet

/-!
# What the MQTT 5 decoders accept

Every packet that `decode_packet` returns is within the wire limits, and it takes no more bytes to
write than were read, a few short forms apart: properties may come in any order and with their
default values, lengths may be spelled with more bytes than they need, and acknowledgments may
leave out what they do not say.

The properties of a packet are collected in a record.  `Props.size` is what the properties in the
record take when they are written, and `Props.Fits` says that they are within their limits; every
`Props.read` adds at most the bytes it consumes and keeps the limits (`yields_read`).
-/

namespace OxiMqtt.Codec.V5

open Wire Wire.Reader Wire.ByteWriter

/-! ## Single properties -/

section Property

variable {α : Type} [Encode α] [Decode α] [WireType α] [ExactDecode α]

theorem yields_readValue (cur : Option α) :
    Yields (readValue cur) fun v n => (∀ a ∈ v, Fits a) ∧
      encodedPropertySize v = encodedPropertySize cur + (1 + n) := by
  apply (Yields.ensure _ _).zero_bind fun _ unset => ?_
  rw [Option.isNone_iff_eq_none.mp unset]
  apply Yields.map
  apply ExactDecode.yields.mono
  rintro a n ⟨fits, size⟩
  constructor
  · rintro b ⟨⟩
    exact fits
  · change 1 + encodedSize a = 0 + _
    omega

/-- A record whose size grows with the property that is set in it. -/
theorem yields_setProperty {σ : Type} {Good : σ → Prop} {size : σ → Nat} {acc : σ} {cur : Option α}
    {set : Option α → σ} (good : ∀ v, (∀ a ∈ v, Fits a) → Good (set v))
    (sum : ∀ v, size (set v) + encodedPropertySize cur = size acc + encodedPropertySize v) :
    Yields (readValue cur >>= fun v => pure (set v)) fun acc' n =>
      Good acc' ∧ size acc' ≤ size acc + (1 + n) := by
  apply (yields_readValue cur).bind
  rintro v n ⟨fits, added⟩
  have total := sum v
  exact Yields.pure ⟨good v fits, by omega⟩

omit [Decode α] [WireType α] [ExactDecode α] in
/-- Leaving out a default makes a property no longer. -/
theorem encodedPropertySizeDefault_le [DecidableEq α] (v : Option α) (dflt : α) :
    encodedPropertySizeDefault (v.getD dflt) dflt ≤ encodedPropertySize v := by
  cases v with
  | none =>
      rw [Option.getD_none, encodedPropertySizeDefault, if_pos rfl]
      exact Nat.zero_le _
  | some a =>
      rw [Option.getD_some, encodedPropertySizeDefault]
      split
      · exact Nat.zero_le _
      · exact Nat.le_refl _

end Property

theorem encodedSize_snoc (ups : UserProperties) (up : UserProperty) :
    encodedSize (ups ++ [up]) = encodedSize ups + (1 + encodedSize up) :=
  List.foldl_concat _ _ _ _

/-- A record whose size grows with its user properties, of which one more is read. -/
theorem yields_pushUser {σ : Type} {Good : σ → Prop} {size : σ → Nat} {acc : σ}
    {ups : UserProperties} {push : UserProperty → σ} (fits : UsersFit ups)
    (good : ∀ up, UsersFit (ups ++ [up]) → Good (push up))
    (sum : ∀ up, size (push up) + encodedSize ups = size acc + encodedSize (ups ++ [up])) :
    Yields (decode >>= fun up : UserProperty => pure (push up)) fun acc' n =>
      Good acc' ∧ size acc' ≤ size acc + (1 + n) := by
  apply ExactDecode.yields.bind
  rintro up n ⟨upFits, rfl⟩
  have total := sum up
  rw [encodedSize_snoc] at total
  refine Yields.pure ⟨good up fun u hu => ?_, by omega⟩
  rcases List.mem_append.mp hu with old | new
  · exact fits u old
  · rwa [List.mem_singleton.mp new]

theorem yields_readSubId :
    Yields readSubId fun id n =>
      id.val.toNat ≤ MAX_PACKET_SIZE ∧ (subIdImage id).length ≤ 1 + n := by
  apply yields_decodeVariableLengthCursor.bind
  rintro v n ⟨small, size⟩
  apply (Yields.okOr _ _).mono
  rintro id m ⟨nonzero, rfl⟩
  have value : id.val.toNat = v := by
    unfold NonZeroU32.new at nonzero
    split at nonzero
    · cases nonzero
      rw [UInt32.toNat_ofNat']
      exact Nat.mod_eq_of_lt (by unfold MAX_PACKET_SIZE at small; omega)
    · cases nonzero
  rw [subIdImage, List.length_cons, value]
  exact ⟨small, by omega⟩

theorem usersFit_nil : UsersFit [] := fun _ h => (List.not_mem_nil h).elim

end OxiMqtt.Codec.V5

namespace OxiMqtt.Codec

open Wire Wire.Reader Wire.ByteWriter V5

/-! ## PUBLISH -/

namespace PublishProperties

/-- What the properties take when they are written. -/
def Props.size (acc : Props) : Nat :=
  encodedPropertySize acc.topicAlias + encodedPropertySize acc.correlationData +
    encodedPropertySize acc.messageExpiryInterval + encodedPropertySize acc.contentType +
    encodedPropertySize acc.isUtf8Payload + encodedPropertySize acc.responseTopic +
    (acc.subscriptionIds.flatMap subIdImage).length + Codec.encodedSize acc.userProps

/-- The properties are within their wire limits. -/
structure Props.Fits (acc : Props) : Prop where
  correlationData : ∀ bs ∈ acc.correlationData, Codec.Fits bs
  contentType : ∀ s ∈ acc.contentType, Codec.Fits s
  responseTopic : ∀ s ∈ acc.responseTopic, Codec.Fits s
  subscriptionIds : ∀ id ∈ acc.subscriptionIds, id.val.toNat ≤ MAX_PACKET_SIZE
  userProps : UsersFit acc.userProps

theorem yields_read (acc : Props) (tag : UInt8) (good : acc.Fits) :
    Yields (acc.read tag) fun acc' n => acc'.Fits ∧ acc'.size ≤ acc.size + (1 + n) := by
  unfold Props.read
  split
  · exact yields_setProperty (fun v _ => { good with userProps := good.userProps })
      fun v => by simp only [Props.size]; omega
  · exact yields_setProperty (fun v _ => { good with userProps := good.userProps })
      fun v => by simp only [Props.size]; omega
  · exact yields_setProperty (fun v fits => { good with contentType := fits })
      fun v => by simp only [Props.size]; omega
  · exact yields_setProperty (fun v fits => { good with responseTopic := fits })
      fun v => by simp only [Props.size]; omega
  · exact yields_setProperty (fun v fits => { good with correlationData := fits })
      fun v => by simp only [Props.size]; omega
  · apply yields_readSubId.bind
    rintro id n ⟨small, sum⟩
    refine Yields.pure ⟨{ good with subscriptionIds := fun i hi => ?_ }, ?_⟩
    · rcases List.mem_append.mp hi with old | new
      · exact good.subscriptionIds i old
      · rwa [List.mem_singleton.mp new]
    · simp only [Props.size, List.flatMap_append, List.flatMap_singleton, List.length_append]
      omega
  · exact yields_setProperty (fun v _ => { good with userProps := good.userProps })
      fun v => by simp only [Props.size]; omega
  · exact yields_pushUser good.userProps (fun up fits => { good with userProps := fits })
      fun up => by simp only [Props.size]; omega
  · exact Yields.fail

theorem yields_parse : Yields parse fun p n => p.Fits ∧ p.image.length ≤ n := by
  have empty : Props.Fits {} := ⟨nofun, nofun, nofun, nofun, usersFit_nil⟩
  apply (yields_readProperties yields_read empty rfl).bind
  rintro props n ⟨⟨correlationData, contentType, responseTopic, ids, users⟩, -, block⟩
  refine Yields.pure ⟨⟨correlationData, contentType, responseTopic, ids, users⟩, ?_⟩
  rw [image, List.length_append,
    length_propsImage ⟨correlationData, contentType, responseTopic, ids, users⟩]
  refine Nat.le_trans (varInt_add_mono ?_) block
  have utf8 := encodedPropertySizeDefault_le props.isUtf8Payload false
  rw [propLen, foldl_subIds ids]
  simp only [Props.size]
  omega

end PublishProperties

namespace Publish

theorem yields_readPacketId (qos : QoS) :
    Yields (readPacketId qos) fun packetId n => (packetId.isSome = true ↔ qos ≠ .atMostOnce) ∧
      ((packetId.map Codec.image).getD []).length ≤ n := by
  unfold readPacketId
  split
  · rename_i zero
    exact Yields.pure ⟨by simp [zero], Nat.le_refl 0⟩
  · rename_i above
    apply Yields.map
    apply yields_decode.mono
    rintro packetId n ⟨-, size⟩
    exact ⟨by simp [above], Nat.le_of_eq size⟩

theorem yields_decode (packetFlags : UInt8) :
    Yields (decode packetFlags) fun p n => p.Fits ∧ p.normalized = p ∧ p.image.length ≤ n := by
  apply Codec.yields_decode.bind
  rintro topic _ ⟨topicFits, rfl⟩
  apply (Yields.fromOutcome _).zero_bind fun qos _ => ?_
  apply (yields_readPacketId qos).bind
  rintro packetId k ⟨some, idSize⟩
  apply PublishProperties.yields_parse.bind
  rintro properties m ⟨propsFit, propsSize⟩
  apply Yields.takeRest.bind
  rintro payload _ rfl
  refine Yields.pure ⟨⟨topicFits, some, fun p hp => ?_⟩, rfl, ?_⟩
  · cases hp
    exact propsFit
  · simp only [image, Option.getD_some, List.length_append]
    omega

end Publish

end OxiMqtt.Codec

namespace OxiMqtt.Codec.V5

open Wire Wire.Reader Wire.ByteWriter

/-! ## Acknowledgments -/

theorem length_optPropsImage (ups : UserProperties) (reasonStr : Option ByteString) :
    (optPropsImage ups reasonStr).length = encodedSize ups + encodedPropertySize reasonStr := by
  rw [optPropsImage, List.length_append, length_usersImage, length_propImage]

theorem diagFit_nil : DiagFit [] none := ⟨usersFit_nil, nofun⟩

/-- What the properties take when they are written. -/
def AckProps.size (acc : AckProps) : Nat :=
  encodedSize acc.userProps + encodedPropertySize acc.reasonString

theorem AckProps.yields_read (acc : AckProps) (tag : UInt8)
    (good : DiagFit acc.userProps acc.reasonString) :
    Yields (acc.read tag) fun acc' n =>
      DiagFit acc'.userProps acc'.reasonString ∧ acc'.size ≤ acc.size + (1 + n) := by
  unfold AckProps.read
  split
  · exact yields_setProperty (fun v fits => ⟨good.1, fits⟩)
      fun v => by simp only [AckProps.size]; omega
  · exact yields_pushUser good.1 (fun up fits => ⟨fits, good.2⟩)
      fun up => by simp only [AckProps.size]; omega
  · exact Yields.fail

theorem yields_ackPropsDecode :
    Yields ackPropsDecode fun props n =>
      DiagFit props.1 props.2 ∧ (ackPropsImage props.1 props.2).length ≤ n := by
  apply (yields_readProperties AckProps.yields_read diagFit_nil rfl).bind
  rintro props n ⟨fits, -, block⟩
  refine Yields.pure ⟨fits, ?_⟩
  rw [ackPropsImage, List.length_append, length_optPropsImage]
  exact block

namespace PublishAckOf

variable {ρ : Type} [PrimEnum ρ]

/-- An acknowledgment may leave out the reason and the properties; then it is written with them,
in four bytes. -/
theorem yields_decode (success : ρ) :
    Yields (decode success) fun p n => p.Fits ∧ p.image.length ≤ max n 4 := by
  have short : ∀ (packetId : NonZeroU16) (reasonCode : ρ) (n : Nat),
      Fits ⟨packetId, reasonCode, [], none⟩ ∧
        (image ⟨packetId, reasonCode, [], none⟩).length ≤ max n 4 := fun packetId reasonCode n =>
    ⟨diagFit_nil, Nat.le_max_right n 4⟩
  apply Codec.yields_decode.bind
  rintro packetId _ ⟨-, rfl⟩
  apply Yields.ifRemaining
  · apply Yields.getU8.bind
    rintro code _ rfl
    apply (Yields.fromOutcome _).zero_bind fun reasonCode _ => ?_
    apply Yields.ifRemaining
    · apply yields_ackPropsDecode.bind
      rintro props n ⟨fits, size⟩
      apply (Yields.ensureConsumed _).zero_bind fun _ _ => ?_
      refine Yields.pure ⟨fits, ?_⟩
      have header : (Codec.image packetId).length = 2 := rfl
      simp only [image, List.length_append, length_be16, List.length_singleton]
      omega
    · exact Yields.pure (short packetId reasonCode _)
  · exact Yields.pure (short packetId success _)

end PublishAckOf

theorem StatusAckOf.yields_decode {ρ : Type} [PrimEnum ρ] :
    Yields (decode : Reader DecodeError (StatusAckOf ρ)) fun p n =>
      p.Fits ∧ p.image.length ≤ n := by
  apply Codec.yields_decode.bind
  rintro packetId _ ⟨-, rfl⟩
  apply yields_ackPropsDecode.bind
  rintro props n ⟨fits, size⟩
  apply Yields.takeRest.bind
  rintro codes _ rfl
  apply (Yields.fromOutcome _).zero_bind fun status each => ?_
  refine Yields.pure ⟨fits, ?_⟩
  have header : (Codec.image packetId).length = 2 := rfl
  rw [length_image, length_of_forEach each]
  dsimp only
  omega

/-! ## SUBSCRIBE and UNSUBSCRIBE -/

instance : ExactDecode SubscriptionOptions where
  yields := by
    apply (Yields.ensureRemaining 1 _).zero_bind fun _ _ => ?_
    apply Yields.getU8.bind
    rintro val _ rfl
    apply (Yields.fromOutcome _).zero_bind fun qos _ => ?_
    exact (Yields.fromOutcome _).zero_bind fun retainHandling _ => Yields.pure ⟨trivial, rfl⟩

namespace Subscribe

/-- What the properties take when they are written. -/
def Props.size (acc : Props) : Nat :=
  ((acc.subId.map subIdImage).getD []).length + Codec.encodedSize acc.userProperties

/-- The properties are within their wire limits. -/
structure Props.Fits (acc : Props) : Prop where
  subId : ∀ id ∈ acc.subId, id.val.toNat ≤ MAX_PACKET_SIZE
  userProperties : UsersFit acc.userProperties

theorem yields_read (acc : Props) (tag : UInt8) (good : acc.Fits) :
    Yields (acc.read tag) fun acc' n => acc'.Fits ∧ acc'.size ≤ acc.size + (1 + n) := by
  unfold Props.read
  split
  · have once : Yields (readSubIdOnce acc.subId) fun v n =>
        (∀ id ∈ v, id.val.toNat ≤ MAX_PACKET_SIZE) ∧
          ((v.map subIdImage).getD []).length ≤ 1 + n := by
      apply (Yields.ensure _ _).zero_bind fun _ _ => ?_
      apply Yields.map
      apply yields_readSubId.mono
      rintro id n ⟨small, size⟩
      refine ⟨fun i hi => ?_, size⟩
      cases hi
      exact small
    apply once.bind
    rintro v n ⟨fits, size⟩
    exact Yields.pure ⟨{ good with subId := fits }, by simp only [Props.size]; omega⟩
  · exact yields_pushUser good.userProperties (fun up fits => { good with userProperties := fits })
      fun up => by simp only [Props.size]; omega
  · exact Yields.fail

theorem yields_readFilter :
    Yields readFilter fun f n => Codec.Fits f.1 ∧ (filterImage f).length ≤ n := by
  apply Codec.yields_decode.bind
  rintro topic _ ⟨fits, rfl⟩
  apply Codec.yields_decode.bind
  rintro opts _ ⟨-, rfl⟩
  refine Yields.pure ⟨fits, ?_⟩
  rw [filterImage, List.length_append]
  exact Nat.le_refl _

theorem yields_decode : Yields decode fun p n => p.Fits ∧ p.image.length ≤ n := by
  have empty : Props.Fits {} := ⟨nofun, usersFit_nil⟩
  apply Codec.yields_decode.bind
  rintro packetId _ ⟨-, rfl⟩
  apply (yields_readProperties yields_read empty rfl).bind
  rintro props n ⟨good, -, block⟩
  apply yields_readFilter.elements.bind
  rintro topicFilters m ⟨filters, size⟩
  refine Yields.pure ⟨⟨good.subId, good.userProperties, filters⟩, ?_⟩
  have header : (Codec.image packetId).length = 2 := rfl
  simp only [Props.size] at block
  simp only [image, propsImage, List.length_append, length_be16, length_usersImage]
  omega

end Subscribe

namespace Unsubscribe

theorem yields_readProp (acc : UserProperties) (tag : UInt8) (good : UsersFit acc) :
    Yields (readProp acc tag) fun acc' n =>
      UsersFit acc' ∧ Codec.encodedSize acc' ≤ Codec.encodedSize acc + (1 + n) := by
  unfold readProp
  split
  · exact yields_pushUser good (fun up fits => fits) fun up => Nat.add_comm _ _
  · exact Yields.fail

theorem yields_decode : Yields decode fun p n => p.Fits ∧ p.image.length ≤ n := by
  have filter : Yields (Decode.decode : Reader DecodeError ByteString) fun f n =>
      Codec.Fits f ∧ (Codec.image f).length ≤ n :=
    Codec.yields_decode.mono fun _ _ h => ⟨h.1, Nat.le_of_eq h.2⟩
  apply Codec.yields_decode.bind
  rintro packetId _ ⟨-, rfl⟩
  apply (yields_readProperties yields_readProp usersFit_nil rfl).bind
  rintro ups n ⟨users, -, block⟩
  apply filter.elements.bind
  rintro topicFilters m ⟨filters, size⟩
  refine Yields.pure ⟨⟨users, filters⟩, ?_⟩
  have header : (Codec.image packetId).length = 2 := rfl
  simp only [image, List.length_append, length_be16, length_usersImage]
  omega

end Unsubscribe

/-! ## CONNECT -/

namespace LastWill

/-- What the properties take when they are written. -/
def Props.size (acc : Props) : Nat :=
  encodedPropertySize acc.willDelayIntervalSec + encodedPropertySize acc.correlationData +
    encodedPropertySize acc.messageExpiryInterval + encodedPropertySize acc.contentType +
    encodedPropertySize acc.isUtf8Payload + encodedPropertySize acc.responseTopic +
    encodedSize acc.userProperties

/-- The properties are within their wire limits. -/
structure Props.Fits (acc : Props) : Prop where
  correlationData : ∀ bs ∈ acc.correlationData, Codec.Fits bs
  contentType : ∀ s ∈ acc.contentType, Codec.Fits s
  responseTopic : ∀ s ∈ acc.responseTopic, Codec.Fits s
  userProperties : UsersFit acc.userProperties

theorem yields_read (acc : Props) (tag : UInt8) (good : acc.Fits) :
    Yields (acc.read tag) fun acc' n => acc'.Fits ∧ acc'.size ≤ acc.size + (1 + n) := by
  unfold Props.read
  split
  · exact yields_setProperty (fun v _ => { good with userProperties := good.userProperties })
      fun v => by simp only [Props.size]; omega
  · exact yields_setProperty (fun v fits => { good with correlationData := fits })
      fun v => by simp only [Props.size]; omega
  · exact yields_setProperty (fun v _ => { good with userProperties := good.userProperties })
      fun v => by simp only [Props.size]; omega
  · exact yields_setProperty (fun v fits => { good with contentType := fits })
      fun v => by simp only [Props.size]; omega
  · exact yields_setProperty (fun v _ => { good with userProperties := good.userProperties })
      fun v => by simp only [Props.size]; omega
  · exact yields_setProperty (fun v fits => { good with responseTopic := fits })
      fun v => by simp only [Props.size]; omega
  · exact yields_pushUser good.userProperties (fun up fits => { good with userProperties := fits })
      fun up => by simp only [Props.size]; omega
  · exact Yields.fail

theorem yields_decode (flags : UInt8) :
    Yields (decode flags) fun w n => w.Fits ∧ w.image.length ≤ n := by
  have empty : Props.Fits {} := ⟨nofun, nofun, nofun, usersFit_nil⟩
  apply (yields_readProperties yields_read empty rfl).bind
  rintro props n ⟨good, -, block⟩
  apply Codec.yields_decode.bind
  rintro topic _ ⟨topicFits, rfl⟩
  apply Codec.yields_decode.bind
  rintro message _ ⟨messageFits, rfl⟩
  apply (Yields.fromOutcome _).zero_bind fun qos _ => ?_
  refine Yields.pure ⟨⟨topicFits, messageFits, good.correlationData, good.contentType,
    good.responseTopic, good.userProperties⟩, ?_⟩
  change (varInt props.size).length + props.size ≤ n at block
  rw [image, List.length_append, List.length_append, List.length_append, length_propsImage]
  change (varInt props.size).length + props.size + _ ≤ _
  dsimp only
  omega

end LastWill

/-- An optional part is no longer than what was read for it. -/
theorem length_map_le {α : Type} {img : α → Bytes} {v : Option α} {n : Nat}
    (h : ∀ a ∈ v, (img a).length ≤ n) : ((v.map img).getD []).length ≤ n := by
  cases v with
  | none => exact Nat.zero_le n
  | some a => exact h a rfl

namespace Connect

/-- What the properties take when they are written. -/
def Props.size (acc : Props) : Nat :=
  encodedPropertySize acc.authMethod + encodedPropertySize acc.authData +
    encodedPropertySize acc.sessionExpiryIntervalSecs +
    encodedPropertySize acc.requestProblemInfo + encodedPropertySize acc.requestResponseInfo +
    encodedPropertySize acc.receiveMax + encodedPropertySize acc.maxPacketSize +
    encodedPropertySize acc.topicAliasMax + Codec.encodedSize acc.userProperties

/-- The properties are within their wire limits. -/
structure Props.Fits (acc : Props) : Prop where
  authMethod : ∀ s ∈ acc.authMethod, Codec.Fits s
  authData : ∀ bs ∈ acc.authData, Codec.Fits bs
  userProperties : UsersFit acc.userProperties

theorem yields_read (acc : Props) (tag : UInt8) (good : acc.Fits) :
    Yields (acc.read tag) fun acc' n => acc'.Fits ∧ acc'.size ≤ acc.size + (1 + n) := by
  unfold Props.read
  split
  · exact yields_setProperty (fun v _ => { good with userProperties := good.userProperties })
      fun v => by simp only [Props.size]; omega
  · exact yields_setProperty (fun v fits => { good with authMethod := fits })
      fun v => by simp only [Props.size]; omega
  · exact yields_setProperty (fun v fits => { good with authData := fits })
      fun v => by simp only [Props.size]; omega
  · exact yields_setProperty (fun v _ => { good with userProperties := good.userProperties })
      fun v => by simp only [Props.size]; omega
  · exact yields_setProperty (fun v _ => { good with userProperties := good.userProperties })
      fun v => by simp only [Props.size]; omega
  · exact yields_setProperty (fun v _ => { good with userProperties := good.userProperties })
      fun v => by simp only [Props.size]; omega
  · exact yields_setProperty (fun v _ => { good with userProperties := good.userProperties })
      fun v => by simp only [Props.size]; omega
  · exact yields_pushUser good.userProperties (fun up fits => { good with userProperties := fits })
      fun up => by simp only [Props.size]; omega
  · exact yields_setProperty (fun v _ => { good with userProperties := good.userProperties })
      fun v => by simp only [Props.size]; omega
  · exact Yields.fail

/-- The content from its parts: the ten bytes before the properties, the properties, the client id
and the optional fields. -/
theorem length_image_le {p : Connect} {size n will user pass : Nat}
    (shorter : p.propertiesLen ≤ size) (block : (varInt size).length + size ≤ n)
    (lastWill : ((p.lastWill.map LastWill.image).getD []).length ≤ will)
    (username : ((p.username.map Codec.image).getD []).length ≤ user)
    (password : ((p.password.map Codec.image).getD []).length ≤ pass) :
    p.image.length ≤ 10 + n + (Codec.image p.clientId).length + will + user + pass := by
  have props := varInt_add_mono shorter
  simp only [image, payloadImage, List.length_append, List.length_cons, length_be16,
    length_propsImage, MQTT, List.length_nil]
  omega

theorem yields_decode :
    Yields decode fun p n => p.Fits ∧ (ByteString.isEmpty p.clientId = true → p.cleanStart = true) ∧
      p.cert = none ∧ p.image.length ≤ n := by
  have empty : Props.Fits {} := ⟨nofun, nofun, usersFit_nil⟩
  apply (Yields.ensureRemaining 10 _).zero_bind fun _ _ => ?_
  apply Yields.getU16.bind
  rintro len _ rfl
  apply (yields_protocolIs len 4 MQTT).zero_bind fun named _ => ?_
  apply (Yields.ensure _ _).zero_bind fun _ _ => ?_
  apply (Yields.advance 4).bind
  rintro _ _ rfl
  apply Yields.getU8.bind
  rintro level _ rfl
  apply (Yields.ensure _ _).zero_bind fun _ _ => ?_
  apply Yields.getU8.bind
  rintro b _ rfl
  apply (Yields.okOr _ _).zero_bind fun flags _ => ?_
  apply Yields.getU16.bind
  rintro keepAlive _ rfl
  apply (yields_readProperties yields_read empty rfl).bind
  rintro props n ⟨good, -, block⟩
  apply Codec.yields_decode.bind
  rintro clientId _ ⟨clientFits, rfl⟩
  apply (Yields.ensure _ _).zero_bind fun _ client => ?_
  apply (Yields.readIf _ (LastWill.yields_decode flags)).bind fun lastWill w will => ?_
  apply (Yields.readIf _ Codec.yields_decode).bind fun username u user => ?_
  apply (Yields.readIf _ Codec.yields_decode).bind fun password k pass => ?_
  refine Yields.pure ⟨⟨good.authMethod, good.authData, good.userProperties,
    fun w hw => (will w hw).1, clientFits, fun s hs => (user s hs).1,
    fun bs hbs => (pass bs hbs).1⟩, fun isEmpty => ?_, rfl, ?_⟩
  · rw [isEmpty] at client
    exact client
  · have willSize := length_map_le fun w hw => (will w hw).2
    have userSize := length_map_le fun s hs => Nat.le_of_eq (user s hs).2
    have passSize := length_map_le fun bs hbs => Nat.le_of_eq (pass bs hbs).2
    refine Nat.le_trans (length_image_le ?_ block willSize userSize passSize) (by dsimp only; omega)
    have sessionExpiry := encodedPropertySizeDefault_le props.sessionExpiryIntervalSecs 0
    have problemInfo := encodedPropertySizeDefault_le props.requestProblemInfo true
    have responseInfo := encodedPropertySizeDefault_le props.requestResponseInfo false
    have aliasMax := encodedPropertySizeDefault_le props.topicAliasMax 0
    simp only [propertiesLen, Props.size]
    omega

end Connect

/-! ## CONNACK, DISCONNECT and AUTH -/

/-- A packet of fixed and diagnostic properties, from its parts. -/
theorem length_diagImage_le {header fixed : Bytes} {ups : UserProperties}
    {reasonStr : Option ByteString} {size n : Nat}
    (shorter : fixed.length + (encodedSize ups + encodedPropertySize reasonStr) ≤ size)
    (block : (varInt size).length + size ≤ n) :
    (diagImage header fixed ups reasonStr).length ≤ header.length + n := by
  have props := varInt_add_mono shorter
  simp only [diagImage, List.length_append, length_optPropsImage]
  omega

namespace ConnectAck

/-- What the maximum QoS takes when it is written. -/
def maxQosSize (qos : Option QoS) : Nat := (qos.map fun _ => 2).getD 0

/-- What the properties take when they are written. -/
def Props.size (acc : Props) : Nat :=
  encodedPropertySize acc.sessionExpiryIntervalSecs + encodedPropertySize acc.receiveMax +
    maxQosSize acc.maxQos + encodedPropertySize acc.maxPacketSize +
    encodedPropertySize acc.assignedClientId + encodedPropertySize acc.retainAvailable +
    encodedPropertySize acc.wildcardSubAvail + encodedPropertySize acc.subIdsAvail +
    encodedPropertySize acc.sharedSubAvail + encodedPropertySize acc.serverKaSec +
    encodedPropertySize acc.responseInfo + encodedPropertySize acc.serverReference +
    encodedPropertySize acc.authMethod + encodedPropertySize acc.authData +
    encodedPropertySize acc.topicAliasMax +
    (Codec.encodedSize acc.userProperties + encodedPropertySize acc.reasonString)

/-- The properties are within their wire limits. -/
structure Props.Fits (acc : Props) : Prop where
  assignedClientId : ∀ s ∈ acc.assignedClientId, Codec.Fits s
  responseInfo : ∀ s ∈ acc.responseInfo, Codec.Fits s
  serverReference : ∀ s ∈ acc.serverReference, Codec.Fits s
  authMethod : ∀ s ∈ acc.authMethod, Codec.Fits s
  authData : ∀ bs ∈ acc.authData, Codec.Fits bs
  diag : DiagFit acc.userProperties acc.reasonString

theorem yields_readMaxQos (cur : Option QoS) :
    Yields (readMaxQos cur) fun v n => maxQosSize v = maxQosSize cur + (1 + n) := by
  apply (Yields.ensure _ _).zero_bind fun _ unset => ?_
  rw [Option.isNone_iff_eq_none.mp unset]
  apply (Yields.ensureRemaining 1 _).zero_bind fun _ _ => ?_
  apply Yields.getU8.bind
  rintro v _ rfl
  apply Yields.map
  apply (Yields.fromOutcome _).mono
  rintro qos _ ⟨-, rfl⟩
  rfl

theorem yields_read (acc : Props) (tag : UInt8) (good : acc.Fits) :
    Yields (acc.read tag) fun acc' n => acc'.Fits ∧ acc'.size ≤ acc.size + (1 + n) := by
  unfold Props.read
  split
  · exact yields_setProperty (fun v _ => { good with diag := good.diag })
      fun v => by simp only [Props.size]; omega
  · exact yields_setProperty (fun v _ => { good with diag := good.diag })
      fun v => by simp only [Props.size]; omega
  · apply (yields_readMaxQos _).bind
    intro v n sum
    exact Yields.pure ⟨{ good with diag := good.diag }, by simp only [Props.size]; omega⟩
  · exact yields_setProperty (fun v _ => { good with diag := good.diag })
      fun v => by simp only [Props.size]; omega
  · exact yields_setProperty (fun v _ => { good with diag := good.diag })
      fun v => by simp only [Props.size]; omega
  · exact yields_setProperty (fun v fits => { good with assignedClientId := fits })
      fun v => by simp only [Props.size]; omega
  · exact yields_setProperty (fun v _ => { good with diag := good.diag })
      fun v => by simp only [Props.size]; omega
  · exact yields_setProperty (fun v fits => { good with diag := ⟨good.diag.1, fits⟩ })
      fun v => by simp only [Props.size]; omega
  · exact yields_pushUser good.diag.1 (fun up fits => { good with diag := ⟨fits, good.diag.2⟩ })
      fun up => by simp only [Props.size]; omega
  · exact yields_setProperty (fun v _ => { good with diag := good.diag })
      fun v => by simp only [Props.size]; omega
  · exact yields_setProperty (fun v _ => { good with diag := good.diag })
      fun v => by simp only [Props.size]; omega
  · exact yields_setProperty (fun v _ => { good with diag := good.diag })
      fun v => by simp only [Props.size]; omega
  · exact yields_setProperty (fun v _ => { good with diag := good.diag })
      fun v => by simp only [Props.size]; omega
  · exact yields_setProperty (fun v fits => { good with responseInfo := fits })
      fun v => by simp only [Props.size]; omega
  · exact yields_setProperty (fun v fits => { good with serverReference := fits })
      fun v => by simp only [Props.size]; omega
  · exact yields_setProperty (fun v fits => { good with authMethod := fits })
      fun v => by simp only [Props.size]; omega
  · exact yields_setProperty (fun v fits => { good with authData := fits })
      fun v => by simp only [Props.size]; omega
  · exact Yields.fail

theorem maxQosSize_getD (v : Option QoS) :
    (if (v.getD .exactlyOnce).value < QoS.exactlyOnce.value then 1 + 1 else 0) ≤ maxQosSize v := by
  cases v with
  | none => exact Nat.le_refl 0
  | some qos => cases qos <;> decide

theorem yields_decode : Yields decode fun p n => p.Fits ∧ p.image.length ≤ n := by
  have empty : Props.Fits {} := ⟨nofun, nofun, nofun, nofun, nofun, diagFit_nil⟩
  apply (Yields.ensureRemaining 2 _).zero_bind fun _ _ => ?_
  apply Yields.getU8.bind
  rintro b _ rfl
  apply (Yields.okOr _ _).zero_bind fun flags _ => ?_
  apply Yields.getU8.bind
  rintro code _ rfl
  apply (Yields.fromOutcome _).zero_bind fun reasonCode _ => ?_
  apply (yields_readProperties yields_read empty rfl).bind
  rintro props n ⟨good, -, block⟩
  apply (Yields.ensureConsumed _).zero_bind fun _ _ => ?_
  refine Yields.pure ⟨⟨good.assignedClientId, good.responseInfo, good.serverReference,
    good.authMethod, good.authData, good.diag⟩, ?_⟩
  refine Nat.le_trans (length_diagImage_le ?_ block) (Nat.le_of_eq ?_)
  case refine_2 =>
    simp only [List.length_cons, List.length_nil]
    omega
  have receiveMax := encodedPropertySizeDefault_le props.receiveMax RECEIVE_MAX_DEFAULT
  have maxQos := maxQosSize_getD props.maxQos
  have retain := encodedPropertySizeDefault_le props.retainAvailable true
  have wildcard := encodedPropertySizeDefault_le props.wildcardSubAvail true
  have subIds := encodedPropertySizeDefault_le props.subIdsAvail true
  have shared := encodedPropertySizeDefault_le props.sharedSubAvail true
  have aliasMax := encodedPropertySizeDefault_le props.topicAliasMax 0
  rw [encodedPropertySizeDefault_eq, ← topicAliasSize] at aliasMax
  rw [length_fixedImage]
  simp only [propLen, Props.size]
  omega

end ConnectAck

namespace Disconnect

/-- What the properties take when they are written. -/
def Props.size (acc : Props) : Nat :=
  encodedPropertySize acc.sessionExpSecs + encodedPropertySize acc.serverReference +
    (Codec.encodedSize acc.userProperties + encodedPropertySize acc.reasonString)

/-- The properties are within their wire limits. -/
structure Props.Fits (acc : Props) : Prop where
  serverReference : ∀ s ∈ acc.serverReference, Codec.Fits s
  diag : DiagFit acc.userProperties acc.reasonString

theorem yields_read (acc : Props) (tag : UInt8) (good : acc.Fits) :
    Yields (acc.read tag) fun acc' n => acc'.Fits ∧ acc'.size ≤ acc.size + (1 + n) := by
  unfold Props.read
  split
  · exact yields_setProperty (fun v _ => { good with diag := good.diag })
      fun v => by simp only [Props.size]; omega
  · exact yields_setProperty (fun v fits => { good with diag := ⟨good.diag.1, fits⟩ })
      fun v => by simp only [Props.size]; omega
  · exact yields_pushUser good.diag.1 (fun up fits => { good with diag := ⟨fits, good.diag.2⟩ })
      fun up => by simp only [Props.size]; omega
  · exact yields_setProperty (fun v fits => { good with serverReference := fits })
      fun v => by simp only [Props.size]; omega
  · exact Yields.fail

/-- Without a reason or without properties the packet is written in two bytes. -/
theorem yields_decode : Yields decode fun p n => p.Fits ∧ p.image.length ≤ max n 2 := by
  have empty : Props.Fits {} := ⟨nofun, diagFit_nil⟩
  have short : ∀ (reasonCode : DisconnectReasonCode) (n : Nat),
      Disconnect.Fits { default with reasonCode } ∧
        (image { default with reasonCode }).length ≤ max n 2 := fun reasonCode n =>
    ⟨⟨nofun, diagFit_nil⟩, Nat.le_max_right n 2⟩
  apply Yields.ifRemaining
  · apply Yields.getU8.bind
    rintro code _ rfl
    apply (Yields.fromOutcome _).zero_bind fun reasonCode _ => ?_
    apply Yields.ifRemaining
    · apply (yields_readProperties yields_read empty rfl).bind
      rintro props n ⟨good, -, block⟩
      apply (Yields.ensureConsumed _).zero_bind fun _ _ => ?_
      refine Yields.pure ⟨⟨good.serverReference, good.diag⟩, ?_⟩
      refine Nat.le_trans (length_diagImage_le ?_ block) ?_
      · rw [length_fixedImage]
        exact Nat.le_refl _
      · simp only [List.length_cons, List.length_nil]
        omega
    · exact Yields.pure (short reasonCode _)
  · exact Yields.pure (short _ _)

end Disconnect

namespace Auth

/-- What the properties take when they are written. -/
def Props.size (acc : Props) : Nat :=
  encodedPropertySize acc.authMethod + encodedPropertySize acc.authData +
    (Codec.encodedSize acc.userProperties + encodedPropertySize acc.reasonString)

/-- The properties are within their wire limits. -/
structure Props.Fits (acc : Props) : Prop where
  authMethod : ∀ s ∈ acc.authMethod, Codec.Fits s
  authData : ∀ bs ∈ acc.authData, Codec.Fits bs
  diag : DiagFit acc.userProperties acc.reasonString

theorem yields_read (acc : Props) (tag : UInt8) (good : acc.Fits) :
    Yields (acc.read tag) fun acc' n => acc'.Fits ∧ acc'.size ≤ acc.size + (1 + n) := by
  unfold Props.read
  split
  · exact yields_setProperty (fun v fits => { good with authMethod := fits })
      fun v => by simp only [Props.size]; omega
  · exact yields_setProperty (fun v fits => { good with authData := fits })
      fun v => by simp only [Props.size]; omega
  · exact yields_setProperty (fun v fits => { good with diag := ⟨good.diag.1, fits⟩ })
      fun v => by simp only [Props.size]; omega
  · exact yields_pushUser good.diag.1 (fun up fits => { good with diag := ⟨fits, good.diag.2⟩ })
      fun up => by simp only [Props.size]; omega
  · exact Yields.fail

theorem yields_readBlock (present : Bool) :
    Yields (readBlock present) fun props n =>
      props.Fits ∧ (varInt props.size).length + props.size ≤ max n 1 := by
  have empty : Props.Fits {} := ⟨nofun, nofun, diagFit_nil⟩
  unfold readBlock
  split
  · apply (yields_readProperties yields_read empty rfl).bind
    rintro props n ⟨good, -, block⟩
    apply (Yields.ensureConsumed _).zero_bind fun _ _ => ?_
    exact Yields.pure ⟨good, Nat.le_trans block (Nat.le_max_left n 1)⟩
  · exact Yields.pure ⟨empty, Nat.le_refl 1⟩

/-- Without a reason or without properties the packet is written in two bytes. -/
theorem yields_decode : Yields decode fun p n => p.Fits ∧ p.image.length ≤ max n 2 := by
  have short : ∀ (reasonCode : AuthReasonCode) (n : Nat),
      Auth.Fits { default with reasonCode } ∧
        (image { default with reasonCode }).length ≤ max n 2 := fun reasonCode n =>
    ⟨⟨nofun, nofun, diagFit_nil⟩, Nat.le_max_right n 2⟩
  apply Yields.ifRemaining
  · apply Yields.getU8.bind
    rintro code _ rfl
    apply (Yields.fromOutcome _).zero_bind fun reasonCode _ => ?_
    apply Yields.ifRemaining
    · apply Yields.hasRemaining.zero_bind fun more _ => ?_
      apply (yields_readBlock _).bind
      rintro props n ⟨good, block⟩
      refine Yields.pure ⟨⟨good.authMethod, good.authData, good.diag⟩, ?_⟩
      refine Nat.le_trans (length_diagImage_le ?_ block) ?_
      · rw [length_fixedImage]
        exact Nat.le_refl _
      · simp only [List.length_cons, List.length_nil]
        omega
    · exact Yields.pure (short reasonCode _)
  · exact Yields.pure (short _ _)

end Auth

/-! ## Packets -/

namespace Packet

/-- What is known of a packet that was read from a content of `n` bytes. -/
structure ReadFrom (p : Packet) (n : Nat) : Prop where
  fits : p.Fits
  acceptable : p.Acceptable
  normal : p.normalized = p
  small : p.content.length ≤ max n 4

end Packet

/-- Every packet that is read is within the wire limits, acceptable, and no longer than it was,
the short forms of up to four bytes apart. -/
theorem yields_decodePacket (firstByte : UInt8) :
    Yields (decodePacket firstByte) Packet.ReadFrom := by
  have longer : ∀ {k n : Nat}, k ≤ n → k ≤ max n 4 := fun h => by omega
  have ack : ∀ {ρ : Type} [PrimEnum ρ] (success : ρ) (kind : PublishAckOf ρ → Packet),
      (∀ p : PublishAckOf ρ, p.Fits → ∀ n, p.image.length ≤ max n 4 → (kind p).ReadFrom n) →
      Yields (kind <$> PublishAckOf.decode success) Packet.ReadFrom := fun success kind h =>
    Yields.map ((PublishAckOf.yields_decode success).mono fun p n read => h p read.1 n read.2)
  unfold decodePacket
  split
  · exact Yields.map ((Publish.yields_decode _).mono fun p n read =>
      ⟨read.1, trivial, congrArg Packet.publish read.2.1, longer read.2.2⟩)
  · split
    · exact ack _ _ fun p fits n size => ⟨fits, trivial, rfl, size⟩
    · exact Yields.pure ⟨trivial, trivial, rfl, Nat.zero_le _⟩
    · exact Yields.pure ⟨trivial, trivial, rfl, Nat.zero_le _⟩
    · exact Yields.map (Subscribe.yields_decode.mono fun p n read =>
        ⟨read.1, trivial, rfl, longer read.2⟩)
    · exact Yields.map (StatusAckOf.yields_decode.mono fun p n read =>
        ⟨read.1, trivial, rfl, longer read.2⟩)
    · exact Yields.map (Unsubscribe.yields_decode.mono fun p n read =>
        ⟨read.1, trivial, rfl, longer read.2⟩)
    · exact Yields.map (StatusAckOf.yields_decode.mono fun p n read =>
        ⟨read.1, trivial, rfl, longer read.2⟩)
    · exact Yields.map (Connect.yields_decode.mono fun p n read =>
        ⟨read.1, ⟨read.2.1, read.2.2.1⟩, rfl, longer read.2.2.2⟩)
    · exact Yields.map (ConnectAck.yields_decode.mono fun p n read =>
        ⟨read.1, trivial, rfl, longer read.2⟩)
    · exact Yields.map (Disconnect.yields_decode.mono fun p n read =>
        ⟨read.1, trivial, rfl, Nat.le_trans read.2 (by omega)⟩)
    · exact Yields.map (Auth.yields_decode.mono fun p n read =>
        ⟨read.1, trivial, rfl, Nat.le_trans read.2 (by omega)⟩)
    · exact ack _ _ fun p fits n size => ⟨fits, trivial, rfl, size⟩
    · exact ack _ _ fun p fits n size => ⟨fits, trivial, rfl, size⟩
    · exact ack _ _ fun p fits n size => ⟨fits, trivial, rfl, size⟩
    · exact Yields.fail

end OxiMqtt.Codec.V5

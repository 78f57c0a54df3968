import OxiMqtt.Codec.V5.Publish

/-!
# MQTT 5 SUBSCRIBE and UNSUBSCRIBE

The requests of `codec/v5/packet/subscribe.rs`: a packet id, a property block, and
a list of topic filters that fills the rest of the packet.
-/

namespace OxiMqtt.Codec.V5

open Wire Wire.Reader Wire.ByteWriter

/-- `RetainHandling` -/
inductive RetainHandling : Type
  | atSubscribe
  | atSubscribeNew
  | noAtSubscribe
  deriving DecidableEq, Repr

instance : PrimEnum RetainHandling where
  table := [(0, .atSubscribe), (1, .atSubscribeNew), (2, .noAtSubscribe)]
  toU8
    | .atSubscribe => 0
    | .atSubscribeNew => 1
    | .noAtSubscribe => 2
  lookup_toU8 := by intro r; cases r <;> rfl


/-- `SubscriptionOptions` -/
structure SubscriptionOptions : Type where
  qos : QoS
  noLocal : Bool
  retainAsPublished : Bool
  retainHandling : RetainHandling
  deriving DecidableEq, Repr

namespace SubscriptionOptions

/-- The options byte. -/
def toByte (opts : SubscriptionOptions) : UInt8 :=
  toU8 opts.qos ||| (boolU8 opts.noLocal <<< 2) ||| (boolU8 opts.retainAsPublished <<< 3) |||
    (toU8 opts.retainHandling <<< 4)

instance : Decode SubscriptionOptions where
  decode := do
    ensureRemaining 1 .invalidLength
    let val ← getU8
    let qos ← fromOutcome (PrimEnum.tryFrom (val &&& 0b11))
    let retainHandling ← fromOutcome (PrimEnum.tryFrom ((val &&& 0b110000) >>> 4))
    return {
      qos
      noLocal := val &&& 0b100 != 0
      retainAsPublished := val &&& 0b1000 != 0
      retainHandling }

instance : Encode SubscriptionOptions where
  encodedSize _ := 1
  encode opts := putU8 opts.toByte

/-- What the decoder reads from the options byte. -/
theorem toByte_bits (opts : SubscriptionOptions) :
    PrimEnum.tryFrom (opts.toByte &&& 0b11) = (.ok opts.qos : Outcome DecodeError QoS) ∧
      PrimEnum.tryFrom ((opts.toByte &&& 0b110000) >>> 4) =
        (.ok opts.retainHandling : Outcome DecodeError RetainHandling) ∧
      (opts.toByte &&& 0b100 != 0) = opts.noLocal ∧
      (opts.toByte &&& 0b1000 != 0) = opts.retainAsPublished := by
  obtain ⟨qos, noLocal, retainAsPublished, retainHandling⟩ := opts
  cases qos <;> cases noLocal <;> cases retainAsPublished <;> cases retainHandling <;>
    exact ⟨rfl, rfl, rfl, rfl⟩

instance : WireType SubscriptionOptions where
  image opts := [opts.toByte]
  Fits _ := True
  length_image _ := rfl
  writes opts _ := Writes.putU8 _
  decodes opts _ := by
    obtain ⟨qos, retainHandling, noLocal, retainAsPublished⟩ := opts.toByte_bits
    refine Decodes.ensureRemaining (Nat.le_refl 1) ((Decodes.getU8 _).bind_last ?_)
    refine (Decodes.fromOutcome qos).bind_nil ((Decodes.fromOutcome retainHandling).bind_nil ?_)
    rw [noLocal, retainAsPublished]
    exact Decodes.pure opts
  safe := (Safe.ensureRemaining 1 _).zero_bind fun _ => (Safe.getU8 0).bind_zero fun _ =>
    (safe_tryFrom _ 0).zero_bind fun _ => (safe_tryFrom _ 0).zero_bind fun _ => Safe.pure _ 0

end SubscriptionOptions

/-! ## SUBSCRIBE -/

/-- `Subscribe` -/
structure Subscribe : Type where
  packetId : NonZeroU16
  id : Option NonZeroU32
  userProperties : UserProperties
  topicFilters : List (ByteString × SubscriptionOptions)
  deriving DecidableEq, Repr

namespace Subscribe

/-- The properties collected by `Subscribe::decode`. -/
structure Props : Type where
  subId : Option NonZeroU32 := none
  userProperties : UserProperties := []

/-- The subscription identifier, which may be set once. -/
def readSubIdOnce (cur : Option NonZeroU32) : Reader DecodeError (Option NonZeroU32) := do
  ensure cur.isNone .malformedPacket
  some <$> readSubId

/-- The dispatch of `Subscribe::decode` on the property type. -/
def Props.read (acc : Props) : UInt8 → Reader DecodeError Props
  | pt.SUB_ID => do return { acc with subId := ← readSubIdOnce acc.subId }
  | pt.USER => do return { acc with userProperties := acc.userProperties ++ [← decode] }
  | _ => fail .malformedPacket

/-- One topic filter with its options. -/
def readFilter : Reader DecodeError (ByteString × SubscriptionOptions) := do
  let topic : ByteString ← Codec.decode
  let opts : SubscriptionOptions ← Codec.decode
  return (topic, opts)

/-- `Subscribe::decode` -/
def decode : Reader DecodeError Subscribe := do
  let packetId : NonZeroU16 ← Codec.decode
  let props ← readProperties Props.read {}
  let topicFilters ← whileRemaining (fun acc => do return acc ++ [← readFilter]) []
  return { packetId, id := props.subId, userProperties := props.userProperties, topicFilters }

/-- The property length in `encoded_size`. -/
def propLen (p : Subscribe) : Nat :=
  (p.id.map fun v => 1 + varIntLen v.val.toNat).getD 0 + Codec.encodedSize p.userProperties

/-- `encoded_size`; the limit is not used. -/
def encodedSize (p : Subscribe) (_limit : Nat) : Nat :=
  let payloadLen := p.topicFilters.foldl (fun acc f => acc + (Codec.encodedSize f.1 + 1)) 0
  Codec.encodedSize p.packetId + varIntLen p.propLen + p.propLen + payloadLen

/-- `encode`; the size is not used. -/
def encode (p : Subscribe) (_size : Nat) : ByteWriter EncodeError Unit := do
  Codec.encode p.packetId
  let propLen := (p.id.map fun v => 1 + varIntLen v.val.toNat).getD 0 +
    Codec.encodedSize p.userProperties % 2 ^ 32
  writeVariableLength propLen
  forSome p.id fun id => do
    putU8 pt.SUB_ID
    writeVariableLength id.val.toNat
  Codec.encode p.userProperties
  ByteWriter.forEach (fun f => do Codec.encode f.1; Codec.encode f.2) p.topicFilters

/-- The fields are within their wire limits. -/
structure Fits (p : Subscribe) : Prop where
  id : ∀ id ∈ p.id, id.val.toNat ≤ MAX_PACKET_SIZE
  userProperties : UsersFit p.userProperties
  topicFilters : ∀ f ∈ p.topicFilters, Codec.Fits f.1

/-- The bytes of the properties. -/
def propsImage (p : Subscribe) : Bytes :=
  (p.id.map subIdImage).getD [] ++ usersImage p.userProperties

/-- The bytes of one topic filter with its options. -/
def filterImage (f : ByteString × SubscriptionOptions) : Bytes := Codec.image f.1 ++ Codec.image f.2

/-- The bytes of the content. -/
def image (p : Subscribe) : Bytes :=
  be16 p.packetId.val ++ ((varInt p.propsImage.length ++ p.propsImage) ++
    p.topicFilters.flatMap filterImage)

theorem length_subId {id : Option NonZeroU32} (fits : ∀ i ∈ id, i.val.toNat ≤ MAX_PACKET_SIZE) :
    ((id.map subIdImage).getD []).length = (id.map fun v => 1 + varIntLen v.val.toNat).getD 0 := by
  cases id with
  | none => rfl
  | some i =>
      simp only [Option.map_some, Option.getD_some, subIdImage, List.length_cons]
      rw [varIntLen_eq (fits i rfl), Nat.add_comm]

theorem length_propsImage {p : Subscribe} (fits : p.Fits) : p.propsImage.length = p.propLen := by
  rw [propsImage, List.length_append, length_subId fits.id, length_usersImage, propLen]

theorem length_filters (fs : List (ByteString × SubscriptionOptions)) :
    fs.foldl (fun acc f => acc + (Codec.encodedSize f.1 + 1)) 0 =
      (fs.flatMap filterImage).length := by
  have each : ∀ f, (filterImage f).length = Codec.encodedSize f.1 + 1 := by
    intro f
    rw [filterImage, List.length_append, WireType.length_image]
    rfl
  rw [foldl_size fs each, Nat.zero_add]

/-- The size pass measures the bytes, if either of the two is small. -/
theorem encodedSize_eq {p : Subscribe} {limit : Nat} (fits : p.Fits)
    (small : p.encodedSize limit ≤ MAX_PACKET_SIZE ∨ p.image.length ≤ MAX_PACKET_SIZE) :
    p.encodedSize limit = p.image.length := by
  unfold encodedSize at small ⊢
  dsimp only at small ⊢
  simp only [image, List.length_append, length_propsImage fits, length_be16] at small ⊢
  rw [length_filters, varIntLen_eq (by omega)]
  change 2 + _ + _ + _ = _
  omega

theorem writes {p : Subscribe} {limit : Nat} (fits : p.Fits)
    (small : p.encodedSize limit ≤ MAX_PACKET_SIZE) :
    Writes (p.encode (p.encodedSize limit)) p.image := by
  have bound : p.propLen ≤ MAX_PACKET_SIZE := by
    unfold encodedSize at small
    dsimp only at small
    omega
  have users : Codec.encodedSize p.userProperties % 2 ^ 32 = Codec.encodedSize p.userProperties := by
    unfold propLen MAX_PACKET_SIZE at bound
    exact Nat.mod_eq_of_lt (by omega)
  have order : p.image = be16 p.packetId.val ++ (varInt p.propLen ++
      ((p.id.map subIdImage).getD [] ++ (usersImage p.userProperties ++
        p.topicFilters.flatMap filterImage))) := by
    rw [image, length_propsImage fits]
    simp only [propsImage, List.append_assoc]
  rw [order, encode, users]
  refine (Writes.putU16 _).bind ?_
  refine (writes_writeVariableLength bound).bind ?_
  refine Writes.bind (Writes.forSome fun id hid => writes_subId (fits.id id hid)) ?_
  refine (writes_users fits.userProperties).bind ?_
  exact Writes.forEach _ fun f hf =>
    (WireType.writes f.1 (fits.topicFilters f hf)).bind (WireType.writes f.2 trivial)

theorem feeds_props {p : Subscribe} (fits : p.Fits) :
    FeedsProps Props.read {} p.propsImage ⟨p.id, p.userProperties⟩ := by
  have subId : FeedsProps Props.read {} ((p.id.map subIdImage).getD []) { subId := p.id } := by
    cases hid : p.id with
    | none => exact Feeds.refl _ _
    | some id =>
        refine Feeds.of_decodes ?_ (List.cons_ne_nil _ _)
        refine Decodes.bind (Decodes.getU8 pt.SUB_ID) ?_
        refine Decodes.bind_last ?_ (Decodes.pure _)
        exact (Decodes.ensure rfl).bind_nil (decodes_readSubId (fits.id id hid)).map
  exact subId.trans (feeds_users (fun (acc : Props) us => { acc with userProperties := us })
    (fun _ => rfl) rfl fits.userProperties)

theorem decode_image {p : Subscribe} (fits : p.Fits) (small : p.image.length ≤ MAX_PACKET_SIZE) :
    DecodesAll decode p.image p := by
  have block : p.propsImage.length ≤ MAX_PACKET_SIZE := by
    simp only [image, List.length_append] at small
    omega
  have filters : Feeds (fun acc => readFilter >>= fun f => pure (acc ++ [f])) []
      (p.topicFilters.flatMap filterImage) p.topicFilters :=
    feeds_elements (fun f hf => (WireType.decodes f.1 (fits.topicFilters f hf)).bind
        ((WireType.decodes f.2 trivial).bind_last (Decodes.pure _)))
      fun f _ => List.append_ne_nil_of_left_ne_nil (image_ne_nil f.1) _
  refine DecodesAll.bind (WireType.decodes p.packetId trivial) ?_
  refine DecodesAll.bind (decodes_readProperties (feeds_props fits) block) ?_
  exact DecodesAll.bind_all filters.decodesAll (DecodesAll.pure p)

theorem safe_read (acc : Props) (tag : UInt8) : Safe 0 (acc.read tag) 0 0 := by
  unfold Props.read
  split
  · exact Safe.zero_bind ((Safe.ensure _ _ 0).zero_bind fun _ => safe_readSubId.map) fun _ =>
      Safe.pure _ 0
  · exact safe_decode.bind_zero fun _ => Safe.pure _ 0
  · exact Safe.fail _ 0 0 0

theorem safe_readFilter : Safe 0 readFilter 0 1 :=
  (WireType.safe : Safe 0 (Codec.decode : Reader DecodeError ByteString) 0 1).bind_zero fun _ =>
    (safe_decode : Safe 0 (Codec.decode : Reader DecodeError SubscriptionOptions) 0 0).zero_bind
      fun _ => Safe.pure _ 0

theorem safe : Safe 0 decode 0 0 := by
  refine safe_decode.zero_bind fun packetId => ?_
  refine (safe_readProperties safe_read _).zero_bind fun props => ?_
  have each : ∀ acc, Safe 1 (readFilter >>= fun f => pure (acc ++ [f])) 0 (0 + 1) := fun acc =>
    (safe_readFilter.mono (Nat.zero_le 1) (Nat.le_refl 0) (Nat.le_refl _)).bind_zero fun _ =>
      Safe.pure _ 0
  exact Safe.zero_bind (Safe.whileRemaining each []) fun _ => Safe.pure _ 0

end Subscribe

/-! ## UNSUBSCRIBE -/

/-- `Unsubscribe` -/
structure Unsubscribe : Type where
  packetId : NonZeroU16
  userProperties : UserProperties
  topicFilters : List ByteString
  deriving DecidableEq, Repr

namespace Unsubscribe

/-- The dispatch of `Unsubscribe::decode` on the property type. -/
def readProp (acc : UserProperties) : UInt8 → Reader DecodeError UserProperties
  | pt.USER => do return acc ++ [← decode]
  | _ => fail .malformedPacket

/-- `Unsubscribe::decode` -/
def decode : Reader DecodeError Unsubscribe := do
  let packetId : NonZeroU16 ← Codec.decode
  let userProperties ← readProperties readProp []
  let topicFilters : List ByteString ←
    whileRemaining (fun acc => do return acc ++ [← Codec.decode]) []
  return { packetId, userProperties, topicFilters }

/-- `encoded_size`; the limit is not used. -/
def encodedSize (p : Unsubscribe) (_limit : Nat) : Nat :=
  let propLen := Codec.encodedSize p.userProperties
  2 + varIntLen propLen + propLen +
    p.topicFilters.foldl (fun acc filter => acc + (2 + ByteString.len filter)) 0

/-- `encode`; the size is not used. -/
def encode (p : Unsubscribe) (_size : Nat) : ByteWriter EncodeError Unit := do
  Codec.encode p.packetId
  writeVariableLength (Codec.encodedSize p.userProperties % 2 ^ 32)
  Codec.encode p.userProperties
  ByteWriter.forEach (fun filter => Codec.encode filter) p.topicFilters

/-- The fields are within their wire limits. -/
structure Fits (p : Unsubscribe) : Prop where
  userProperties : UsersFit p.userProperties
  topicFilters : ∀ f ∈ p.topicFilters, Codec.Fits f

/-- The bytes of the content. -/
def image (p : Unsubscribe) : Bytes :=
  be16 p.packetId.val ++
    ((varInt (usersImage p.userProperties).length ++ usersImage p.userProperties) ++
      p.topicFilters.flatMap Codec.image)

theorem length_filters (fs : List ByteString) :
    fs.foldl (fun acc filter => acc + (2 + ByteString.len filter)) 0 =
      (fs.flatMap Codec.image).length := by
  have each : ∀ f : ByteString, (Codec.image f).length = 2 + ByteString.len f := fun f =>
    WireType.length_image f
  rw [foldl_size fs each, Nat.zero_add]

/-- The size pass measures the bytes, if either of the two is small. -/
theorem encodedSize_eq {p : Unsubscribe} {limit : Nat}
    (small : p.encodedSize limit ≤ MAX_PACKET_SIZE ∨ p.image.length ≤ MAX_PACKET_SIZE) :
    p.encodedSize limit = p.image.length := by
  unfold encodedSize at small ⊢
  dsimp only at small ⊢
  simp only [image, List.length_append, length_usersImage, length_be16] at small ⊢
  rw [length_filters, varIntLen_eq (by omega)]
  omega

theorem writes {p : Unsubscribe} {limit : Nat} (fits : p.Fits)
    (small : p.encodedSize limit ≤ MAX_PACKET_SIZE) :
    Writes (p.encode (p.encodedSize limit)) p.image := by
  have bound : Codec.encodedSize p.userProperties ≤ MAX_PACKET_SIZE := by
    unfold encodedSize at small
    dsimp only at small
    omega
  have users : Codec.encodedSize p.userProperties % 2 ^ 32 =
      (usersImage p.userProperties).length := by
    rw [length_usersImage]
    exact Nat.mod_eq_of_lt (by unfold MAX_PACKET_SIZE at bound; omega)
  have order : p.image = be16 p.packetId.val ++ (varInt (usersImage p.userProperties).length ++
      (usersImage p.userProperties ++ p.topicFilters.flatMap Codec.image)) := by
    simp only [image, List.append_assoc]
  rw [order, encode, users]
  refine (Writes.putU16 _).bind ?_
  refine (writes_writeVariableLength (length_usersImage p.userProperties ▸ bound)).bind ?_
  refine (writes_users fits.userProperties).bind ?_
  exact Writes.forEach _ fun f hf => WireType.writes f (fits.topicFilters f hf)

theorem decode_image {p : Unsubscribe} (fits : p.Fits) (small : p.image.length ≤ MAX_PACKET_SIZE) :
    DecodesAll decode p.image p := by
  have block : (usersImage p.userProperties).length ≤ MAX_PACKET_SIZE := by
    simp only [image, List.length_append] at small
    omega
  have props : FeedsProps readProp [] (usersImage p.userProperties) p.userProperties :=
    feeds_users (fun _ us => us) (fun _ => rfl) rfl fits.userProperties
  have filters : Feeds (fun acc => (Codec.decode : Reader DecodeError ByteString) >>=
      fun f => pure (acc ++ [f])) [] (p.topicFilters.flatMap Codec.image) p.topicFilters :=
    feeds_elements (fun f hf => WireType.decodes f (fits.topicFilters f hf))
      fun f _ => image_ne_nil f
  refine DecodesAll.bind (WireType.decodes p.packetId trivial) ?_
  refine DecodesAll.bind (decodes_readProperties props block) ?_
  exact DecodesAll.bind_all filters.decodesAll (DecodesAll.pure p)

theorem safe_readProp (acc : UserProperties) (tag : UInt8) : Safe 0 (readProp acc tag) 0 0 := by
  unfold readProp
  split
  · exact safe_decode.bind_zero fun _ => Safe.pure _ 0
  · exact Safe.fail _ 0 0 0

theorem safe : Safe 0 decode 0 0 := by
  refine safe_decode.zero_bind fun packetId => ?_
  refine (safe_readProperties safe_readProp _).zero_bind fun props => ?_
  have filter : Safe 0 (Codec.decode : Reader DecodeError ByteString) 0 1 := WireType.safe
  have each : ∀ acc, Safe 1 ((Codec.decode : Reader DecodeError ByteString) >>=
      fun f => pure (acc ++ [f])) 0 (0 + 1) := fun acc =>
    (filter.mono (Nat.zero_le 1) (Nat.le_refl 0) (Nat.le_refl _)).bind_zero fun _ => Safe.pure _ 0
  exact Safe.zero_bind (Safe.whileRemaining each []) fun _ => Safe.pure _ 0

end Unsubscribe

end OxiMqtt.Codec.V5

import OxiMqtt.Codec.V5.Packet

/-!
# The two passes of the MQTT 5 encoder agree on sizes

For every packet, also one with fields that are too long for the wire: if the encode pass, given
the size that the size pass has found, succeeds, then it has appended as many bytes as that, and
whether it succeeds or not, none of its subtractions goes below zero (`Emits`).  A field that is
too long makes the encode pass fail before it would be miscounted, unless it is cut.
-/

namespace OxiMqtt.Codec

open Wire Wire.ByteWriter

/-! ## Single values -/

/-- A type whose encoder, if it succeeds, appends what is counted for the value. -/
class Measured (α : Type) [Encode α] : Prop where
  emits : ∀ a : α, Emits (encode a) (encodedSize a)

instance : Measured Bool where
  emits _ := Emits.putU8 _

instance : Measured UInt16 where
  emits n := Emits.putU16 n

instance : Measured NonZeroU16 where
  emits n := Emits.putU16 n.val

instance : Measured UInt32 where
  emits n := Emits.putU32 n

instance : Measured NonZeroU32 where
  emits n := Emits.putU32 n.val

instance : Measured Bytes where
  emits bs := by
    change Emits (if bs.length < 65536 then _ else _) (2 + bs.length)
    split
    · exact (Emits.putU16 _).bind (Emits.putSlice bs)
    · exact Emits.fail _ _

instance : Measured ByteString where
  emits s := Measured.emits (ByteString.asBytes s)

instance : Measured UserProperty where
  emits p := (Measured.emits p.1).bind (Measured.emits p.2)

/-- A length that can be written takes the bytes that are counted for it; another one is an
assertion that fails. -/
theorem emits_writeVariableLength (n : Nat) : Emits (writeVariableLength n) (varIntLen n) := by
  rcases Nat.lt_or_ge MAX_PACKET_SIZE n with large | small
  · rw [writeVariableLength_of_large large]
    exact Emits.crash (by decide) _
  · rw [varIntLen_eq small]
    exact (writes_writeVariableLength small).emits

/-- `var_int_len_from_size` in the terms of the size pass. -/
theorem varIntLenFromSize_of_small {n : Nat} (small : n ≤ MAX_PACKET_SIZE) :
    varIntLenFromSize (varIntLen n + n) = pure n := by
  rw [varIntLen_eq small]
  exact varIntLenFromSize_eq small

namespace V5

/-! ## Properties -/

section Property

variable {α : Type} [Encode α] [Measured α]

theorem emits_encodeProperty (v : Option α) (propType : UInt8) :
    Emits (encodeProperty v propType) (encodedPropertySize v) := by
  cases v with
  | none => exact Emits.pure
  | some a => exact (Emits.putU8 _).bind (Measured.emits a)

theorem emits_encodePropertyDefault [DecidableEq α] (v dflt : α) (propType : UInt8) :
    Emits (encodePropertyDefault v dflt propType) (encodedPropertySizeDefault v dflt) := by
  rw [encodePropertyDefault_eq, encodedPropertySizeDefault_eq]
  exact emits_encodeProperty _ propType

end Property

theorem emits_user (up : UserProperty) :
    Emits (do putU8 pt.USER; encode up) (1 + encodedSize up) :=
  (Emits.putU8 _).bind (Measured.emits up)

instance : Measured UserProperties where
  emits ups := Emits.forEach ups emits_user

/-- The encode pass, given exactly the size of what is kept, stops where the size pass has
stopped. -/
theorem emits_encodeOptProps (ups : UserProperties) (reasonStr : Option ByteString) (limit : Nat) :
    Emits (encodeOptProps ups reasonStr (encodedSizeOptProps ups reasonStr limit))
      (encodedSizeOptProps ups reasonStr limit) := by
  induction ups generalizing limit with
  | nil =>
      cases reasonStr with
      | none => exact Emits.pure
      | some reason =>
          have size : ByteString.len reason < 1 + encodedSize reason :=
            show ByteString.len reason < 1 + (2 + ByteString.len reason) by omega
          rw [encodedSizeOptProps, encodedSizeOptPropsLoop]
          split
          · rw [Nat.zero_add, encodeOptProps, if_pos size]
            exact (Emits.putU8 _).bind (Measured.emits reason)
          · exact Emits.pure
  | cons up ups ih =>
      rcases Nat.lt_or_ge limit (1 + encodedSize up) with above | within
      · rw [encodedSizeOptProps_cons_of_lt above, encodeOptProps_zero]
        exact Emits.pure
      · have pair : 1 + encodedSize up.1 + encodedSize up.2 = 1 + encodedSize up :=
          Nat.add_assoc _ _ _
        rw [encodedSizeOptProps_cons_of_le within, encodeOptProps]
        simp only [pair, Nat.add_sub_cancel_left]
        rw [if_neg (by omega)]
        exact ((Emits.putU8 _).bind ((Measured.emits up).bind (ih _))).congr (by omega)

/-- The part of a packet before the properties that may be cut, which announces their length. -/
theorem emits_beforeDiag {headerLen propLen diagLen : Nat}
    {header fixed : ByteWriter EncodeError Unit} (hheader : Emits header headerLen)
    (hfixed : Emits fixed propLen) (small : propLen + diagLen ≤ MAX_PACKET_SIZE) :
    Emits
      (do
        header
        let propSize ←
          checkedSub (headerLen + varIntLen (propLen + diagLen) + (propLen + diagLen)) headerLen
        let announced ← varIntLenFromSize propSize
        writeVariableLength announced
        fixed)
      (headerLen + (varIntLen (propLen + diagLen) + propLen)) := by
  refine hheader.bind (Emits.bind_checkedSub (Nat.add_assoc _ _ _) ?_)
  rw [varIntLenFromSize_of_small small]
  exact (emits_writeVariableLength _).bind hfixed

/-- A packet of a header, fixed properties and properties that may be cut. -/
theorem emits_encodeWithDiag {headerLen propLen limit : Nat}
    {header fixed : ByteWriter EncodeError Unit} {ups : UserProperties}
    {reasonStr : Option ByteString} (hheader : Emits header headerLen) (hfixed : Emits fixed propLen)
    (small : sizeWithDiag headerLen propLen ups reasonStr limit ≤ MAX_PACKET_SIZE) :
    Emits (encodeWithDiag headerLen header fixed ups reasonStr
        (sizeWithDiag headerLen propLen ups reasonStr limit))
      (sizeWithDiag headerLen propLen ups reasonStr limit) := by
  have diag := emits_encodeOptProps ups reasonStr (reduceLimit limit (headerLen + 4 + propLen))
  unfold sizeWithDiag at small ⊢
  dsimp only at small ⊢
  generalize encodedSizeOptProps ups reasonStr (reduceLimit limit (headerLen + 4 + propLen)) =
    diagLen at small diag ⊢
  have props : propLen + diagLen ≤ MAX_PACKET_SIZE := by omega
  exact (Emits.counted (emits_beforeDiag hheader hfixed props)
    (Emits.bind_checkedSub (by omega) diag)).congr (by omega)

theorem emits_ackPropsEncode {ups : UserProperties} {reasonStr : Option ByteString} {limit : Nat}
    (small : ackPropsEncodedSize ups reasonStr limit ≤ MAX_PACKET_SIZE) :
    Emits (ackPropsEncode ups reasonStr (ackPropsEncodedSize ups reasonStr limit))
      (ackPropsEncodedSize ups reasonStr limit) := by
  unfold ackPropsEncodedSize at small ⊢
  by_cases low : limit < 4
  · rw [if_pos low]
    exact Emits.putU8 0
  · rw [if_neg low] at small ⊢
    dsimp only at small ⊢
    have diag := emits_encodeOptProps ups reasonStr (limit - 4)
    generalize encodedSizeOptProps ups reasonStr (limit - 4) = len at small diag ⊢
    have bound : len ≤ MAX_PACKET_SIZE := by omega
    have pos := length_varInt_pos len
    rw [← varIntLen_eq bound] at pos
    unfold ackPropsEncode
    rw [if_neg (by omega)]
    by_cases one : varIntLen len + len = 1
    · rw [if_pos one, one]
      exact Emits.putU8 0
    · rw [if_neg one, varIntLenFromSize_of_small bound]
      exact (emits_writeVariableLength len).bind diag

/-! ## Acknowledgments -/

theorem PublishAckOf.emits {ρ : Type} [PrimEnum ρ] {p : PublishAckOf ρ} {limit n : Nat}
    (h : p.encodedSize limit = .ok n) (small : n ≤ MAX_PACKET_SIZE) : Emits (p.encode n) n := by
  have size := encodedSize_eq_ok h
  refine ((Emits.putU16 _).bind ((Emits.putU8 _).bind
    (Emits.bind_checkedSub size (emits_ackPropsEncode (by omega))))).congr (by omega)

theorem StatusAckOf.emits {ρ : Type} [PrimEnum ρ] {p : StatusAckOf ρ} {limit : Nat}
    (small : 2 + ackPropsEncodedSize p.properties p.reasonString limit + p.status.length ≤
      MAX_PACKET_SIZE) :
    Emits (p.encode (2 + ackPropsEncodedSize p.properties p.reasonString limit + p.status.length))
      (2 + ackPropsEncodedSize p.properties p.reasonString limit + p.status.length) := by
  have len : p.status.length % 2 ^ 32 = p.status.length :=
    Nat.mod_eq_of_lt (by unfold MAX_PACKET_SIZE at small; omega)
  have codes : Emits (ByteWriter.forEach (fun reason => putU8 (toU8 reason)) p.status :
      ByteWriter EncodeError Unit) p.status.length := by
    have each : Writes (ByteWriter.forEach (fun reason => putU8 (toU8 reason)) p.status :
        ByteWriter EncodeError Unit) (p.status.map toU8) := by
      rw [List.map_eq_flatMap]
      exact Writes.forEach _ fun _ _ => Writes.putU8 _
    exact each.emits.congr (List.length_map _)
  rw [encode, len]
  refine ((Emits.putU16 _).bind (Emits.bind_checkedSub (Nat.add_assoc _ _ _)
    (Emits.bind_checkedSub (Nat.add_comm _ _)
      ((emits_ackPropsEncode (by omega)).bind codes)))).congr (Nat.add_assoc _ _ _).symm

/-! ## CONNECT -/

theorem LastWill.emits {w : LastWill} (words : w.propertiesLen < 2 ^ 32) :
    Emits w.encode w.size := by
  rw [encode, Nat.mod_eq_of_lt words]
  refine Emits.congr ((emits_writeVariableLength _).bind ((emits_encodeProperty _ _).bind
    ((emits_encodeProperty _ _).bind ((emits_encodeProperty _ _).bind
    ((emits_encodeProperty _ _).bind ((emits_encodeProperty _ _).bind
    ((emits_encodeProperty _ _).bind ((Measured.emits _).bind ((Measured.emits _).bind
    (Measured.emits _)))))))))) ?_
  simp only [size, propertiesLen]
  omega

theorem Connect.emits {p : Connect} {limit : Nat} (small : p.encodedSize limit ≤ MAX_PACKET_SIZE) :
    Emits (p.encode (p.encodedSize limit)) (p.encodedSize limit) := by
  have words : p.encodedSize limit < 2 ^ 32 := by
    unfold MAX_PACKET_SIZE at small
    omega
  have props : p.propertiesLen < 2 ^ 32 := by
    unfold encodedSize at words
    omega
  have will : Emits (forSome p.lastWill LastWill.encode) ((p.lastWill.map LastWill.size).getD 0) :=
    Emits.forSome fun w hw =>
      LastWill.emits (Nat.lt_of_le_of_lt (will_le_size hw limit) words)
  have username : Emits (forSome p.username Encode.encode)
      ((p.username.map Codec.encodedSize).getD 0) := Emits.forSome fun s _ => Measured.emits s
  have password : Emits (forSome p.password Encode.encode)
      ((p.password.map Codec.encodedSize).getD 0) := Emits.forSome fun bs _ => Measured.emits bs
  rw [encode, Nat.mod_eq_of_lt props]
  refine Emits.congr ((Measured.emits MQTT).bind ((Emits.putSlice _).bind
    ((Measured.emits p.keepAlive).bind ((emits_writeVariableLength _).bind
    ((emits_encodePropertyDefault _ _ _).bind ((emits_encodeProperty _ _).bind
    ((emits_encodeProperty _ _).bind ((emits_encodePropertyDefault _ _ _).bind
    ((emits_encodePropertyDefault _ _ _).bind ((emits_encodeProperty _ _).bind
    ((emits_encodeProperty _ _).bind ((emits_encodePropertyDefault _ _ _).bind
    ((Measured.emits p.userProperties).bind ((Measured.emits p.clientId).bind
    (will.bind (username.bind password)))))))))))))))) ?_
  have name : Codec.encodedSize MQTT = 6 := rfl
  have keepAlive : Codec.encodedSize p.keepAlive = 2 := rfl
  rw [encodedSize]
  generalize varIntLen p.propertiesLen = announced
  simp only [propertiesLen, name, keepAlive, List.length_cons, List.length_nil]
  ac_rfl

/-! ## CONNACK, DISCONNECT and AUTH -/

/-- The properties of a CONNACK that are never cut, in the order of `ConnectAck::encode`. -/
def ConnectAck.encodeFixed (p : ConnectAck) : ByteWriter EncodeError Unit := do
  encodeProperty p.sessionExpiryIntervalSecs pt.SESS_EXPIRY_INT
  encodePropertyDefault p.receiveMax RECEIVE_MAX_DEFAULT pt.RECEIVE_MAX
  encodeMaxQos p.maxQos
  encodePropertyDefault p.retainAvailable true pt.RETAIN_AVAIL
  encodeProperty p.maxPacketSize pt.MAX_PACKET_SIZE
  encodeProperty p.assignedClientId pt.ASSND_CLIENT_ID
  encodePropertyDefault p.topicAliasMax 0 pt.TOPIC_ALIAS_MAX
  encodePropertyDefault p.wildcardSubscriptionAvailable true pt.WILDCARD_SUB_AVAIL
  encodePropertyDefault p.subscriptionIdentifiersAvailable true pt.SUB_IDS_AVAIL
  encodePropertyDefault p.sharedSubscriptionAvailable true pt.SHARED_SUB_AVAIL
  encodeProperty p.serverKeepaliveSec pt.SERVER_KA
  encodeProperty p.responseInfo pt.RESP_INFO
  encodeProperty p.serverReference pt.SERVER_REF
  encodeProperty p.authMethod pt.AUTH_METHOD
  encodeProperty p.authData pt.AUTH_DATA

theorem ConnectAck.emits_encodeFixed (p : ConnectAck) : Emits p.encodeFixed p.propLen := by
  have maxQos : Emits (encodeMaxQos p.maxQos)
      (if p.maxQos.value < QoS.exactlyOnce.value then 1 + 1 else 0) :=
    (writes_maxQos p.maxQos).emits.congr (length_maxQosImage p.maxQos)
  have topicAlias : encodedPropertySizeDefault p.topicAliasMax 0 =
      if p.topicAliasMax > 0 then 1 + Codec.encodedSize p.topicAliasMax else 0 := by
    rw [topicAliasSize, encodedPropertySizeDefault_eq]
  refine Emits.congr ((emits_encodeProperty _ _).bind
    ((emits_encodePropertyDefault _ _ _).bind (maxQos.bind ((emits_encodePropertyDefault _ _ _).bind
    ((emits_encodeProperty _ _).bind ((emits_encodeProperty _ _).bind
    ((emits_encodePropertyDefault _ _ _).bind ((emits_encodePropertyDefault _ _ _).bind
    ((emits_encodePropertyDefault _ _ _).bind ((emits_encodePropertyDefault _ _ _).bind
    ((emits_encodeProperty _ _).bind ((emits_encodeProperty _ _).bind
    ((emits_encodeProperty _ _).bind ((emits_encodeProperty _ _).bind
    (emits_encodeProperty _ _))))))))))))))) ?_
  rw [propLen, ← topicAlias]
  generalize (if p.maxQos.value < QoS.exactlyOnce.value then 1 + 1 else 0) = qos
  omega

theorem ConnectAck.emits {p : ConnectAck} {limit : Nat}
    (small : p.encodedSize limit ≤ MAX_PACKET_SIZE) :
    Emits (p.encode (p.encodedSize limit)) (p.encodedSize limit) :=
  emits_encodeWithDiag (Emits.putSlice _) p.emits_encodeFixed small

theorem Disconnect.emits {p : Disconnect} {limit : Nat}
    (small : p.encodedSize limit ≤ MAX_PACKET_SIZE) :
    Emits (p.encode (p.encodedSize limit)) (p.encodedSize limit) :=
  emits_encodeWithDiag (Emits.putU8 _)
    ((emits_encodeProperty _ _).bind (emits_encodeProperty _ _)) small

theorem Auth.emits {p : Auth} {limit : Nat} (small : p.encodedSize limit ≤ MAX_PACKET_SIZE) :
    Emits (p.encode (p.encodedSize limit)) (p.encodedSize limit) :=
  emits_encodeWithDiag (Emits.putU8 _)
    ((emits_encodeProperty _ _).bind (emits_encodeProperty _ _)) small

/-! ## PUBLISH -/

end V5

open V5

theorem emits_subId (id : NonZeroU32) :
    Emits (do putU8 pt.SUB_ID; writeVariableLength id.val.toNat : ByteWriter EncodeError Unit)
      (1 + varIntLen id.val.toNat) :=
  (Emits.putU8 _).bind (emits_writeVariableLength _)

theorem PublishProperties.emits {p : PublishProperties} {limit : Nat}
    (small : p.encodedSize limit ≤ MAX_PACKET_SIZE) :
    Emits (p.encode (p.encodedSize limit)) (p.encodedSize limit) := by
  have bound : p.propLen ≤ MAX_PACKET_SIZE := by
    unfold encodedSize at small
    omega
  rw [encodedSize, Nat.add_comm, encode, varIntLenFromSize_of_small bound]
  refine Emits.congr ((emits_writeVariableLength _).bind ((emits_encodeProperty _ _).bind
    ((emits_encodeProperty _ _).bind ((emits_encodeProperty _ _).bind
    ((emits_encodeProperty _ _).bind ((emits_encodePropertyDefault _ _ _).bind
    ((emits_encodeProperty _ _).bind ((Emits.forEach _ emits_subId).bind
    (Measured.emits p.userProperties))))))))) ?_
  rw [propLen]
  omega

theorem Publish.emits_packetId (p : Publish) :
    Emits p.encodePacketId (if p.qos = .atMostOnce then 0 else 2) := by
  unfold encodePacketId
  split
  · split
    · exact Emits.fail _ _
    · exact Emits.pure
  · exact Emits.bind_okOr fun id _ => Emits.putU16 id.val

theorem Publish.emits {p : Publish} {limit : Nat} (small : p.encodedSize limit ≤ MAX_PACKET_SIZE) :
    Emits (p.encode (p.encodedSize limit)) (p.encodedSize limit) := by
  have total : p.encodedSize limit = Codec.encodedSize p.topic +
      (if p.qos = .atMostOnce then 0 else 2) +
      (p.properties.getD PublishProperties.default).encodedSize limit + p.payload.length := rfl
  have props : Emits _ _ := PublishProperties.emits
    (show (p.properties.getD PublishProperties.default).encodedSize limit ≤ _ by omega)
  have words : Codec.encodedSize p.topic + (if p.qos = .atMostOnce then 0 else 2) +
      p.payload.length < 2 ^ 32 := by
    unfold MAX_PACKET_SIZE at small
    omega
  refine (Emits.counted (m := (p.properties.getD PublishProperties.default).encodedSize limit +
    p.payload.length) ((Measured.emits p.topic).bind p.emits_packetId) ?_).congr (by omega)
  rw [Nat.mod_eq_of_lt words]
  exact Emits.bind_checkedSub (by omega) (props.bind (Emits.putSlice _))

namespace V5

/-! ## SUBSCRIBE and UNSUBSCRIBE -/

instance : Measured SubscriptionOptions where
  emits _ := Emits.putU8 _

theorem Subscribe.emits {p : Subscribe} {limit : Nat}
    (small : p.encodedSize limit ≤ MAX_PACKET_SIZE) :
    Emits (p.encode (p.encodedSize limit)) (p.encodedSize limit) := by
  have users : Codec.encodedSize p.userProperties % 2 ^ 32 =
      Codec.encodedSize p.userProperties := by
    simp only [encodedSize, propLen, MAX_PACKET_SIZE] at small
    exact Nat.mod_eq_of_lt (by omega)
  have filter : ∀ f : ByteString × SubscriptionOptions,
      Emits (do Encode.encode f.1; Encode.encode f.2) (Codec.encodedSize f.1 + 1) := fun f =>
    (Measured.emits f.1).bind (Measured.emits f.2)
  rw [encode, users]
  refine Emits.congr ((Measured.emits p.packetId).bind ((emits_writeVariableLength _).bind
    ((Emits.forSome fun id _ => emits_subId id).bind ((Measured.emits p.userProperties).bind
    (Emits.forEach _ filter))))) ?_
  simp only [encodedSize, propLen]
  omega

theorem Unsubscribe.emits {p : Unsubscribe} {limit : Nat}
    (small : p.encodedSize limit ≤ MAX_PACKET_SIZE) :
    Emits (p.encode (p.encodedSize limit)) (p.encodedSize limit) := by
  have users : Codec.encodedSize p.userProperties % 2 ^ 32 =
      Codec.encodedSize p.userProperties := by
    simp only [encodedSize, MAX_PACKET_SIZE] at small
    exact Nat.mod_eq_of_lt (by omega)
  have filter : ∀ f : ByteString, Emits (Encode.encode f) (2 + ByteString.len f) := fun f =>
    Measured.emits f
  have packetId : Codec.encodedSize p.packetId = 2 := rfl
  rw [encode, users]
  refine Emits.congr ((Measured.emits p.packetId).bind ((emits_writeVariableLength _).bind
    ((Measured.emits p.userProperties).bind (Emits.forEach _ filter)))) ?_
  simp only [encodedSize, packetId]
  omega

/-! ## Packets -/

namespace Packet

/-- A frame whose content takes the size that is announced. -/
theorem emits_frame {firstByte : UInt8} {n : Nat} {w : Nat → ByteWriter EncodeError Unit}
    (h : n ≤ MAX_PACKET_SIZE → Emits (w n) n) :
    Emits (encodeFrame firstByte n w) (1 + varIntLen n + n) := by
  unfold encodeFrame
  rcases Nat.lt_or_ge MAX_PACKET_SIZE n with large | small
  · -- the announcement fails before the content is written
    rw [writeVariableLength_of_large large]
    exact ((Emits.putU8 firstByte).bind (Emits.crash_bind (by decide) _ _)).congr
      (Nat.add_assoc _ _ _).symm
  · exact ((Emits.putU8 firstByte).bind ((emits_writeVariableLength n).bind (h small))).congr
      (Nat.add_assoc _ _ _).symm

/-- Whatever the limit, the encode pass appends the header of a frame and the content that the
size pass has announced, or fails. -/
theorem emits {p : Packet} {limit n : Nat} (size : p.encodedSize limit = .ok n) :
    Emits (p.encode n) (1 + varIntLen n + n) := by
  cases p with
  | connect p => cases size; exact emits_frame Connect.emits
  | connectAck p => cases size; exact emits_frame ConnectAck.emits
  | publish p => cases size; exact emits_frame Publish.emits
  | publishAck p => exact emits_frame (PublishAckOf.emits size)
  | publishReceived p => exact emits_frame (PublishAckOf.emits size)
  | publishRelease p => exact emits_frame (PublishAckOf.emits size)
  | publishComplete p => exact emits_frame (PublishAckOf.emits size)
  | subscribe p => cases size; exact emits_frame Subscribe.emits
  | subscribeAck p =>
      refine emits_frame fun small => ?_
      obtain rfl := SubscribeAck.encodedSize_eq_ok size small
      exact StatusAckOf.emits small
  | unsubscribe p => cases size; exact emits_frame Unsubscribe.emits
  | unsubscribeAck p =>
      have sum := UnsubscribeAck.encodedSize_eq p limit
      cases size
      refine emits_frame fun small => ?_
      rw [sum] at small ⊢
      exact StatusAckOf.emits small
  | pingRequest => cases size; exact Emits.putSlice _
  | pingResponse => cases size; exact Emits.putSlice _
  | disconnect p => cases size; exact emits_frame Disconnect.emits
  | auth p => cases size; exact emits_frame Auth.emits

end Packet

end V5

end OxiMqtt.Codec

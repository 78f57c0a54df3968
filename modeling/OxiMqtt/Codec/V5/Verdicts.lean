import Mathlib.Tactic.Tauto
import OxiMqtt.Codec.V3.Verdicts
import OxiMqtt.Codec.V5.Arithmetic

/-!
# When the MQTT 5 encoder stops, and how

The content of a packet is written field by field after the first byte and the announced size.  It
is an error at the first field that is too long, and a fault at the first subscription identifier
that is too large; what comes first decides.

* `Packet.IdsEncodable`: no subscription identifier that is reached is a fault.
* `Packet.FieldsAccepted`: no field that is reached is an error.
* `Packet.verdict`: with an announced size that can be written, the packet as it is cut to the limit
  is written, is an error or is a fault, as these conditions say; its first byte is in the buffer.
-/

namespace OxiMqtt.Codec

open Wire Wire.ByteWriter

namespace V5

/-! ## Properties -/

section Property

variable {α : Type} [Encode α] [Decode α] [WireType α] [Judged α]

theorem checks_encodeProperty (v : Option α) (propType : UInt8) :
    Checks (encodeProperty v propType) (∀ a ∈ v, Fits a) := by
  cases v with
  | none => exact Checks.pure.congr ⟨fun _ a ha => (Option.not_mem_none a ha).elim, fun _ => trivial⟩
  | some a =>
      refine ((Writes.putU8 _).checks.bind (Judged.checks a)).congr ⟨fun h b hb => ?_, fun h => ?_⟩
      · cases hb
        exact h.2
      · exact ⟨trivial, h a rfl⟩

/-- A property of a type without limits. -/
theorem checks_encodeProperty_of_fits {v : Option α} (fits : ∀ a : α, Fits a) (propType : UInt8) :
    Checks (encodeProperty v propType) True :=
  (checks_encodeProperty v propType).congr ⟨fun _ => trivial, fun _ a _ => fits a⟩

omit [Judged α] in
theorem checks_encodePropertyDefault [DecidableEq α] {v dflt : α} (fits : Fits v)
    (propType : UInt8) : Checks (encodePropertyDefault v dflt propType) True :=
  (writes_encodePropertyDefault fits propType).checks

end Property

theorem checks_user (up : UserProperty) : Checks (do putU8 pt.USER; encode up) (Fits up) :=
  ((Writes.putU8 _).checks.bind (Judged.checks up)).congr (and_iff_right trivial)

theorem checks_users (ups : UserProperties) : Checks (encode ups) (UsersFit ups) :=
  Checks.forEach ups checks_user

/-- Of the diagnostic properties, only those that are kept are looked at. -/
theorem checks_encodeOptProps (ups : UserProperties) (reasonStr : Option ByteString) (limit : Nat) :
    Checks (encodeOptProps ups reasonStr (encodedSizeOptProps ups reasonStr limit))
      (DiagFit (keepOptProps ups reasonStr limit).1 (keepOptProps ups reasonStr limit).2) := by
  induction ups generalizing limit with
  | nil =>
      cases reasonStr with
      | none => exact Checks.pure.congr (by simp [DiagFit, UsersFit, keepOptProps])
      | some reason =>
          have size : ByteString.len reason < 1 + encodedSize reason :=
            show ByteString.len reason < 1 + (2 + ByteString.len reason) by omega
          rw [encodedSizeOptProps, encodedSizeOptPropsLoop]
          by_cases within : 1 + encodedSize reason ≤ limit
          · rw [if_pos within, Nat.zero_add, encodeOptProps, if_pos size,
              keepOptProps_nil_of_le within]
            exact ((Writes.putU8 _).checks.bind (Judged.checks reason)).congr
              (by simp [DiagFit, UsersFit])
          · rw [if_neg within, keepOptProps_nil_of_lt (Nat.lt_of_not_le within)]
            exact Checks.pure.congr (by simp [DiagFit, UsersFit])
  | cons up ups ih =>
      rcases Nat.lt_or_ge limit (1 + encodedSize up) with above | within
      · rw [encodedSizeOptProps_cons_of_lt above, encodeOptProps_zero, keepOptProps_cons_of_lt above]
        exact Checks.pure.congr (by simp [DiagFit, UsersFit])
      · have pair : 1 + encodedSize up.1 + encodedSize up.2 = 1 + encodedSize up :=
          Nat.add_assoc _ _ _
        rw [encodedSizeOptProps_cons_of_le within, encodeOptProps, keepOptProps_cons_of_le within]
        simp only [pair, Nat.add_sub_cancel_left]
        rw [if_neg (by omega)]
        refine ((Writes.putU8 _).checks.bind ((Judged.checks up).bind (ih _))).congr ?_
        simp [DiagFit, UsersFit, and_assoc]

/-- The part of a packet before the properties that may be cut. -/
theorem checks_beforeDiag {headerLen propLen diagLen : Nat}
    {header fixed : ByteWriter EncodeError Unit} {S : Prop} (hheader : Checks header True)
    (hfixed : Checks fixed S) (small : propLen + diagLen ≤ MAX_PACKET_SIZE) :
    Checks
      (do
        header
        let propSize ←
          checkedSub (headerLen + varIntLen (propLen + diagLen) + (propLen + diagLen)) headerLen
        let announced ← varIntLenFromSize propSize
        writeVariableLength announced
        fixed) S := by
  rw [checkedSub_of_eq (Nat.add_assoc _ _ _), pure_then, varIntLenFromSize_of_small small,
    pure_then]
  refine (hheader.bind ((writes_writeVariableLength small).checks.bind hfixed)).congr ?_
  exact ⟨fun h => h.2.2, fun h => ⟨trivial, trivial, h⟩⟩

/-- A packet of a header, fixed properties and properties that may be cut. -/
theorem checks_encodeWithDiag {headerLen propLen limit : Nat}
    {header fixed : ByteWriter EncodeError Unit} {S : Prop} {ups : UserProperties}
    {reasonStr : Option ByteString} (hheader : Checks header True) (hfixed : Checks fixed S)
    (headerSize : Emits header headerLen) (fixedSize : Emits fixed propLen)
    (small : sizeWithDiag headerLen propLen ups reasonStr limit ≤ MAX_PACKET_SIZE) :
    Checks (encodeWithDiag headerLen header fixed ups reasonStr
        (sizeWithDiag headerLen propLen ups reasonStr limit))
      (S ∧ DiagFit (keepDiag headerLen propLen ups reasonStr limit).1
        (keepDiag headerLen propLen ups reasonStr limit).2) := by
  have diag := checks_encodeOptProps ups reasonStr (reduceLimit limit (headerLen + 4 + propLen))
  unfold keepDiag
  unfold sizeWithDiag at small ⊢
  dsimp only at small ⊢
  generalize encodedSizeOptProps ups reasonStr (reduceLimit limit (headerLen + 4 + propLen)) =
    diagLen at small diag ⊢
  have props : propLen + diagLen ≤ MAX_PACKET_SIZE := by omega
  refine Ends.congr (Checks.counted (checks_beforeDiag hheader hfixed props)
    (emits_beforeDiag headerSize fixedSize props) fun _ => ?_) Iff.rfl not_and.symm
  rw [checkedSub_of_eq (show headerLen + varIntLen (propLen + diagLen) + (propLen + diagLen) =
    headerLen + (varIntLen (propLen + diagLen) + propLen) + diagLen by omega)]
  exact diag

theorem checks_ackPropsEncode {ups : UserProperties} {reasonStr : Option ByteString} {limit : Nat}
    (small : ackPropsEncodedSize ups reasonStr limit ≤ MAX_PACKET_SIZE) :
    Checks (ackPropsEncode ups reasonStr (ackPropsEncodedSize ups reasonStr limit))
      (DiagFit (keepAckProps ups reasonStr limit).1 (keepAckProps ups reasonStr limit).2) := by
  unfold ackPropsEncodedSize at small ⊢
  unfold keepAckProps
  by_cases low : limit < 4
  · rw [if_pos low, if_pos low]
    exact (Writes.putU8 0).checks.congr (by simp [DiagFit, UsersFit])
  · rw [if_neg low] at small ⊢
    rw [if_neg low]
    dsimp only at small ⊢
    have diag := checks_encodeOptProps ups reasonStr (limit - 4)
    generalize encodedSizeOptProps ups reasonStr (limit - 4) = len at small diag ⊢
    have bound : len ≤ MAX_PACKET_SIZE := by omega
    have pos := varIntLen_pos len
    unfold ackPropsEncode
    rw [if_neg (by omega)]
    by_cases one : varIntLen len + len = 1
    · -- nothing is kept, and the length zero is written as it would be announced
      obtain rfl : len = 0 := by omega
      rw [encodeOptProps_zero] at diag
      rw [if_pos one]
      have kept := (diag []).2.1
      exact (Writes.putU8 0).checks.congr ⟨fun _ => kept, fun _ => trivial⟩
    · rw [if_neg one, varIntLenFromSize_of_small bound, pure_then]
      exact ((writes_writeVariableLength bound).checks.bind diag).congr (and_iff_right trivial)

/-! ## Acknowledgments -/

theorem PublishAckOf.checks {ρ : Type} [PrimEnum ρ] {p : PublishAckOf ρ} {limit n : Nat}
    (h : p.encodedSize limit = .ok n) (small : n ≤ MAX_PACKET_SIZE) :
    Checks (p.encode n) (p.cut limit).Fits := by
  have size := encodedSize_eq_ok h
  have props := checks_ackPropsEncode
    (show ackPropsEncodedSize p.properties p.reasonString (limit - 7) ≤ MAX_PACKET_SIZE by omega)
  rw [encode, checkedSub_of_eq size, pure_then]
  refine ((Writes.putU16 _).checks.bind ((Writes.putU8 _).checks.bind props)).congr ?_
  exact ⟨fun h => h.2.2, fun h => ⟨trivial, trivial, h⟩⟩

theorem StatusAckOf.checks {ρ : Type} [PrimEnum ρ] {p : StatusAckOf ρ} {limit : Nat}
    (small : 2 + ackPropsEncodedSize p.properties p.reasonString limit + p.status.length ≤
      MAX_PACKET_SIZE) :
    Checks (p.encode (2 + ackPropsEncodedSize p.properties p.reasonString limit + p.status.length))
      (DiagFit (keepAckProps p.properties p.reasonString limit).1
        (keepAckProps p.properties p.reasonString limit).2) := by
  have len : p.status.length % 2 ^ 32 = p.status.length :=
    Nat.mod_eq_of_lt (by unfold MAX_PACKET_SIZE at small; omega)
  have codes : Checks (ByteWriter.forEach (fun reason => putU8 (toU8 reason)) p.status :
      ByteWriter EncodeError Unit) True :=
    (Writes.forEach p.status fun _ _ => Writes.putU8 _).checks
  have props := checks_ackPropsEncode
    (show ackPropsEncodedSize p.properties p.reasonString limit ≤ MAX_PACKET_SIZE by omega)
  rw [encode, len, checkedSub_of_eq (Nat.add_assoc _ _ _), pure_then,
    checkedSub_of_eq (Nat.add_comm _ _), pure_then]
  refine ((Writes.putU16 _).checks.bind (props.bind codes)).congr ?_
  exact ⟨fun h => h.2.1, fun h => ⟨trivial, h, trivial⟩⟩

/-! ## CONNECT -/

theorem LastWill.checks {w : LastWill} (small : w.propertiesLen ≤ MAX_PACKET_SIZE) :
    Checks w.encode w.Fits := by
  have words : w.propertiesLen < 2 ^ 32 := by
    unfold MAX_PACKET_SIZE at small
    omega
  rw [encode, Nat.mod_eq_of_lt words]
  refine Checks.congr ((writes_writeVariableLength small).checks.bind
    ((checks_encodeProperty_of_fits (fun _ => trivial) _).bind
    ((checks_encodeProperty_of_fits (fun _ => trivial) _).bind
    ((checks_encodeProperty_of_fits (fun _ => trivial) _).bind
    ((checks_encodeProperty w.contentType _).bind ((checks_encodeProperty w.responseTopic _).bind
    ((checks_encodeProperty w.correlationData _).bind ((checks_users w.userProperties).bind
    ((Judged.checks w.topic).bind (Judged.checks w.message)))))))))) ?_
  constructor
  · intro h
    rcases h with ⟨-, -, -, -, contentType, responseTopic, correlationData, users, topic, message⟩
    exact ⟨topic, message, correlationData, contentType, responseTopic, users⟩
  · intro h
    exact ⟨trivial, trivial, trivial, trivial, h.contentType, h.responseTopic, h.correlationData,
      h.userProperties, h.topic, h.message⟩

theorem Connect.checks {p : Connect} {limit : Nat} (small : p.encodedSize limit ≤ MAX_PACKET_SIZE) :
    Checks (p.encode (p.encodedSize limit)) p.Fits := by
  have props : p.propertiesLen ≤ MAX_PACKET_SIZE := by
    unfold encodedSize at small
    omega
  have words : p.propertiesLen < 2 ^ 32 := by
    unfold MAX_PACKET_SIZE at props
    omega
  have name : Codec.Fits MQTT := show MQTT.length ≤ 65535 by decide
  have will : Checks (forSome p.lastWill LastWill.encode) (∀ w ∈ p.lastWill, w.Fits) := by
    cases hw : p.lastWill with
    | none => exact Checks.pure.congr (by simp)
    | some w =>
        have bound := Nat.le_trans (will_le_size hw limit) small
        exact (LastWill.checks bound).congr (by simp)
  have username : Checks (forSome p.username Encode.encode) (∀ s ∈ p.username, Codec.Fits s) :=
    Checks.forSome Judged.checks
  have password : Checks (forSome p.password Encode.encode) (∀ bs ∈ p.password, Codec.Fits bs) :=
    Checks.forSome Judged.checks
  rw [encode, Nat.mod_eq_of_lt words]
  refine Checks.congr ((Judged.checks MQTT).bind ((Writes.putSlice _).checks.bind
    ((Judged.checks p.keepAlive).bind ((writes_writeVariableLength props).checks.bind
    ((checks_encodePropertyDefault trivial _).bind ((checks_encodeProperty p.authMethod _).bind
    ((checks_encodeProperty p.authData _).bind ((checks_encodePropertyDefault trivial _).bind
    ((checks_encodePropertyDefault trivial _).bind
    ((checks_encodeProperty_of_fits (fun _ => trivial) _).bind
    ((checks_encodeProperty_of_fits (fun _ => trivial) _).bind
    ((checks_encodePropertyDefault trivial _).bind ((checks_users p.userProperties).bind
    ((Judged.checks p.clientId).bind (will.bind (username.bind password)))))))))))))))) ?_
  constructor
  · intro h
    rcases h with ⟨-, -, -, -, -, authMethod, authData, -, -, -, -, -, users, clientId, will,
      username, password⟩
    exact ⟨authMethod, authData, users, will, clientId, username, password⟩
  · intro h
    exact ⟨name, trivial, trivial, trivial, trivial, h.authMethod, h.authData, trivial, trivial,
      trivial, trivial, trivial, h.userProperties, h.clientId, h.lastWill, h.username, h.password⟩

/-! ## CONNACK, DISCONNECT and AUTH -/

theorem ConnectAck.checks {p : ConnectAck} {limit : Nat}
    (small : p.encodedSize limit ≤ MAX_PACKET_SIZE) :
    Checks (p.encode (p.encodedSize limit)) (p.cut limit).Fits := by
  have fixed : Checks p.encodeFixed _ := (checks_encodeProperty_of_fits (fun _ => trivial) _).bind
    ((checks_encodePropertyDefault trivial _).bind ((writes_maxQos p.maxQos).checks.bind
    ((checks_encodePropertyDefault trivial _).bind
    ((checks_encodeProperty_of_fits (fun _ => trivial) _).bind
    ((checks_encodeProperty p.assignedClientId _).bind ((checks_encodePropertyDefault trivial _).bind
    ((checks_encodePropertyDefault trivial _).bind ((checks_encodePropertyDefault trivial _).bind
    ((checks_encodePropertyDefault trivial _).bind
    ((checks_encodeProperty_of_fits (fun _ => trivial) _).bind
    ((checks_encodeProperty p.responseInfo _).bind ((checks_encodeProperty p.serverReference _).bind
    ((checks_encodeProperty p.authMethod _).bind (checks_encodeProperty p.authData _))))))))))))))
  have header := Writes.putSlice (ε := EncodeError) [boolU8 p.sessionPresent, toU8 p.reasonCode]
  refine (checks_encodeWithDiag header.checks fixed header.emits p.emits_encodeFixed small).congr ?_
  constructor
  · intro h
    rcases h with ⟨⟨-, -, -, -, -, clientId, -, -, -, -, -, responseInfo, serverReference,
      authMethod, authData⟩, diag⟩
    exact ⟨clientId, responseInfo, serverReference, authMethod, authData, diag⟩
  · intro h
    exact ⟨⟨trivial, trivial, trivial, trivial, trivial, h.assignedClientId, trivial, trivial,
      trivial, trivial, trivial, h.responseInfo, h.serverReference, h.authMethod, h.authData⟩,
      h.diag⟩

theorem Disconnect.checks {p : Disconnect} {limit : Nat}
    (small : p.encodedSize limit ≤ MAX_PACKET_SIZE) :
    Checks (p.encode (p.encodedSize limit)) (p.cut limit).Fits := by
  refine (checks_encodeWithDiag (Writes.putU8 _).checks
    ((checks_encodeProperty_of_fits (fun _ => trivial) _).bind
      (checks_encodeProperty p.serverReference _))
    (Emits.putU8 _) ((emits_encodeProperty _ _).bind (emits_encodeProperty _ _)) small).congr ?_
  exact ⟨fun h => ⟨h.1.2, h.2⟩, fun h => ⟨⟨trivial, h.serverReference⟩, h.diag⟩⟩

theorem Auth.checks {p : Auth} {limit : Nat} (small : p.encodedSize limit ≤ MAX_PACKET_SIZE) :
    Checks (p.encode (p.encodedSize limit)) (p.cut limit).Fits := by
  refine (checks_encodeWithDiag (Writes.putU8 _).checks
    ((checks_encodeProperty p.authMethod _).bind (checks_encodeProperty p.authData _))
    (Emits.putU8 _) ((emits_encodeProperty _ _).bind (emits_encodeProperty _ _)) small).congr ?_
  exact ⟨fun h => ⟨h.1.1, h.1.2, h.2⟩, fun h => ⟨⟨h.authMethod, h.authData⟩, h.diag⟩⟩

/-! ## PUBLISH -/

end V5

open V5

/-- The properties before the subscription identifiers are within their limits. -/
structure PublishProperties.ReachesIds (p : PublishProperties) : Prop where
  correlationData : ∀ bs ∈ p.correlationData, Codec.Fits bs
  contentType : ∀ s ∈ p.contentType, Codec.Fits s
  responseTopic : ∀ s ∈ p.responseTopic, Codec.Fits s

/-- The subscription identifiers have at most 28 bits. -/
def PublishProperties.IdsFit (p : PublishProperties) : Prop :=
  ∀ id ∈ p.subscriptionIds, id.val.toNat ≤ MAX_PACKET_SIZE

theorem PublishProperties.fits_iff (p : PublishProperties) :
    p.Fits ↔ p.ReachesIds ∧ p.IdsFit ∧ UsersFit p.userProperties := by
  constructor
  · intro h
    exact ⟨⟨h.correlationData, h.contentType, h.responseTopic⟩, h.subscriptionIds, h.userProperties⟩
  · intro h
    rcases h with ⟨⟨correlationData, contentType, responseTopic⟩, ids, users⟩
    exact ⟨correlationData, contentType, responseTopic, ids, users⟩

/-- A subscription identifier that is too large is a fault. -/
theorem ends_subId (id : NonZeroU32) :
    Ends (do putU8 pt.SUB_ID; writeVariableLength id.val.toNat : ByteWriter EncodeError Unit)
      (id.val.toNat ≤ MAX_PACKET_SIZE) False := by
  rcases Nat.lt_or_ge MAX_PACKET_SIZE id.val.toNat with large | small
  · rw [writeVariableLength_of_large large]
    refine ((Writes.putU8 _).checks.bind_ends fun _ => Ends.crash .assertion).congr ?_ ?_
    · exact ⟨fun h => h.2.elim, fun small => absurd small (Nat.not_le_of_lt large)⟩
    · exact ⟨fun h => h trivial, False.elim⟩
  · refine Ends.congr ((Writes.putU8 _).bind (writes_writeVariableLength small)).checks ?_ ?_
    · exact ⟨fun _ => small, fun _ => trivial⟩
    · exact ⟨fun h => h trivial, False.elim⟩

theorem PublishProperties.ends {p : PublishProperties} {limit : Nat}
    (small : p.encodedSize limit ≤ MAX_PACKET_SIZE) :
    Ends (p.encode (p.encodedSize limit)) p.Fits
      (p.ReachesIds → p.IdsFit ∧ ¬UsersFit p.userProperties) := by
  have bound : p.propLen ≤ MAX_PACKET_SIZE := by
    unfold encodedSize at small
    omega
  have last : Ends (forEach (fun id => do putU8 pt.SUB_ID; writeVariableLength id.val.toNat)
      p.subscriptionIds >>= fun _ => Encode.encode p.userProperties)
      (p.IdsFit ∧ UsersFit p.userProperties) (p.IdsFit ∧ ¬UsersFit p.userProperties) := by
    refine ((Ends.forEach p.subscriptionIds ends_subId).bind
      (f := fun _ => Encode.encode p.userProperties)
      fun _ => checks_users p.userProperties).congr Iff.rfl ?_
    exact or_iff_right id
  rw [encodedSize, Nat.add_comm, encode, varIntLenFromSize_of_small bound, pure_then]
  refine Ends.congr ((writes_writeVariableLength bound).checks.bind_ends fun _ =>
    (checks_encodeProperty_of_fits (fun _ => trivial) _).bind_ends fun _ =>
    (checks_encodeProperty p.correlationData _).bind_ends fun _ =>
    (checks_encodeProperty_of_fits (fun _ => trivial) _).bind_ends fun _ =>
    (checks_encodeProperty p.contentType _).bind_ends fun _ =>
    (checks_encodePropertyDefault trivial _).bind_ends fun _ =>
    (checks_encodeProperty p.responseTopic _).bind_ends fun _ => last) ?_ ?_
  · rw [fits_iff]
    constructor
    · intro h
      rcases h with ⟨-, -, correlationData, -, contentType, -, responseTopic, ids, users⟩
      exact ⟨⟨correlationData, contentType, responseTopic⟩, ids, users⟩
    · intro h
      rcases h with ⟨early, ids, users⟩
      exact ⟨trivial, trivial, early.correlationData, trivial, early.contentType, trivial,
        early.responseTopic, ids, users⟩
  · constructor
    · intro h early
      exact h trivial trivial early.correlationData trivial early.contentType trivial
        early.responseTopic
    · intro h _ _ correlationData _ contentType _ responseTopic
      exact h ⟨correlationData, contentType, responseTopic⟩

namespace Publish

/-- The properties that are encoded: the default ones if there are none. -/
def props (p : Publish) : PublishProperties := p.properties.getD PublishProperties.default

/-- The fields before the subscription identifiers are accepted. -/
structure ReachesIds (p : Publish) : Prop where
  topic : Codec.Fits p.topic
  packetId : p.packetId.isSome = true ↔ p.qos ≠ .atMostOnce
  props : p.props.ReachesIds

theorem fits_iff (p : Publish) :
    p.Fits ↔ p.ReachesIds ∧ p.props.IdsFit ∧ UsersFit p.props.userProperties := by
  have props : (∀ props ∈ p.properties, props.Fits) ↔ p.props.Fits := by
    unfold Publish.props
    cases p.properties with
    | none => simp [PublishProperties.fits_default]
    | some props => simp
  constructor
  · intro h
    have parts := p.props.fits_iff.mp (props.mp h.properties)
    exact ⟨⟨h.topic, h.packetId, parts.1⟩, parts.2⟩
  · intro h
    exact ⟨h.1.topic, h.1.packetId, props.mpr (p.props.fits_iff.mpr ⟨h.1.props, h.2⟩)⟩

theorem checks_encodePacketId (p : Publish) :
    Checks p.encodePacketId (p.packetId.isSome = true ↔ p.qos ≠ .atMostOnce) := by
  unfold encodePacketId
  by_cases zero : p.qos = .atMostOnce
  · rw [if_pos zero]
    refine (Checks.ite (Checks.fail EncodeError.malformedPacket) Checks.pure).congr ?_
    cases p.packetId <;> simp [zero]
  · rw [if_neg zero]
    exact (Checks.bind_okOr fun id : NonZeroU16 => (Writes.putU16 id.val).checks).congr
      (by simp [zero])

theorem ends {p : Publish} {limit : Nat} (small : p.encodedSize limit ≤ MAX_PACKET_SIZE) :
    Ends (p.encode (p.encodedSize limit)) p.Fits
      (p.ReachesIds → p.props.IdsFit ∧ ¬UsersFit p.props.userProperties) := by
  have total : p.encodedSize limit = Codec.encodedSize p.topic +
      (if p.qos = .atMostOnce then 0 else 2) + p.payload.length + p.props.encodedSize limit := by
    unfold encodedSize props
    dsimp only
    omega
  have words : Codec.encodedSize p.topic + (if p.qos = .atMostOnce then 0 else 2) +
      p.payload.length < 2 ^ 32 := by
    unfold MAX_PACKET_SIZE at small
    omega
  have content := (PublishProperties.ends (show p.props.encodedSize limit ≤ _ by omega)).bind
    (f := fun _ => putSlice p.payload) fun _ => (Writes.putSlice _).checks
  refine Ends.congr (Checks.counted ((Judged.checks p.topic).bind p.checks_encodePacketId)
    ((Measured.emits p.topic).bind p.emits_packetId)
    (T := p.props.Fits) (G := p.props.ReachesIds → p.props.IdsFit ∧
      ¬UsersFit p.props.userProperties) fun _ => ?_) ?_ ?_
  · rw [Nat.mod_eq_of_lt words, checkedSub_of_eq total, pure_then]
    exact content.congr (and_iff_left trivial) (or_iff_left fun h => h.2 trivial)
  · rw [fits_iff, PublishProperties.fits_iff]
    constructor
    · intro h
      exact ⟨⟨h.1.1, h.1.2, h.2.1⟩, h.2.2⟩
    · intro h
      exact ⟨⟨h.1.topic, h.1.packetId⟩, h.1.props, h.2⟩
  · constructor
    · intro h early
      exact h ⟨early.topic, early.packetId⟩ early.props
    · intro h early props
      exact h ⟨early.1, early.2, props⟩

end Publish

namespace V5

/-! ## SUBSCRIBE and UNSUBSCRIBE -/

instance : Judged SubscriptionOptions where
  checks _ := (Writes.putU8 _).checks

/-- The subscription identifier has at most 28 bits. -/
def Subscribe.IdFits (p : Subscribe) : Prop := ∀ id ∈ p.id, id.val.toNat ≤ MAX_PACKET_SIZE

/-- The fields behind the subscription identifier are within their limits. -/
def Subscribe.RestFits (p : Subscribe) : Prop :=
  UsersFit p.userProperties ∧ ∀ f ∈ p.topicFilters, Codec.Fits f.1

theorem Subscribe.ends {p : Subscribe} {limit : Nat}
    (small : p.encodedSize limit ≤ MAX_PACKET_SIZE) :
    Ends (p.encode (p.encodedSize limit)) p.Fits (p.IdFits ∧ ¬p.RestFits) := by
  have props : p.propLen ≤ MAX_PACKET_SIZE := by
    unfold encodedSize at small
    dsimp only at small
    omega
  have users : Codec.encodedSize p.userProperties % 2 ^ 32 =
      Codec.encodedSize p.userProperties := by
    simp only [propLen, MAX_PACKET_SIZE] at props
    exact Nat.mod_eq_of_lt (by omega)
  have id : Ends (forSome p.id fun id => do putU8 pt.SUB_ID; writeVariableLength id.val.toNat)
      p.IdFits False := by
    unfold IdFits
    cases p.id with
    | none => exact Ends.congr Checks.pure (by simp) (by simp)
    | some id => exact (ends_subId id).congr (by simp) Iff.rfl
  have filter : ∀ f : ByteString × SubscriptionOptions,
      Checks (do Encode.encode f.1; Encode.encode f.2) (Codec.Fits f.1) := fun f =>
    ((Judged.checks f.1).bind (Judged.checks f.2)).congr (and_iff_left trivial)
  have rest := (checks_users p.userProperties).bind
    (f := fun _ => forEach (fun f => do Encode.encode f.1; Encode.encode f.2) p.topicFilters)
    (Checks.forEach p.topicFilters filter)
  rw [encode, users]
  refine Ends.congr ((Writes.putU16 _).checks.bind_ends fun _ =>
    (writes_writeVariableLength props).checks.bind_ends fun _ => id.bind fun _ => rest) ?_ ?_
  · exact ⟨fun h => ⟨h.2.2.1, h.2.2.2.1, h.2.2.2.2⟩,
      fun h => ⟨trivial, trivial, h.id, h.userProperties, h.topicFilters⟩⟩
  · exact ⟨fun h => (h trivial trivial).resolve_left False.elim, fun h _ _ => .inr h⟩

theorem Unsubscribe.checks {p : Unsubscribe} {limit : Nat}
    (small : p.encodedSize limit ≤ MAX_PACKET_SIZE) :
    Checks (p.encode (p.encodedSize limit)) p.Fits := by
  have props : Codec.encodedSize p.userProperties ≤ MAX_PACKET_SIZE := by
    unfold encodedSize at small
    dsimp only at small
    omega
  have users : Codec.encodedSize p.userProperties % 2 ^ 32 =
      Codec.encodedSize p.userProperties := by
    unfold MAX_PACKET_SIZE at props
    exact Nat.mod_eq_of_lt (by omega)
  rw [encode, users]
  refine Checks.congr ((Writes.putU16 _).checks.bind ((writes_writeVariableLength props).checks.bind
    ((checks_users p.userProperties).bind (Checks.forEach p.topicFilters Judged.checks)))) ?_
  exact ⟨fun h => ⟨h.2.2.1, h.2.2.2⟩,
    fun h => ⟨trivial, trivial, h.userProperties, h.topicFilters⟩⟩

/-! ## Packets -/

namespace Packet

/-- No subscription identifier that the encoder reaches has more than 28 bits. -/
def IdsEncodable : Packet → Prop
  | publish p => p.ReachesIds → p.props.IdsFit
  | subscribe p => p.IdFits
  | _ => True

/-- No field that the encoder reaches is an error, in the packet as it is cut to the limit. -/
def FieldsAccepted (limit : Nat) : Packet → Prop
  | publish p => p.ReachesIds ∧ (p.props.IdsFit → UsersFit p.props.userProperties)
  | subscribe p => p.IdFits → p.RestFits
  | p => (p.cut limit).Fits

/-- Written or an error: not a fault. -/
theorem fits_or_error_iff (p : Packet) (limit : Nat) :
    (p.cut limit).Fits ∨ ¬p.FieldsAccepted limit ↔ p.IdsEncodable := by
  cases p with
  | publish p =>
      change p.Fits ∨ ¬(p.ReachesIds ∧ (p.props.IdsFit → UsersFit p.props.userProperties)) ↔
        (p.ReachesIds → p.props.IdsFit)
      rw [p.fits_iff]
      tauto
  | subscribe p =>
      have parts : p.Fits ↔ p.IdFits ∧ p.RestFits :=
        ⟨fun h => ⟨h.id, h.userProperties, h.topicFilters⟩, fun h => ⟨h.1, h.2.1, h.2.2⟩⟩
      change p.Fits ∨ ¬(p.IdFits → p.RestFits) ↔ p.IdFits
      rw [parts]
      tauto
  | _ => exact iff_of_true (Classical.em _) trivial

theorem frame_verdict {firstByte : UInt8} {n : Nat} {w : Nat → ByteWriter EncodeError Unit}
    {S F : Prop} (small : n ≤ MAX_PACKET_SIZE) (h : Ends (w n) S F) (dst : Bytes) :
    dst ++ [firstByte] <+: (encodeFrame firstByte n w dst).2 ∧
      Verdict S F (encodeFrame firstByte n w dst).1 := V3.frame_verdict small h dst

/-- With an announced size that can be written, a packet is written if the fields of what is kept of
it are within their limits, and is an error if a field that is reached is one; in any case its first
byte is in the buffer. -/
theorem verdict {p : Packet} {limit n : Nat} (size : p.encodedSize limit = .ok n)
    (small : n ≤ MAX_PACKET_SIZE) (dst : Bytes) :
    dst ++ [p.firstByte] <+: (p.encode n dst).2 ∧
      Verdict (p.cut limit).Fits (¬p.FieldsAccepted limit) (p.encode n dst).1 := by
  cases p with
  | connect p => cases size; exact frame_verdict small (Connect.checks small) dst
  | connectAck p => cases size; exact frame_verdict small (ConnectAck.checks small) dst
  | publish p =>
      cases size
      refine frame_verdict small ((Publish.ends small).congr Iff.rfl ?_) dst
      change _ ↔ ¬(p.ReachesIds ∧ (p.props.IdsFit → UsersFit p.props.userProperties))
      tauto
  | publishAck p => exact frame_verdict small (PublishAckOf.checks size small) dst
  | publishReceived p => exact frame_verdict small (PublishAckOf.checks size small) dst
  | publishRelease p => exact frame_verdict small (PublishAckOf.checks size small) dst
  | publishComplete p => exact frame_verdict small (PublishAckOf.checks size small) dst
  | subscribe p =>
      cases size
      refine frame_verdict small ((Subscribe.ends small).congr Iff.rfl ?_) dst
      exact Classical.not_imp.symm
  | subscribeAck p =>
      obtain rfl := SubscribeAck.encodedSize_eq_ok size small
      exact frame_verdict small (StatusAckOf.checks small) dst
  | unsubscribe p => cases size; exact frame_verdict small (Unsubscribe.checks small) dst
  | unsubscribeAck p =>
      have sum := UnsubscribeAck.encodedSize_eq p limit
      cases size
      rw [sum] at small ⊢
      exact frame_verdict small (StatusAckOf.checks small) dst
  | pingRequest => exact V3.slice_verdict _ dst
  | pingResponse => exact V3.slice_verdict _ dst
  | disconnect p => cases size; exact frame_verdict small (Disconnect.checks small) dst
  | auth p => cases size; exact frame_verdict small (Auth.checks small) dst

/-- With a size that cannot be announced, a packet is a fault. -/
theorem fault_of_large {p : Packet} {limit n : Nat} (size : p.encodedSize limit = .ok n)
    (large : MAX_PACKET_SIZE < n) (dst : Bytes) : (p.encode n dst).1 = .fault .assertion := by
  cases p with
  | pingRequest => cases size; cases large
  | pingResponse => cases size; cases large
  | _ => exact V3.frame_fault large _ dst

end Packet

end V5

end OxiMqtt.Codec

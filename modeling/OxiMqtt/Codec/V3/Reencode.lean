import OxiMqtt.Codec.Accepts
import OxiMqtt.Codec.V3.Encode

/-!
# Encoding MQTT 3.1.1 packets again

What the decoder returns can be written and read back.  The decoder accepts two protocol names,
two protocol levels and any flags it does not look at; the encoder writes one form of a packet.

* `yields_decodePacket`: every packet that is read is within the wire limits, acceptable, and no
  longer than a packet can be.
* `Packet.reencodes_iff`: such a packet comes back as it is, unless it is a CONNECT of another
  level than 4, since `encode_connect` always writes level 4.
-/

namespace OxiMqtt.Codec.V3

set_option linter.dupNamespace false

open Wire Wire.Reader Wire.ByteWriter

namespace Packet

/-- A packet that a codec, with any limit and at the start of a frame, has read from some bytes. -/
def Accepted (p : Packet) : Prop :=
  ∃ (codec codec' : Codec) (src rest : Bytes) (n : Nat), codec.state = .frameHeader ∧
    codec.decode src = (.ok (some (p, n)), codec', rest)

/-- A default codec encodes the packet, and decodes the result to the packet again. -/
def Reencodes (p : Packet) : Prop :=
  ∃ bytes, (Codec.new 0).encode p [] = (.ok (), bytes) ∧
    ∃ n codec, (Codec.new 0).decode bytes = (.ok (some (p, n)), codec, [])

/-- A CONNECT has the level that is written. -/
def HasLevel311 (p : Packet) : Prop :=
  ∀ connect, p = .connect connect → connect.protocol = MQTT_LEVEL_311

/-- What is known of a packet that was read from a content of `n` bytes. -/
structure ReadFrom (p : Packet) (n : Nat) : Prop where
  fits : p.Fits
  acceptable : p.Acceptable
  small : n ≤ MAX_PACKET_SIZE → p.content.length ≤ MAX_PACKET_SIZE

/-- A packet without a limit of its own that takes no more bytes than were read. -/
theorem ReadFrom.of_le {p : Packet} {n : Nat} (fits : p.Fits) (acceptable : p.Acceptable)
    (le : p.content.length ≤ n) : p.ReadFrom n := ⟨fits, acceptable, Nat.le_trans le⟩

end Packet

/-! ## The decoders -/

theorem yields_decodeAck {f : NonZeroU16 → Packet} (h : ∀ packetId, (f packetId).ReadFrom 2) :
    Yields (decodeAck f) Packet.ReadFrom := by
  apply (ExactDecode.yields : Yields (decode : Reader DecodeError NonZeroU16) _).bind
  rintro packetId n ⟨-, rfl⟩
  exact (Yields.ensureConsumed _).zero_bind fun _ _ => Yields.pure (h packetId)

theorem yields_decodeLastWill (flags : UInt8) :
    Yields (decodeLastWill flags) fun will _ => Codec.Fits will.topic ∧ Codec.Fits will.message := by
  apply yields_decode.bind
  rintro topic n ⟨topicFits, -⟩
  apply yields_decode.bind
  rintro message m ⟨messageFits, -⟩
  exact (Yields.fromOutcome _).zero_bind fun _ _ => Yields.pure ⟨topicFits, messageFits⟩

/-- A CONNECT has five fields of at most 65535 bytes. -/
theorem small_connect {p : Connect} (fits : (Packet.connect p).Fits) :
    p.image.length ≤ MAX_PACKET_SIZE := by
  rcases fits with ⟨clientId, lastWill, username, password⟩
  have field : ∀ {bs : Bytes}, Codec.Fits bs → bs.length ≤ 65535 := fun h => h
  have will : (p.lastWill.map fun will =>
      2 + ByteString.len will.topic + 2 + will.message.length).getD 0 ≤ 2 * 65537 := by
    cases hw : p.lastWill with
    | none => exact Nat.zero_le _
    | some will =>
        have topic := field (lastWill will hw).1
        have message := field (lastWill will hw).2
        change 2 + (ByteString.asBytes will.topic).length + 2 + will.message.length ≤ _
        omega
  have user : (p.username.map fun s => 2 + ByteString.len s).getD 0 ≤ 65537 := by
    cases hs : p.username with
    | none => exact Nat.zero_le _
    | some s =>
        have text := field (username s hs)
        change 2 + (ByteString.asBytes s).length ≤ _
        omega
  have pass : (p.password.map fun bs => 2 + List.length bs).getD 0 ≤ 65537 := by
    cases hbs : p.password with
    | none => exact Nat.zero_le _
    | some bs =>
        have bytes := field (password bs hbs)
        change 2 + bs.length ≤ _
        omega
  have client : ByteString.len p.clientId ≤ 65535 := clientId
  have name : (protocolName p.protocol).length ≤ 6 := by
    rw [length_protocolName]
    split <;> omega
  rw [length_connect, getEncodedConnectSize]
  unfold MAX_PACKET_SIZE
  omega

theorem yields_readProtocolName (len : UInt16) :
    Yields (readProtocolName len) fun _ _ => True := by
  unfold readProtocolName
  apply (yields_protocolIs len 4 MQTT).zero_bind fun isMqtt _ => ?_
  split
  · exact (Yields.advance 4).mono fun _ _ _ => trivial
  · apply (yields_protocolIs len 6 MQISDP).zero_bind fun isMqisdp _ => ?_
    split
    · exact (Yields.advance 6).mono fun _ _ _ => trivial
    · exact Yields.fail

theorem yields_decodeConnectPacket : Yields decodeConnectPacket Packet.ReadFrom := by
  apply (Yields.ensureRemaining 10 _).zero_bind fun _ _ => ?_
  apply Yields.getU16.bind fun len _ _ => ?_
  apply (yields_readProtocolName len).bind fun _ _ _ => ?_
  apply Yields.getU8.bind fun level _ _ => ?_
  apply (Yields.ensure _ _).zero_bind fun _ _ => ?_
  apply Yields.getU8.bind fun b _ _ => ?_
  apply (Yields.okOr _ _).zero_bind fun flags _ => ?_
  apply yields_u16.bind fun keepAlive _ _ => ?_
  apply yields_decode.bind
  rintro clientId _ ⟨clientFits, -⟩
  apply (Yields.ensure _ _).zero_bind fun _ named => ?_
  apply (Yields.readIf _ (yields_decodeLastWill flags)).bind fun lastWill _ willFits => ?_
  apply (Yields.readIf _ yields_decode).bind fun username _ userFits => ?_
  apply (Yields.readIf _ yields_decode).bind fun password _ passFits => ?_
  have fits : Packet.Fits (.connect {
      protocol := level
      cleanSession := contains flags ConnectFlags.CLEAN_START
      keepAlive
      clientId
      lastWill
      username
      password
      cert := none }) :=
    ⟨clientFits, willFits, fun s hs => (userFits s hs).1, fun bs hbs => (passFits bs hbs).1⟩
  refine Yields.pure ⟨fits, ⟨fun empty => ?_, rfl⟩, fun _ => small_connect fits⟩
  rw [empty] at named
  exact named

theorem yields_decodeConnectAckPacket : Yields decodeConnectAckPacket Packet.ReadFrom := by
  apply (Yields.ensureRemaining 2 _).zero_bind fun _ _ => ?_
  apply Yields.getU8.bind
  rintro b _ rfl
  apply (Yields.okOr _ _).zero_bind fun flags _ => ?_
  apply Yields.getU8.bind
  rintro code _ rfl
  exact (Yields.fromOutcome _).zero_bind fun reason _ =>
    Yields.pure (.of_le trivial trivial (Nat.le_refl 2))

theorem yields_readPublishId (qos : QoS) :
    Yields (readPublishId qos) fun packetId n => (packetId.isSome = true ↔ qos ≠ .atMostOnce) ∧
      ((packetId.map fun id => be16 id.val).getD []).length ≤ n := by
  unfold readPublishId
  split
  · rename_i zero
    exact Yields.pure ⟨by simp [zero], Nat.le_refl 0⟩
  · rename_i above
    apply Yields.map
    apply (ExactDecode.yields : Yields (decode : Reader DecodeError NonZeroU16) _).mono
    rintro packetId n ⟨-, rfl⟩
    exact ⟨by simp [above], Nat.le_refl 2⟩

theorem yields_decodePublishPacket (packetFlags : UInt8) :
    Yields (decodePublishPacket packetFlags) Packet.ReadFrom := by
  apply yields_decode.bind
  rintro topic _ ⟨topicFits, rfl⟩
  apply (Yields.fromOutcome _).zero_bind fun qos _ => ?_
  apply (yields_readPublishId qos).bind
  rintro packetId k ⟨some, idSize⟩
  apply Yields.takeRest.bind
  rintro payload _ rfl
  refine Yields.pure (.of_le ⟨topicFits, some⟩ rfl ?_)
  simp only [Packet.content, publishIdImage, List.length_append]
  omega

theorem yields_readTopicFilter :
    Yields readTopicFilter fun f n => Codec.Fits f.1 ∧ (filterImage f).length ≤ n := by
  apply yields_decode.bind
  rintro topic _ ⟨fits, rfl⟩
  apply (Yields.ensureRemaining 1 _).zero_bind fun _ _ => ?_
  apply Yields.getU8.bind
  rintro code _ rfl
  apply (Yields.fromOutcome _).zero_bind fun qos _ => ?_
  refine Yields.pure ⟨fits, ?_⟩
  rw [filterImage, List.length_append]
  exact Nat.le_refl _

theorem yields_decodeSubscribePacket : Yields decodeSubscribePacket Packet.ReadFrom := by
  apply yields_decode.bind
  rintro packetId _ ⟨-, rfl⟩
  apply yields_readTopicFilter.elements.bind
  rintro topicFilters n ⟨fits, size⟩
  refine Yields.pure (.of_le fits trivial ?_)
  rw [Packet.content, List.length_append]
  exact Nat.add_le_add_left size _

theorem yields_decodeSubscribeAckPacket : Yields decodeSubscribeAckPacket Packet.ReadFrom := by
  apply yields_decode.bind
  rintro packetId _ ⟨-, rfl⟩
  apply Yields.takeRest.bind
  rintro codes _ rfl
  apply (Yields.fromOutcome _).zero_bind fun status each => ?_
  refine Yields.pure (.of_le trivial trivial ?_)
  rw [Packet.content, List.length_append, List.length_map, length_of_forEach each]
  exact Nat.le_refl _

theorem yields_decodeUnsubscribePacket : Yields decodeUnsubscribePacket Packet.ReadFrom := by
  have filter : Yields (decode : Reader DecodeError ByteString) fun f n =>
      Codec.Fits f ∧ (Codec.image f).length ≤ n :=
    yields_decode.mono fun _ _ h => ⟨h.1, Nat.le_of_eq h.2⟩
  apply yields_decode.bind
  rintro packetId _ ⟨-, rfl⟩
  apply filter.elements.bind
  rintro topicFilters n ⟨fits, size⟩
  refine Yields.pure (.of_le fits trivial ?_)
  rw [Packet.content, List.length_append]
  exact Nat.add_le_add_left size _

/-- Every packet that is read is within the wire limits, acceptable and short enough. -/
theorem yields_decodePacket (firstByte : UInt8) :
    Yields (decodePacket firstByte) Packet.ReadFrom := by
  have ack : ∀ {p : Packet}, p.Fits → p.Acceptable → p.content.length = 2 → p.ReadFrom 2 :=
    fun fits acceptable size => .of_le fits acceptable (Nat.le_of_eq size)
  have empty : ∀ {p : Packet}, p.Fits → p.Acceptable → p.content.length = 0 → p.ReadFrom 0 :=
    fun fits acceptable size => .of_le fits acceptable (Nat.le_of_eq size)
  unfold decodePacket
  split
  · exact yields_decodePublishPacket _
  · split
    · exact yields_decodeConnectPacket
    · exact yields_decodeConnectAckPacket
    · exact yields_decodeAck fun _ => ack trivial trivial rfl
    · exact yields_decodeAck fun _ => ack trivial trivial rfl
    · exact yields_decodeAck fun _ => ack trivial trivial rfl
    · exact yields_decodeAck fun _ => ack trivial trivial rfl
    · exact yields_decodeSubscribePacket
    · exact yields_decodeSubscribeAckPacket
    · exact yields_decodeUnsubscribePacket
    · exact yields_decodeAck fun _ => ack trivial trivial rfl
    · exact Yields.pure (empty trivial trivial rfl)
    · exact Yields.pure (empty trivial trivial rfl)
    · exact Yields.pure (empty trivial trivial rfl)
    · exact Yields.fail

/-! ## Writing again what was read -/

namespace Packet

theorem Accepted.readFrom {p : Packet} (accepted : p.Accepted) :
    ∃ n, n ≤ MAX_PACKET_SIZE ∧ p.ReadFrom n := by
  rcases accepted with ⟨codec, codec', src, rest, n, fresh, run⟩
  rcases Codec.framed.decode_accepts fresh run with ⟨firstByte, content, left, short, packet⟩
  rcases yields_decodePacket firstByte content p left packet with ⟨k, size, read⟩
  exact ⟨k, by omega, read⟩

/-- An accepted packet comes back as `reread` says. -/
theorem Accepted.reencode {p : Packet} (accepted : p.Accepted) :
    (Codec.new 0).encode p [] = (.ok (), p.frame) ∧
      ∃ n codec, (Codec.new 0).decode p.frame = (.ok (some (p.reread, n)), codec, []) := by
  rcases accepted.readFrom with ⟨n, short, read⟩
  have small : getEncodedSize p ≤ MAX_PACKET_SIZE := length_content read.fits ▸ read.small short
  rcases Codec.decode_frame read.fits read.acceptable small [] with ⟨codec, decoded⟩
  rw [List.append_nil] at decoded
  exact ⟨Codec.writes (Codec.new 0) read.fits small [], _, codec, decoded⟩

theorem reread_eq_self_iff (p : Packet) : p.reread = p ↔ p.HasLevel311 := by
  cases p with
  | connect p =>
      constructor
      · intro same connect h
        cases h
        exact (congrArg Connect.protocol (Packet.connect.inj same)).symm
      · intro level
        rw [reread, ← level p rfl]
  | _ => exact ⟨fun _ connect h => (by cases h), fun _ => rfl⟩

/-- An accepted packet survives being encoded and decoded unless it is a CONNECT of another level
than 4. -/
theorem reencodes_iff {p : Packet} (accepted : p.Accepted) : p.Reencodes ↔ p.HasLevel311 := by
  rcases accepted.reencode with ⟨encoded, n, codec, decoded⟩
  rw [← reread_eq_self_iff]
  constructor
  · rintro ⟨bytes, encoded', m, codec', decoded'⟩
    rw [encoded] at encoded'
    cases encoded'
    rw [decoded] at decoded'
    exact congrArg Prod.fst (Option.some.inj (Outcome.ok.inj (congrArg Prod.fst decoded')))
  · intro same
    rw [same] at decoded
    exact ⟨p.frame, encoded, n, codec, decoded⟩

end Packet

end OxiMqtt.Codec.V3

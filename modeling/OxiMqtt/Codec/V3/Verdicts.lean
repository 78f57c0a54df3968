import OxiMqtt.Lib.Verdict
import OxiMqtt.Codec.V3.Encode

/-!
# When the MQTT 3.1.1 encoder stops, and how

A value on its own is written if it is within its wire limit, and is an error otherwise (`Judged`).
The encoder of a packet writes the first byte and the announced size before it looks at the fields.

* `encode_verdict`: which packets the codec writes, which ones it answers with an error, and which
  ones are a fault.
* `encode_err_grows`: an error that comes after the first byte leaves that byte in the buffer.
-/

namespace OxiMqtt.Codec

open Wire Wire.ByteWriter

/-! ## Single values -/

/-- A type whose encoder succeeds exactly on the values within the limits of the format, and stops
with an error on the others. -/
class Judged (α : Type) [Encode α] [Decode α] [WireType α] : Prop where
  checks : ∀ a : α, Checks (encode a) (Fits a)

instance : Judged Bool where
  checks _ := (Writes.putU8 _).checks

instance : Judged UInt16 where
  checks n := (Writes.putU16 n).checks

instance : Judged NonZeroU16 where
  checks n := (Writes.putU16 n.val).checks

instance : Judged UInt32 where
  checks n := (Writes.putU32 n).checks

instance : Judged NonZeroU32 where
  checks n := (Writes.putU32 n.val).checks

instance : Judged Bytes where
  checks bs := by
    change Checks (if bs.length < 65536 then _ else _) (bs.length ≤ 65535)
    by_cases fits : bs.length < 65536
    · rw [if_pos fits]
      exact ((Writes.putU16 _).bind (Writes.putSlice bs)).checks.congr (by simp; omega)
    · rw [if_neg fits]
      exact (Checks.fail _).congr (by simp; omega)

instance : Judged ByteString where
  checks s := Judged.checks (ByteString.asBytes s)

instance : Judged UserProperty where
  checks p := (Judged.checks p.1).bind (Judged.checks p.2)

namespace V3

/-! ## The fields of a packet -/

theorem checks_encodeConnect (p : Connect) : Checks (encodeConnect p) (Packet.connect p).Fits := by
  have name : Codec.Fits (protocolName p.protocol) := by
    unfold protocolName
    split
    · exact show MQISDP.length ≤ 65535 by decide
    · exact show MQTT.length ≤ 65535 by decide
  have will : Checks (forSome p.lastWill fun will => do
      Encode.encode will.topic
      Encode.encode will.message)
      (∀ will ∈ p.lastWill, Codec.Fits will.topic ∧ Codec.Fits will.message) :=
    Checks.forSome fun w => (Judged.checks w.topic).bind (Judged.checks w.message)
  have username : Checks (forSome p.username Encode.encode) (∀ s ∈ p.username, Codec.Fits s) :=
    Checks.forSome Judged.checks
  have password : Checks (forSome p.password Encode.encode) (∀ bs ∈ p.password, Codec.Fits bs) :=
    Checks.forSome Judged.checks
  refine ((Judged.checks (protocolName p.protocol)).bind ((Writes.putSlice _).checks.bind
    ((Writes.putU16 _).checks.bind ((Judged.checks p.clientId).bind
    (will.bind (username.bind password)))))).congr ?_
  exact ⟨fun h => h.2.2.2, fun h => ⟨name, trivial, trivial, h⟩⟩

/-- The packet id of a PUBLISH is an error where it is missing, and where there should be none. -/
theorem checks_encodePublishId (p : Publish) :
    Checks (encodePublishId p) (p.packetId.isSome = true ↔ p.qos ≠ .atMostOnce) := by
  unfold encodePublishId
  by_cases zero : p.qos = .atMostOnce
  · rw [if_pos zero]
    refine (Checks.ite (Checks.fail EncodeError.malformedPacket) Checks.pure).congr ?_
    cases p.packetId <;> simp [zero]
  · rw [if_neg zero]
    exact (Checks.bind_okOr fun id : NonZeroU16 => (Writes.putU16 id.val).checks).congr
      (by simp [zero])

/-! ## Packets -/

/-- A frame of an announced size that can be written: how it ends is decided by the content, and the
first byte stays. -/
theorem frame_verdict {firstByte : UInt8} {n : Nat} {w : ByteWriter EncodeError Unit} {S F : Prop}
    (small : n ≤ MAX_PACKET_SIZE) (h : Ends w S F) (dst : Bytes) :
    dst ++ [firstByte] <+: (encodeFrame firstByte n w dst).2 ∧
      Verdict S F (encodeFrame firstByte n w dst).1 := by
  have size := (writes_writeVariableLength small).checks
  have run := (size.bind_ends (f := fun _ => w) fun _ => h) (dst ++ [firstByte])
  refine ⟨run.1, run.2.congr ?_ ?_⟩
  · exact ⟨And.right, fun s => ⟨trivial, s⟩⟩
  · exact ⟨fun f => f trivial, fun f _ => f⟩

/-- A size that cannot be announced is a fault. -/
theorem frame_fault {firstByte : UInt8} {n : Nat} (large : MAX_PACKET_SIZE < n)
    (w : ByteWriter EncodeError Unit) (dst : Bytes) :
    (encodeFrame firstByte n w dst).1 = .fault .assertion := by
  rw [encodeFrame, writeVariableLength_of_large large]
  rfl

/-- A frame without content. -/
theorem slice_verdict (firstByte : UInt8) (dst : Bytes) :
    dst ++ [firstByte] <+: ((putSlice [firstByte, 0] : ByteWriter EncodeError Unit) dst).2 ∧
      Verdict True (¬True) ((putSlice [firstByte, 0] : ByteWriter EncodeError Unit) dst).1 := by
  refine ⟨?_, trivial, fun f => f trivial⟩
  exact (List.prefix_append_right_inj dst).mpr ⟨[0], rfl⟩

/-- With an announced size that can be written, a packet is written if its fields are within their
limits, and is an error otherwise; in both cases its first byte is in the buffer. -/
theorem packet_verdict (p : Packet) {n : Nat} (small : n ≤ MAX_PACKET_SIZE) (dst : Bytes) :
    dst ++ [p.firstByte] <+: (V3.encode n p dst).2 ∧
      Verdict p.Fits (¬p.Fits) (V3.encode n p dst).1 := by
  cases p with
  | connect p => exact frame_verdict small (checks_encodeConnect p) dst
  | connectAck p => exact frame_verdict small (Writes.putSlice _).checks dst
  | publish p =>
      refine frame_verdict small (Checks.congr ((Judged.checks p.topic).bind
        ((checks_encodePublishId p).bind (Writes.putSlice _).checks)) ?_) dst
      exact ⟨fun h => ⟨h.1, h.2.1⟩, fun h => ⟨h.1, h.2, trivial⟩⟩
  | publishAck packetId => exact frame_verdict small (Writes.putU16 _).checks dst
  | publishReceived packetId => exact frame_verdict small (Writes.putU16 _).checks dst
  | publishRelease packetId => exact frame_verdict small (Writes.putU16 _).checks dst
  | publishComplete packetId => exact frame_verdict small (Writes.putU16 _).checks dst
  | subscribe packetId topicFilters =>
      have filter : ∀ f : ByteString × QoS,
          Checks (do Encode.encode f.1; putU8 (toU8 f.2)) (Codec.Fits f.1) := fun f =>
        ((Judged.checks f.1).bind (Writes.putU8 _).checks).congr (and_iff_left trivial)
      exact frame_verdict small (((Writes.putU16 _).checks.bind
        (Checks.forEach topicFilters filter)).congr (and_iff_right trivial)) dst
  | subscribeAck packetId status =>
      exact frame_verdict small (((Writes.putU16 _).checks.bind
        (Writes.putSlice _).checks).congr (and_iff_right trivial)) dst
  | unsubscribe packetId topicFilters =>
      exact frame_verdict small (((Writes.putU16 _).checks.bind
        (Checks.forEach topicFilters Judged.checks)).congr (and_iff_right trivial)) dst
  | unsubscribeAck packetId => exact frame_verdict small (Writes.putU16 _).checks dst
  | pingRequest => exact slice_verdict _ dst
  | pingResponse => exact slice_verdict _ dst
  | disconnect => exact slice_verdict _ dst

/-- With a size that cannot be announced, a packet is a fault. -/
theorem packet_fault {p : Packet} {n : Nat} (large : MAX_PACKET_SIZE < n)
    (content : 0 < getEncodedSize p) (dst : Bytes) :
    (V3.encode n p dst).1 = .fault .assertion := by
  cases p with
  | pingRequest => cases content
  | pingResponse => cases content
  | disconnect => cases content
  | _ => exact frame_fault large _ dst

end V3

end OxiMqtt.Codec

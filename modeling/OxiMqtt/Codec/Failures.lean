import OxiMqtt.Codec.V5.Verdicts

/-!
# Encoders that abort, and what a failed encoder leaves behind

Both codecs write the first byte and the announced size of a frame before they look at its fields.
The MQTT 3.1.1 codec announces a size that nobody has checked; the MQTT 5 codec compares it with the
limit that the client has chosen.  The MQTT 5 encoder is taken with its machine arithmetic
(`V5.Debug`).

* `encode_returns_iff`: when the encoders return, with a content size that fits the word it is
  converted to.
* `encode_keeps_buffer_iff`: when an error leaves the buffer as it was.
-/

namespace OxiMqtt.Codec

open Wire Wire.ByteWriter

/-! ## The MQTT 3.1.1 encoder -/

namespace V3

theorem encode_fault {c : Codec} {p : Packet} {dst : Bytes} (some : lacksPacketId p = false)
    (large : MAX_PACKET_SIZE < getEncodedSize p % 2 ^ 32) :
    (c.encode p dst).1 = .fault .assertion := by
  have content : 0 < getEncodedSize p := by omega
  rw [Codec.encode, some, if_neg Bool.false_ne_true]
  exact packet_fault large content dst

/-- A publish above QoS 0 without a packet id is refused before anything is written; otherwise the
announced size decides first, and then the fields. -/
theorem encode_cases (c : Codec) (p : Packet) (dst : Bytes) :
    (lacksPacketId p = true ∧ c.encode p dst = (.err .packetIdRequired, dst)) ∨
      lacksPacketId p = false ∧
        (MAX_PACKET_SIZE < getEncodedSize p % 2 ^ 32 ∧ (c.encode p dst).1 = .fault .assertion ∨
          getEncodedSize p % 2 ^ 32 ≤ MAX_PACKET_SIZE ∧
            dst ++ [p.firstByte] <+: (c.encode p dst).2 ∧
            Verdict p.Fits (¬p.Fits) (c.encode p dst).1) := by
  cases lacks : lacksPacketId p with
  | true =>
      rw [Codec.encode, lacks]
      exact .inl ⟨rfl, rfl⟩
  | false =>
      rcases Nat.lt_or_ge MAX_PACKET_SIZE (getEncodedSize p % 2 ^ 32) with large | small
      · exact .inr ⟨rfl, .inl ⟨large, encode_fault lacks large⟩⟩
      · rw [Codec.encode, lacks, if_neg Bool.false_ne_true]
        exact .inr ⟨rfl, .inr ⟨small, packet_verdict p small dst⟩⟩

end V3

/-! ## The MQTT 5 encoder -/

namespace V5

/-- The size pass decides first: it overflows, or the content is above the limit of the client, or
its size cannot be announced; otherwise the fields decide. -/
theorem debug_encode_cases (c : Codec) (p : Packet) (dst : Bytes) :
    (¬((c.outgoing p).LimitCovers c.maxSize ∧ (c.outgoing p).SumsInRange c.maxSize) ∧
        (Debug.encode c p dst).1 = .fault .overflow) ∨
      ∃ n, (c.outgoing p).encodedSize c.maxSize = .ok n ∧
        Debug.Packet.encodedSize c.maxSize (c.outgoing p) = .value n ∧
        ((c.outgoing p).LimitCovers c.maxSize ∧ (c.outgoing p).SumsInRange c.maxSize) ∧
        (c.maxSize < n ∧ (∃ e, Debug.encode c p dst = (.err e, dst)) ∨
          n ≤ c.maxSize ∧ MAX_PACKET_SIZE < n ∧ (Debug.encode c p dst).1 = .fault .assertion ∨
          n ≤ c.maxSize ∧ n ≤ MAX_PACKET_SIZE ∧
            dst ++ [(c.outgoing p).firstByte] <+: (Debug.encode c p dst).2 ∧
            Verdict ((c.outgoing p).cut c.maxSize).Fits
              (¬(c.outgoing p).FieldsAccepted c.maxSize) (Debug.encode c p dst).1) := by
  rcases (c.outgoing p).debug_encodedSize c.maxSize_lt with ⟨n, value, exact⟩
  by_cases conditions : (c.outgoing p).LimitCovers c.maxSize ∧ (c.outgoing p).SumsInRange c.maxSize
  · have size := exact conditions.1
    refine .inr ⟨n, size, value.1 conditions, conditions, ?_⟩
    rw [debug_encode_eq conditions.1 conditions.2]
    rcases Nat.lt_or_ge c.maxSize n with above | within
    · exact .inl ⟨above, _, by rw [Codec.encode_of_above size above]; rfl⟩
    · rw [Codec.encode_of_within size within]
      rcases Nat.lt_or_ge MAX_PACKET_SIZE n with large | small
      · exact .inr (.inl ⟨within, large, Packet.fault_of_large size large dst⟩)
      · exact .inr (.inr ⟨within, small, Packet.verdict size small dst⟩)
  · refine .inl ⟨conditions, ?_⟩
    rw [Debug.encode, value.2 conditions]
    rfl

end V5

/-! ## Encoders that return -/

namespace V3

/-- The encoder returns, and a content size that is converted to 32 bits has as many. -/
def EncodesSafely (c : Codec) (p : Packet) (dst : Bytes) : Prop :=
  Returns (c.encode p dst).1 ∧ (lacksPacketId p = false → getEncodedSize p < 2 ^ 32)

theorem encodesSafely_iff (c : Codec) (p : Packet) (dst : Bytes) :
    EncodesSafely c p dst ↔ lacksPacketId p = true ∨ getEncodedSize p ≤ MAX_PACKET_SIZE := by
  have max : MAX_PACKET_SIZE < 2 ^ 32 := by decide
  unfold EncodesSafely
  rcases encode_cases c p dst with ⟨lacks, run⟩ | ⟨some, ⟨large, run⟩ | ⟨small, -, verdict⟩⟩
  · rw [run, lacks]
    exact iff_of_true ⟨fun x => by simp, fun h => by cases h⟩ (.inl rfl)
  · refine iff_of_false (fun h => h.1 _ run) ?_
    rw [some, not_or]
    exact ⟨Bool.false_ne_true, by have := Nat.mod_le (getEncodedSize p) (2 ^ 32); omega⟩
  · rw [verdict.returns_iff, some]
    constructor
    · intro h
      rw [Nat.mod_eq_of_lt (h.2 rfl)] at small
      exact .inr small
    · intro h
      have bound := h.resolve_left Bool.false_ne_true
      exact ⟨Classical.em _, fun _ => Nat.lt_of_le_of_lt bound max⟩

end V3

namespace V5

/-- The encoder returns, and the content size that it converts to 32 bits has as many. -/
def EncodesSafely (c : Codec) (p : Packet) (dst : Bytes) : Prop :=
  Returns (Debug.encode c p dst).1 ∧
    ∀ n, Debug.Packet.encodedSize c.maxSize (c.outgoing p) = .value n → n < 2 ^ 32

/-- The sums and differences of the size pass stay in range, its result has 32 bits, and unless that
is above the limit, it can be announced and so can the subscription identifiers. -/
structure Packet.Encodable (limit : Nat) (p : Packet) : Prop where
  covers : p.LimitCovers limit
  sums : p.SumsInRange limit
  words : ∀ n, p.encodedSize limit = .ok n → n < 2 ^ 32
  announced : ∀ n, p.encodedSize limit = .ok n → n ≤ limit → n ≤ MAX_PACKET_SIZE
  ids : ∀ n, p.encodedSize limit = .ok n → n ≤ limit → p.IdsEncodable

theorem encodesSafely_iff (c : Codec) (p : Packet) (dst : Bytes) :
    EncodesSafely c p dst ↔ (c.outgoing p).Encodable c.maxSize := by
  unfold EncodesSafely
  rcases debug_encode_cases c p dst with
    ⟨violated, run⟩ | ⟨n, size, value, conditions, ⟨above, e, run⟩ | ⟨within, large, run⟩ |
      ⟨within, small, -, verdict⟩⟩
  · exact iff_of_false (fun h => h.1 _ run) fun h => violated ⟨h.covers, h.sums⟩
  · -- the content is above the limit: its size is only reported
    rw [run, value]
    constructor
    · intro h
      refine ⟨conditions.1, conditions.2, fun m hm => ?_, fun m hm le => ?_, fun m hm le => ?_⟩
      · cases size.symm.trans hm
        exact h.2 n rfl
      · cases size.symm.trans hm
        omega
      · cases size.symm.trans hm
        omega
    · intro h
      refine ⟨fun x => by simp, fun m hm => ?_⟩
      cases hm
      exact h.words n size
  · refine iff_of_false (fun h => h.1 _ run) fun h => ?_
    exact absurd (h.announced n size within) (Nat.not_le_of_lt large)
  · rw [verdict.returns_iff, Packet.fits_or_error_iff, value]
    constructor
    · intro h
      refine ⟨conditions.1, conditions.2, fun m hm => ?_, fun m hm _ => ?_, fun _ _ _ => h.1⟩
      · cases size.symm.trans hm
        exact h.2 n rfl
      · cases size.symm.trans hm
        exact small
    · intro h
      refine ⟨h.ids n size within, fun m hm => ?_⟩
      cases hm
      exact h.words n size

end V5

/-- The encoders return, and convert no content size to a word that is too short for it, exactly on
these packets: for MQTT 3.1.1, a publish that is refused for want of a packet id, or a content size
that can be announced; for MQTT 5, `V5.Packet.Encodable` under the limit of the client. -/
theorem encode_returns_iff (dst : Bytes) :
    (∀ (c : V3.Codec) (p : V3.Packet), V3.EncodesSafely c p dst ↔
      V3.lacksPacketId p = true ∨ V3.getEncodedSize p ≤ MAX_PACKET_SIZE) ∧
    ∀ (c : V5.Codec) (p : V5.Packet), V5.EncodesSafely c p dst ↔
      (c.outgoing p).Encodable c.maxSize :=
  ⟨fun c p => V3.encodesSafely_iff c p dst, fun c p => V5.encodesSafely_iff c p dst⟩

/-- A publish of a payload of zeros. -/
def zeros (n : Nat) : Publish where
  dup := false
  retain := false
  qos := .atMostOnce
  topic := "t"
  packetId := none
  payload := List.replicate n 0
  properties := none

theorem size_zeros (n : Nat) : V3.getEncodedSize (.publish (zeros n)) = 3 + n := by
  have topic : ByteString.len "t" = 1 := by decide
  simp [V3.getEncodedSize, V3.getEncodedPublishSize, zeros, topic]

/-- With a payload of `2 ^ 28` bytes, encoding it for an MQTT 3.1.1 client is a panic. -/
theorem zeros_panics :
    ((V3.Codec.new 0).encode (.publish (zeros (2 ^ 28))) []).1 = .fault .assertion := by
  apply V3.encode_fault
  · rfl
  · rw [size_zeros]
    decide

/-! ## Errors that leave the buffer alone -/

namespace V3

/-- An error leaves the buffer as it was. -/
def KeepsBuffer (c : Codec) (p : Packet) (dst : Bytes) : Prop :=
  ∀ e dst', c.encode p dst = (.err e, dst') → dst' = dst

theorem keepsBuffer_iff (c : Codec) (p : Packet) (dst : Bytes) :
    KeepsBuffer c p dst ↔ lacksPacketId p = true ∨
      MAX_PACKET_SIZE < getEncodedSize p % 2 ^ 32 ∨ p.Fits := by
  unfold KeepsBuffer
  rcases encode_cases c p dst with ⟨lacks, run⟩ | ⟨some, ⟨large, run⟩ | ⟨small, grows, verdict⟩⟩
  · refine iff_of_true (fun e dst' h => ?_) (.inl lacks)
    cases run.symm.trans h
    rfl
  · refine iff_of_true (fun e dst' h => ?_) (.inr (.inl large))
    rw [h] at run
    cases run
  · refine (verdict.keeps_iff grows).trans ?_
    rw [some, Classical.not_not]
    exact ⟨fun fits => .inr (.inr fits), fun h => (h.resolve_left Bool.false_ne_true).resolve_left
      (Nat.not_lt_of_le small)⟩

end V3

namespace V5

/-- An error leaves the buffer as it was. -/
def KeepsBuffer (c : Codec) (p : Packet) (dst : Bytes) : Prop :=
  ∀ e dst', Debug.encode c p dst = (.err e, dst') → dst' = dst

/-- If the size pass stays in range and its result is within the limit and can be announced, then no
field that the encode pass reaches is an error. -/
def Packet.FailsBeforeWriting (limit : Nat) (p : Packet) : Prop :=
  p.LimitCovers limit → p.SumsInRange limit → ∀ n, p.encodedSize limit = .ok n → n ≤ limit →
    n ≤ MAX_PACKET_SIZE → p.FieldsAccepted limit

theorem keepsBuffer_iff (c : Codec) (p : Packet) (dst : Bytes) :
    KeepsBuffer c p dst ↔ (c.outgoing p).FailsBeforeWriting c.maxSize := by
  unfold KeepsBuffer
  rcases debug_encode_cases c p dst with
    ⟨violated, run⟩ | ⟨n, size, value, conditions, ⟨above, e, run⟩ | ⟨within, large, run⟩ |
      ⟨within, small, grows, verdict⟩⟩
  · refine iff_of_true (fun e dst' h => ?_) fun covers sums => absurd ⟨covers, sums⟩ violated
    rw [h] at run
    cases run
  · refine iff_of_true (fun e dst' h => ?_) fun _ _ m hm le _ => ?_
    · cases run.symm.trans h
      rfl
    · cases size.symm.trans hm
      omega
  · refine iff_of_true (fun e dst' h => ?_) fun _ _ m hm _ le => ?_
    · rw [h] at run
      cases run
    · cases size.symm.trans hm
      omega
  · refine (verdict.keeps_iff grows).trans ?_
    rw [Classical.not_not]
    exact ⟨fun accepted _ _ _ _ _ _ => accepted,
      fun h => h conditions.1 conditions.2 n size within small⟩

end V5

/-- An encoder that fails leaves the buffer as it was exactly on these packets: for MQTT 3.1.1, a
publish that is refused for want of a packet id, a size that is a panic, or fields that are all
accepted; for MQTT 5, `V5.Packet.FailsBeforeWriting` under the limit of the client. -/
theorem encode_keeps_buffer_iff (dst : Bytes) :
    (∀ (c : V3.Codec) (p : V3.Packet), V3.KeepsBuffer c p dst ↔ V3.lacksPacketId p = true ∨
      MAX_PACKET_SIZE < V3.getEncodedSize p % 2 ^ 32 ∨ p.Fits) ∧
    ∀ (c : V5.Codec) (p : V5.Packet), V5.KeepsBuffer c p dst ↔
      (c.outgoing p).FailsBeforeWriting c.maxSize :=
  ⟨fun c p => V3.keepsBuffer_iff c p dst, fun c p => V5.keepsBuffer_iff c p dst⟩

/-- A publish at QoS 0 that has kept a packet id. -/
def strayId : Publish where
  dup := false
  retain := false
  qos := .atMostOnce
  topic := "t"
  packetId := some ⟨23, by decide⟩
  payload := [7]
  properties := none

/-- It is refused with the header, the announced size and the topic in the buffer. -/
theorem strayId_leaves_partial_frame :
    (V3.Codec.new 0).encode (.publish strayId) [] =
      (.err .malformedPacket, [0x30, 4, 0, 1, 116]) := by
  decide

end OxiMqtt.Codec

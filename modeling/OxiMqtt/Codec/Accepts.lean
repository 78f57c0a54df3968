import OxiMqtt.Codec.Framing
import OxiMqtt.Lib.Yields

/-!
# What the decoders accept

The decoders of `codec/utils.rs` read from the other side: whatever bytes they accept, the value
they return is within the limits of the wire format, and it takes no more bytes to write than were
consumed for it.

* `ExactDecode`: a value takes exactly the bytes that the size pass counts for it.
* `yields_decodeVariableLengthCursor`: an integer may be written with more bytes than it needs,
  never with fewer.
* `yields_readProperties`: so may a property block, whatever the order of its properties.
* `Framed.decode_accepts`: a frame that is accepted has a content that the packet decoder accepts.
-/

namespace OxiMqtt.Codec

open Wire Wire.Reader Wire.ByteWriter

/-! ## Single values -/

/-- A decoder that returns values within their limits, and takes the bytes that the size pass
counts for them. -/
class ExactDecode (α : Type) [Encode α] [Decode α] [WireType α] : Prop where
  yields : Yields (decode : Reader DecodeError α) fun a n => Fits a ∧ encodedSize a = n

theorem ByteString.asBytes_of_tryFrom {bs : Bytes} {s : ByteString} (h : tryFrom bs = some s) :
    asBytes s = bs := by
  unfold tryFrom String.fromUTF8? at h
  split at h
  · cases h
    rfl
  · cases h

theorem yields_u16 : Yields (decode : Reader DecodeError UInt16) fun _ n => n = 2 :=
  (Yields.ensureRemaining 2 _).zero_bind fun _ _ => Yields.getU16

theorem yields_u32 : Yields (decode : Reader DecodeError UInt32) fun _ n => n = 4 :=
  (Yields.ensureRemaining 4 _).zero_bind fun _ _ => Yields.getU32

instance : ExactDecode Bool where
  yields := by
    apply (Yields.ensureRemaining 1 _).zero_bind fun _ _ => ?_
    apply Yields.getU8.bind
    rintro v n rfl
    exact (Yields.ensure _ _).zero_bind fun _ _ => Yields.pure ⟨trivial, rfl⟩

instance : ExactDecode UInt16 where
  yields := yields_u16.mono fun _ _ len => ⟨trivial, len.symm⟩

instance : ExactDecode UInt32 where
  yields := yields_u32.mono fun _ _ len => ⟨trivial, len.symm⟩

instance : ExactDecode NonZeroU16 where
  yields := by
    apply yields_u16.bind
    rintro v n rfl
    apply (Yields.okOr _ _).mono
    rintro a m ⟨-, rfl⟩
    exact ⟨trivial, rfl⟩

instance : ExactDecode NonZeroU32 where
  yields := by
    apply yields_u32.bind
    rintro v n rfl
    apply (Yields.okOr _ _).mono
    rintro a m ⟨-, rfl⟩
    exact ⟨trivial, rfl⟩

instance : ExactDecode Bytes where
  yields := by
    apply yields_u16.bind
    rintro len n rfl
    apply (Yields.ensureRemaining len.toNat _).zero_bind fun _ _ => ?_
    apply (Yields.splitTo len.toNat).mono
    rintro bs m ⟨size, rfl⟩
    have bound := len.toNat_lt
    constructor
    · change bs.length ≤ 65535
      omega
    · change 2 + bs.length = _
      omega

instance : ExactDecode ByteString where
  yields := by
    apply (ExactDecode.yields : Yields (decode : Reader DecodeError Bytes) _).bind
    rintro bs n ⟨fits, size⟩
    apply (Yields.okOr _ _).mono
    rintro s m ⟨text, rfl⟩
    have bytes := ByteString.asBytes_of_tryFrom text
    constructor
    · change Fits (ByteString.asBytes s)
      rwa [bytes]
    · change encodedSize (ByteString.asBytes s) = _
      rwa [bytes]

instance : ExactDecode UserProperty where
  yields := by
    apply (ExactDecode.yields : Yields (decode : Reader DecodeError ByteString) _).bind
    rintro key n ⟨keyFits, rfl⟩
    apply (ExactDecode.yields : Yields (decode : Reader DecodeError ByteString) _).bind
    rintro val m ⟨valFits, rfl⟩
    exact Yields.pure ⟨⟨keyFits, valFits⟩, rfl⟩

section Decode

variable {α : Type} [Encode α] [Decode α] [WireType α] [ExactDecode α]

theorem yields_decode :
    Yields (decode : Reader DecodeError α) fun a n => Fits a ∧ (image a).length = n := by
  apply ExactDecode.yields.mono
  rintro a n ⟨fits, size⟩
  exact ⟨fits, (WireType.length_image a).trans size⟩

end Decode

theorem yields_protocolIs (len : UInt16) (k : Nat) (name : Bytes) :
    Yields (protocolIs len k name) fun _ n => True ∧ n = 0 := by
  unfold protocolIs
  split
  · exact (Yields.peek k).map
  · exact Yields.pure ⟨trivial, rfl⟩

/-! ## Variable-length integers -/

/-- Every byte adds seven bits, and there are at most four of them. -/
theorem yields_variableLengthLoop {read len : Nat} (room : read ≤ 3) (low : len < 2 ^ (7 * read)) :
    Yields (variableLengthLoop (7 * read) len) fun v n =>
      v < 2 ^ (7 * (read + n)) ∧ read + n ≤ 4 ∧ 1 ≤ n := by
  intro src v rest run
  induction src generalizing read len with
  | nil => cases run
  | cons val src ih =>
      have bits : (val &&& 0x7F).toNat < 128 := by
        rw [UInt8.toNat_and, show (0x7F : UInt8).toNat = 2 ^ 7 - 1 by rfl,
          Nat.and_two_pow_sub_one_eq_mod]
        omega
      have next : len + (val &&& 0x7F).toNat <<< (7 * read) < 2 ^ (7 * (read + 1)) := by
        have scaled : (val &&& 0x7F).toNat * 2 ^ (7 * read) ≤ 127 * 2 ^ (7 * read) :=
          Nat.mul_le_mul_right _ (Nat.le_of_lt_succ bits)
        rw [Nat.shiftLeft_eq, Nat.mul_add, Nat.pow_add, Nat.mul_comm (2 ^ (7 * read)),
          show 2 ^ (7 * 1) = 128 by rfl]
        omega
      rw [variableLengthLoop] at run
      split at run
      · cases run
        exact ⟨1, Nat.add_comm _ _, next, by omega, Nat.le_refl 1⟩
      · split at run
        · rename_i more
          have onward : 7 * read + 7 = 7 * (read + 1) := rfl
          rw [onward] at run
          rcases ih (by omega) next run with ⟨n, size, value, few, -⟩
          rw [Nat.add_assoc, Nat.add_comm 1 n] at value few
          exact ⟨n + 1, by rw [List.length_cons, size]; omega, value, few, Nat.le_add_left 1 n⟩
        · cases run

/-- An integer is below `2 ^ 28`, and took at least the bytes that it needs. -/
theorem yields_decodeVariableLengthCursor :
    Yields decodeVariableLengthCursor fun v n => v ≤ MAX_PACKET_SIZE ∧ (varInt v).length ≤ n := by
  apply (yields_variableLengthLoop (Nat.zero_le 3) (Nat.lt_add_one 0)).mono
  rintro v n ⟨value, few, some⟩
  have sizes : n = 1 ∨ n = 2 ∨ n = 3 ∨ n = 4 := by omega
  rw [length_varInt]
  unfold MAX_PACKET_SIZE
  rcases sizes with rfl | rfl | rfl | rfl
  all_goals
    simp only [Nat.reduceMul, Nat.reduceAdd, Nat.reducePow] at value
    refine ⟨by omega, ?_⟩
    split_ifs <;> omega

/-- A length field does not grow when the length does not. -/
theorem varInt_add_mono {n m : Nat} (h : n ≤ m) :
    (varInt n).length + n ≤ (varInt m).length + m := by
  rw [length_varInt, length_varInt]
  split_ifs <;> omega

/-! ## Property blocks -/

theorem yields_takeProperties :
    Yields takeProperties fun bs n =>
      bs.length ≤ MAX_PACKET_SIZE ∧ (varInt bs.length).length + bs.length ≤ n := by
  apply yields_decodeVariableLengthCursor.bind
  rintro len n ⟨small, size⟩
  apply (Yields.ensureRemaining len _).zero_bind fun _ _ => ?_
  apply (Yields.splitTo len).mono
  rintro bs m ⟨rfl, rfl⟩
  exact ⟨small, by omega⟩

/-- What holds of the properties in a block: if every property adds no more to the size of the
accumulator than the bytes it was read from, the block is as long as the size, or longer. -/
theorem yields_readProperties {σ : Type} {read : σ → UInt8 → Reader DecodeError σ} {init : σ}
    {Good : σ → Prop} {size : σ → Nat}
    (step : ∀ acc tag, Good acc → Yields (read acc tag) fun acc' n =>
      Good acc' ∧ size acc' ≤ size acc + (1 + n))
    (good : Good init) (empty : size init = 0) :
    Yields (readProperties read init) fun acc n =>
      Good acc ∧ size acc ≤ MAX_PACKET_SIZE ∧ (varInt (size acc)).length + size acc ≤ n := by
  have loop : Yields (whileRemaining (fun acc => getU8 >>= read acc) init) fun acc n =>
      Good acc ∧ size acc ≤ n := by
    apply Yields.whileRemaining
    · rintro acc k ⟨inv, sum⟩
      apply Yields.getU8.bind
      rintro tag n rfl
      apply (step acc tag inv).mono
      rintro acc' m ⟨inv', more⟩
      exact ⟨inv', by omega⟩
    · exact ⟨good, Nat.le_of_eq empty⟩
  apply yields_takeProperties.bind
  rintro bs n ⟨small, block⟩
  apply (Yields.within loop).mono
  rintro acc m ⟨⟨k, inside, inv, sum⟩, rfl⟩
  have shorter := varInt_add_mono (Nat.le_trans sum inside)
  exact ⟨inv, by omega, by omega⟩

/-! ## Frames -/

theorem decodeVariableLength_small {src : Bytes} {n consumed : Nat}
    (h : decodeVariableLength src = .ok (some (n, consumed))) : n ≤ MAX_PACKET_SIZE := by
  unfold decodeVariableLength at h
  split at h
  · rename_i len cur run
    rcases yields_decodeVariableLengthCursor src len cur run with ⟨_, -, small, -⟩
    cases h
    exact small
  · cases h
  · cases h
  · cases h

/-- A packet that a codec at the start of a frame returns is what the packet decoder has found in
the content of the frame. -/
theorem Framed.decode_accepts {κ π : Type} (codec : Framed κ π) {c c' : κ} {src rest : Bytes}
    {p : π} {n : Nat} (fresh : codec.state c = .frameHeader)
    (h : codec.decode c src = (.ok (some (p, n)), c', rest)) :
    ∃ firstByte content left, content.length ≤ MAX_PACKET_SIZE ∧
      codec.decodePacket firstByte content = .ok (p, left) := by
  rcases codec.decode_item h with ⟨state, run, -⟩
  rw [fresh] at run
  rcases decodeHeader_item run with ⟨firstByte, b, src', consumed, rfl, header, -, body⟩
  have small := decodeVariableLength_small header
  unfold decodeFrame at body
  dsimp only at body
  split at body
  · cases body
  · rcases packet : codec.decodePacket firstByte (((b :: src').drop consumed).take n)
      with ⟨q, left⟩ | e | x
    · rw [packet] at body
      cases body
      refine ⟨firstByte, _, left, ?_, packet⟩
      rw [List.length_take]
      omega
    · rw [packet] at body
      cases body
    · rw [packet] at body
      cases body

end OxiMqtt.Codec

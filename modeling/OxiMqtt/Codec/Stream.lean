import OxiMqtt.Codec.V3.Decode
import OxiMqtt.Codec.V5.Codec

/-!
# Receiving a byte stream

What holds of the receiving side of both codecs, for any bytes a peer may send.

* `decodePacket_total`: the packet decoders return a packet or an error on every
  input; they never read past the end of their buffer, and no loop of theirs stalls.
* `receive_chunks`: the packets a stream is decoded to, and the error it ends with,
  do not depend on how the stream arrives, and no packet is above the size limit.
-/

namespace OxiMqtt.Codec

set_option linter.dupNamespace false

open Wire Wire.Reader

/-- A safe decoder returns or reports an error. -/
theorem total_of_safe {α : Type} {d : Reader DecodeError α} (safe : Safe 0 d 0 0) (src : Bytes) :
    (∃ a rest, d src = .ok (a, rest)) ∨ ∃ e, d src = .err e := by
  rcases h : d src with ⟨a, rest⟩ | e | f
  · exact .inl ⟨a, rest, rfl⟩
  · exact .inr ⟨e, rfl⟩
  · exact (safe.ne_fault src f h).elim

/-- On any first byte and any bytes, both packet decoders return a packet or an
error. -/
theorem decodePacket_total (firstByte : UInt8) (src : Bytes) :
    ((∃ p rest, V3.decodePacket firstByte src = .ok (p, rest)) ∨
        ∃ e, V3.decodePacket firstByte src = .err e) ∧
      ((∃ p rest, V5.decodePacket firstByte src = .ok (p, rest)) ∨
        ∃ e, V5.decodePacket firstByte src = .err e) :=
  ⟨total_of_safe (V3.safe_decodePacket firstByte) src,
    total_of_safe (V5.safe_decodePacket firstByte) src⟩

/-- Append the chunks to the buffer of a codec one at a time, and call `decode` until
it returns `None` after each: the packets, and the first error if there is one. -/
def V3.Codec.receive (c : V3.Codec) (chunks : List Bytes) :
    List (V3.Packet × Nat) × Outcome DecodeError Unit :=
  framed.incremental.feed c [] chunks

@[inherit_doc V3.Codec.receive]
def V5.Codec.receive (c : V5.Codec) (chunks : List Bytes) :
    List (V5.Packet × Nat) × Outcome DecodeError Unit :=
  framed.incremental.feed c [] chunks

/-- No packet of a run from a fresh state is above the limit. -/
theorem Framed.feed_within {κ π : Type} (codec : Framed κ π) {c : κ}
    (fresh : codec.state c = .frameHeader) (chunks : List Bytes) :
    ∀ a ∈ (codec.incremental.feed c [] chunks).1,
      codec.maxSize c ≠ 0 → a.2 ≤ codec.maxSize c := by
  intro a ha limited
  have start : codec.Within (codec.maxSize c) c := ⟨rfl, by rw [fresh]; trivial⟩
  have bound := Incremental.feed_forall (d := codec.incremental) codec.decode_within start chunks a ha
  omega

/-- Frame reassembly: however a stream is cut into chunks, both codecs decode it to
the same packets and the same first error as in one piece, and no frame above a
limit yields a packet. -/
theorem receive_chunks (maxInSize maxOutSize : UInt32) (chunks : List Bytes) :
    ((V3.Codec.new maxInSize).receive chunks = (V3.Codec.new maxInSize).receive [chunks.flatten] ∧
      ∀ a ∈ ((V3.Codec.new maxInSize).receive chunks).1,
        maxInSize.toNat ≠ 0 → a.2 ≤ maxInSize.toNat) ∧
    ((V5.Codec.new maxInSize maxOutSize).receive chunks =
        (V5.Codec.new maxInSize maxOutSize).receive [chunks.flatten] ∧
      ∀ a ∈ ((V5.Codec.new maxInSize maxOutSize).receive chunks).1,
        maxInSize.toNat ≠ 0 → a.2 ≤ maxInSize.toNat) :=
  ⟨⟨V3.Codec.framed.incremental.feed_eq_flatten rfl chunks,
      V3.Codec.framed.feed_within rfl chunks⟩,
    V5.Codec.framed.incremental.feed_eq_flatten rfl chunks,
    V5.Codec.framed.feed_within rfl chunks⟩

end OxiMqtt.Codec

import OxiMqtt.Codec.V5.Codec
import OxiMqtt.Codec.V5.Sizes

/-!
# The Maximum Packet Size of the client

`set_max_outbound_size` of `codec/v5/codec.rs`, which the handshake calls with the Maximum Packet
Size of the CONNECT.  It turns a limit on whole frames into a limit on their content.

* `encode_length`: what `encode` appends is a header of at most five bytes and a content within
  the limit of the codec.
* `frame_within_iff`: the limit on whole frames is kept exactly if it is above five, from where on
  the header is subtracted.
-/

namespace OxiMqtt.Codec.V5

set_option linter.dupNamespace false

open Wire Wire.ByteWriter

namespace Codec

/-- `set_max_outbound_size` -/
def setMaxOutboundSize (c : Codec) (size : UInt32) : Codec :=
  { c with maxOutSize := if size > 5 then size - 5 else size }

/-- The limit on contents that is left of a limit on frames. -/
theorem maxSize_setMaxOutboundSize (c : Codec) {size : UInt32} (h : 5 < size) :
    (c.setMaxOutboundSize size).maxSize + 5 = size.toNat := by
  have above : 5 < size.toNat := UInt32.lt_iff_toNat_lt.mp h
  have rest : (size - 5).toNat = size.toNat - 5 :=
    UInt32.toNat_sub_of_le _ _ (UInt32.le_of_lt h)
  have nonzero : size - 5 ≠ 0 := by
    intro zero
    rw [zero, UInt32.toNat_zero] at rest
    omega
  unfold maxSize setMaxOutboundSize
  dsimp only
  rw [if_pos h, if_pos nonzero, rest]
  omega

/-- Whatever the packet: a frame that was written has a header of at most five bytes and a content
within the limit. -/
theorem encode_length {c : Codec} {p : Packet} {dst dst' : Bytes}
    (h : c.encode p dst = (.ok (), dst')) : dst'.length ≤ dst.length + 5 + c.maxSize := by
  rcases encode_eq_ok h with ⟨n, size, within, small⟩
  rw [encode_of_within size within] at h
  have emitted := Packet.emits size dst
  rw [h] at emitted
  have header : varIntLen n ≤ 4 := by
    rw [varIntLen_eq small]
    exact length_varInt_le n
  change dst'.length = dst.length + (1 + varIntLen n + n) at emitted
  omega

/-- The flags of the codec do not matter for a packet without problem information. -/
theorem encode_congr {c c' : Codec} {p : Packet} (same : p.withoutProblemInfo = p)
    (limit : c.maxOutSize = c'.maxOutSize) : c.encode p = c'.encode p := by
  have plain : ∀ c : Codec, c.outgoing p = p := by
    intro c
    rw [outgoing, same, ite_self]
  rw [encode, encode, plain, plain, maxSize, maxSize, limit]

end Codec

/-- A publish of six bytes. -/
def shortPublish : Publish where
  dup := false
  retain := false
  qos := .atMostOnce
  topic := ""
  packetId := none
  payload := [1]
  properties := none

/-- A limit of at most five bytes is applied to the content alone, and for each there is a packet
whose content is within it and whose frame is not. -/
theorem exists_frame_above {n : UInt32} (h : ¬5 < n) :
    ∃ p dst', p.withoutProblemInfo = p ∧ (Codec.new 0 n).encode p [] = (.ok (), dst') ∧
      n.toNat < dst'.length := by
  have bound : n.toNat ≤ 5 := Nat.le_of_not_lt fun above => h (UInt32.lt_iff_toNat_lt.mpr above)
  obtain ⟨k, rfl⟩ : ∃ k : Fin 6, n = UInt32.ofNat k.val :=
    ⟨⟨n.toNat, by omega⟩, (UInt32.ofNat_toNat).symm⟩
  match k with
  | 0 => exact ⟨.pingRequest, _, rfl, rfl, by decide⟩
  | 1 => exact ⟨.pingRequest, _, rfl, rfl, by decide⟩
  | 2 => exact ⟨.disconnect Disconnect.default, _, rfl, rfl, by decide⟩
  | 3 => exact ⟨.disconnect Disconnect.default, _, rfl, rfl, by decide⟩
  | 4 => exact ⟨.publish shortPublish, _, rfl, rfl, by decide⟩
  | 5 => exact ⟨.publish shortPublish, _, rfl, rfl, by decide⟩

/-- After `set_max_outbound_size(n)`, every frame that `encode` writes has at most `n` bytes,
header included, if and only if `n` is above five. -/
theorem frame_within_iff (codec : Codec) (n : UInt32) :
    (∀ p dst dst', (codec.setMaxOutboundSize n).encode p dst = (.ok (), dst') →
      dst'.length ≤ dst.length + n.toNat) ↔ 5 < n := by
  constructor
  · intro within
    apply Decidable.byContradiction
    intro low
    rcases exists_frame_above low with ⟨p, dst', same, encoded, above⟩
    have limit : (codec.setMaxOutboundSize n).maxOutSize = (Codec.new 0 n).maxOutSize := if_neg low
    rw [← Codec.encode_congr same limit] at encoded
    have bound := within p [] dst' encoded
    rw [List.length_nil, Nat.zero_add] at bound
    omega
  · intro above p dst dst' encoded
    have length := Codec.encode_length encoded
    have limit := codec.maxSize_setMaxOutboundSize above
    omega

/-- Under a Maximum Packet Size of five a frame of six bytes is sent. -/
theorem shortPublish_above_limit :
    (5 : UInt32) ≠ 0 ∧ ((Codec.new 0 0).setMaxOutboundSize 5).encode (.publish shortPublish) [] =
        (.ok (), [0x30, 4, 0, 0, 0, 1]) ∧
      ¬[0x30, 4, 0, 0, 0, (1 : UInt8)].length ≤ ([] : Bytes).length + (5 : UInt32).toNat := by
  decide

end OxiMqtt.Codec.V5

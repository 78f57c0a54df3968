import OxiMqtt.Codec.Framing

/-!
# Detecting the protocol version

`VersionCodec::decode` of `codec/version.rs` looks at the first bytes of a connection, before the
frame is complete, and does not use the length of the frame.

* `connectVersion_eq`: what is decided from the length of the protocol name, the name and the level.
* `decode_append`: a version or an error that has been found is found again with more bytes.
-/

namespace OxiMqtt.Codec

open Wire Wire.Reader

/-- `ProtocolVersion` -/
inductive ProtocolVersion : Type
  | MQTT3
  | MQTT5
  deriving DecidableEq, Repr

namespace VersionCodec

/-- `src[start..stop]` -/
def slice (src : Bytes) (start stop : Nat) : Outcome DecodeError Bytes :=
  if stop ≤ src.length then .ok ((src.drop start).take (stop - start)) else .fault .shortRead

/-- `src[i]` -/
def byteAt (src : Bytes) (i : Nat) : Outcome DecodeError UInt8 :=
  match src[i]? with
  | some b => .ok b
  | none => .fault .shortRead

/-- `u16::from_be_bytes`, of a slice that must have two bytes. -/
def fromBeBytes : Bytes → Outcome DecodeError Nat
  | [b₁, b₀] => .ok (b₁.toNat * 256 + b₀.toNat)
  | _ => .err .invalidProtocol

/-- The version of a protocol level. -/
def levelVersion (level : UInt8) : Outcome DecodeError (Option ProtocolVersion) :=
  if level = MQTT_LEVEL_31 ∨ level = MQTT_LEVEL_311 then .ok (some .MQTT3)
  else if level = MQTT_LEVEL_5 then .ok (some .MQTT5)
  else .err .invalidProtocol

/-- The version of the CONNECT whose content starts at `consumed`. -/
def connectVersion (src : Bytes) (consumed : Nat) : Outcome DecodeError (Option ProtocolVersion) :=
  if src.length ≤ consumed + 6 then .ok none
  else do
    let protocolLen ← fromBeBytes (← slice src consumed (consumed + 2))
    if protocolLen = 4 then
      let name ← slice src (consumed + 2) (consumed + 6)
      if name ≠ MQTT then .err .invalidProtocol
      else
        let level ← byteAt src (consumed + 2 + protocolLen)
        levelVersion level
    else if protocolLen = 6 then
      if src.length ≤ consumed + 8 then .ok none
      else
        let name ← slice src (consumed + 2) (consumed + 8)
        if name ≠ MQISDP then .err .invalidProtocol
        else
          let level ← byteAt src (consumed + 2 + protocolLen)
          levelVersion level
    else .err .invalidProtocol

/-- `VersionCodec::decode` -/
def decode (src : Bytes) : Outcome DecodeError (Option ProtocolVersion) :=
  match src with
  | firstByte :: b :: rest =>
      match decodeVariableLength (b :: rest) with
      | .ok (some (_, consumed)) =>
          if firstByte = packetType.CONNECT then connectVersion src (consumed + 1)
          else .err .unsupportedPacketType
      | .ok none => .ok none
      | .err e => .err e
      | .fault x => .fault x
  | _ => .ok none

/-! ## The content of the frame -/

/-- What the detection makes of the bytes behind the length of the name, `s`, and of that length. -/
def namedVersion (protocolLen : Nat) (s : Bytes) : Outcome DecodeError (Option ProtocolVersion) :=
  if protocolLen = 4 then
    if s.take 4 ≠ MQTT then .err .invalidProtocol else levelVersion (s.getD 4 0)
  else if protocolLen = 6 then
    if s.length ≤ 6 then .ok none
    else if s.take 6 ≠ MQISDP then .err .invalidProtocol else levelVersion (s.getD 6 0)
  else .err .invalidProtocol

theorem slice_drop {pre c : Bytes} {i j : Nat} (h : j ≤ c.length) :
    slice (pre ++ c) (pre.length + i) (pre.length + j) = .ok ((c.drop i).take (j - i)) := by
  rw [slice, if_pos (by rw [List.length_append]; omega), List.drop_append, List.drop_eq_nil_of_le
    (by omega), List.nil_append, show pre.length + i - pre.length = i by omega,
    show pre.length + j - (pre.length + i) = j - i by omega]

theorem byteAt_drop {pre c : Bytes} {i : Nat} (h : i < c.length) :
    byteAt (pre ++ c) (pre.length + i) = .ok (c.getD i 0) := by
  rw [byteAt, List.getElem?_append_right (by omega), show pre.length + i - pre.length = i by omega,
    List.getElem?_eq_getElem h, List.getD_eq_getElem?_getD, List.getElem?_eq_getElem h]
  rfl

/-- The detection waits for the first seven bytes of the content. -/
theorem connectVersion_short {pre c : Bytes} (short : c.length ≤ 6) :
    connectVersion (pre ++ c) pre.length = .ok none :=
  if_pos (by rw [List.length_append]; omega)

theorem connectVersion_eq (pre : Bytes) (b₁ b₀ : UInt8) {s : Bytes} (long : 5 ≤ s.length) :
    connectVersion (pre ++ b₁ :: b₀ :: s) pre.length =
      namedVersion (b₁.toNat * 256 + b₀.toNat) s := by
  have len : (pre ++ b₁ :: b₀ :: s).length = pre.length + 2 + s.length := by
    rw [List.length_append, List.length_cons, List.length_cons]
    omega
  have two : slice (pre ++ b₁ :: b₀ :: s) pre.length (pre.length + 2) = .ok [b₁, b₀] :=
    slice_drop (i := 0) (show 2 ≤ (b₁ :: b₀ :: s).length by simp)
  have name : ∀ k, k ≤ s.length →
      slice (pre ++ b₁ :: b₀ :: s) (pre.length + 2) (pre.length + 2 + k) = .ok (s.take k) := by
    intro k hk
    rw [Nat.add_assoc, slice_drop (show 2 + k ≤ (b₁ :: b₀ :: s).length by simp; omega),
      Nat.add_sub_cancel_left]
    rfl
  have level : ∀ k, k < s.length →
      byteAt (pre ++ b₁ :: b₀ :: s) (pre.length + 2 + k) = .ok (s.getD k 0) := by
    intro k hk
    rw [Nat.add_assoc, byteAt_drop (show 2 + k < (b₁ :: b₀ :: s).length by simp; omega),
      Nat.add_comm 2 k]
    rfl
  unfold connectVersion namedVersion
  rw [if_neg (by omega), two]
  change (if b₁.toNat * 256 + b₀.toNat = 4 then _ else _) = _
  by_cases four : b₁.toNat * 256 + b₀.toNat = 4
  · rw [if_pos four, if_pos four, four, level 4 (by omega), name 4 (by omega)]
    rfl
  · rw [if_neg four, if_neg four]
    by_cases six : b₁.toNat * 256 + b₀.toNat = 6
    · rw [if_pos six, if_pos six, six, len]
      by_cases short : s.length ≤ 6
      · rw [if_pos short, if_pos (by omega)]
      · rw [if_neg short, if_neg (by omega), level 6 (by omega), name 6 (by omega)]
        rfl
    · rw [if_neg six, if_neg six]

/-! ## More bytes -/

theorem levelVersion_ne_none (level : UInt8) : levelVersion level ≠ .ok none := by
  unfold levelVersion
  split
  · simp
  · split <;> simp

theorem namedVersion_append {protocolLen : Nat} {s : Bytes} (long : 5 ≤ s.length)
    (found : namedVersion protocolLen s ≠ .ok none) (more : Bytes) :
    namedVersion protocolLen (s ++ more) = namedVersion protocolLen s := by
  have same : ∀ k, k ≤ s.length → (s ++ more).take k = s.take k := fun k hk =>
    List.take_append_of_le_length hk
  have byte : ∀ k, k < s.length → (s ++ more).getD k 0 = s.getD k 0 := by
    intro k hk
    rw [List.getD_eq_getElem?_getD, List.getD_eq_getElem?_getD, List.getElem?_append_left hk]
  unfold namedVersion at found ⊢
  by_cases four : protocolLen = 4
  · rw [if_pos four, if_pos four, same 4 (by omega), byte 4 (by omega)]
  · rw [if_neg four] at found
    rw [if_neg four, if_neg four]
    by_cases six : protocolLen = 6
    · rw [if_pos six] at found
      rw [if_pos six, if_pos six]
      by_cases short : s.length ≤ 6
      · rw [if_pos short] at found
        exact absurd rfl found
      · rw [if_neg short, if_neg (by rw [List.length_append]; omega), same 6 (by omega),
          byte 6 (by omega)]
    · rw [if_neg six, if_neg six]

theorem connectVersion_append {src : Bytes} {k : Nat} (bound : k ≤ src.length)
    (found : connectVersion src k ≠ .ok none) (more : Bytes) :
    connectVersion (src ++ more) k = connectVersion src k := by
  obtain ⟨pre, c, rfl, rfl⟩ : ∃ pre c, src = pre ++ c ∧ k = pre.length :=
    ⟨src.take k, src.drop k, (List.take_append_drop k src).symm, by simp [bound]⟩
  rw [List.append_assoc]
  match c with
  | [] | [_] => exact absurd (connectVersion_short (by simp)) found
  | b₁ :: b₀ :: s =>
      by_cases long : 5 ≤ s.length
      · rw [connectVersion_eq pre b₁ b₀ long] at found ⊢
        rw [List.cons_append, List.cons_append, connectVersion_eq pre b₁ b₀
          (by rw [List.length_append]; omega), namedVersion_append long found]
      · exact absurd (connectVersion_short (by simp; omega)) found

theorem decode_of_header {firstByte b : UInt8} {rest : Bytes} {n consumed : Nat}
    (header : decodeVariableLength (b :: rest) = .ok (some (n, consumed))) :
    decode (firstByte :: b :: rest) =
      if firstByte = packetType.CONNECT then connectVersion (firstByte :: b :: rest) (consumed + 1)
      else .err .unsupportedPacketType := by
  rw [decode, header]

/-- A version or an error is found again with more bytes. -/
theorem decode_append {src : Bytes} (found : decode src ≠ .ok none) (more : Bytes) :
    decode (src ++ more) = decode src := by
  match src with
  | [] | [_] => exact absurd rfl found
  | firstByte :: b :: rest =>
      have law := decodeVariableLength_append (b :: rest) more
      rw [List.cons_append] at law
      rw [List.cons_append, List.cons_append]
      rcases header : decodeVariableLength (b :: rest) with ⟨_ | ⟨n, consumed⟩⟩ | e | x
      · rw [decode, header] at found
        exact absurd rfl found
      · rw [header] at law
        rcases law with ⟨bound, longer⟩
        rw [decode_of_header header] at found ⊢
        rw [decode_of_header longer]
        by_cases connect : firstByte = packetType.CONNECT
        · rw [if_pos connect] at found
          rw [if_pos connect, if_pos connect]
          exact connectVersion_append (Nat.succ_le_succ bound) found more
        · rw [if_neg connect, if_neg connect]
      · rw [header] at law
        simp only [decode, header, law]
      · rw [header] at law
        exact law.elim

end VersionCodec

end OxiMqtt.Codec

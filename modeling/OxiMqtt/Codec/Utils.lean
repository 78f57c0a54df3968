import OxiMqtt.Codec.Types

/-!
# Codec utilities

`codec/utils.rs`: the `Decode` and `Encode` traits with their instances,
`take_properties`, and the variable-length integers; and the length tables of
`codec/v5/encode.rs`.

`WireType` collects what the decoder and the encoder of one type agree on: the
bytes of a value, when it fits the format, and that it is written as, measured
as and read back from these bytes.
-/

namespace OxiMqtt.Codec

open Wire Wire.Reader Wire.ByteWriter

/-- The trait `Decode`. -/
class Decode (α : Type) where
  decode : Reader DecodeError α

/-- The trait `Encode`. -/
class Encode (α : Type) where
  encodedSize : α → Nat
  encode : α → ByteWriter EncodeError Unit

export Decode (decode)
export Encode (encodedSize encode)

instance : Decode Bool where
  decode := do
    ensureRemaining 1 .invalidLength
    let v ← getU8
    ensure (v ≤ 1) .malformedPacket
    return v == 1

instance : Decode UInt16 where
  decode := do
    ensureRemaining 2 .invalidLength
    getU16

instance : Decode UInt32 where
  decode := do
    ensureRemaining 4 .invalidLength
    getU32

instance : Decode NonZeroU32 where
  decode := do
    let n : UInt32 ← decode
    okOr (NonZeroU32.new n) .malformedPacket

instance : Decode NonZeroU16 where
  decode := do
    let n : UInt16 ← decode
    okOr (NonZeroU16.new n) .malformedPacket

instance : Decode Bytes where
  decode := do
    let len : UInt16 ← decode
    ensureRemaining len.toNat .invalidLength
    splitTo len.toNat

instance : Decode ByteString where
  decode := do
    let bs : Bytes ← decode
    okOr (ByteString.tryFrom bs) .utf8Error

instance : Decode UserProperty where
  decode := do
    let key : ByteString ← decode
    let val : ByteString ← decode
    return (key, val)

instance : Encode Bool where
  encodedSize _ := 1
  encode b := putU8 (boolU8 b)

instance : Encode UInt16 where
  encodedSize _ := 2
  encode n := putU16 n

instance : Encode NonZeroU16 where
  encodedSize _ := 2
  encode n := encode n.val

instance : Encode UInt32 where
  encodedSize _ := 4
  encode n := putU32 n

instance : Encode NonZeroU32 where
  encodedSize _ := 4
  encode n := encode n.val

instance : Encode Bytes where
  encodedSize bs := 2 + bs.length
  encode bs :=
    if bs.length < 65536 then do
      putU16 (UInt16.ofNat bs.length)
      putSlice bs
    else fail .invalidLength

instance : Encode ByteString where
  encodedSize s := encodedSize (ByteString.asBytes s)
  encode s := encode (ByteString.asBytes s)

instance : Encode UserProperty where
  encodedSize p := encodedSize p.1 + encodedSize p.2
  encode p := do
    encode p.1
    encode p.2

/-- `len == n && &src.as_ref()[0..n] == name` -/
def protocolIs (len : UInt16) (n : Nat) (name : Bytes) : Reader DecodeError Bool :=
  if len.toNat = n then (fun bs => bs == name) <$> peek n else pure false

theorem safe_protocolIs (len : UInt16) (n : Nat) (name : Bytes) (k : Nat) :
    Safe (k + n) (protocolIs len n name) (k + n) 0 := by
  unfold protocolIs
  split
  · exact (Safe.peek k n).map
  · exact Safe.pure false (k + n)

theorem protocolIs_self {len : UInt16} {n : Nat} {name : Bytes} (announced : len.toNat = n)
    (size : name.length = n) (rest : Bytes) :
    protocolIs len n name (name ++ rest) = .ok (true, name ++ rest) := by
  have taken : Reader.peek n (name ++ rest) =
      (.ok (name, name ++ rest) : Outcome DecodeError (Bytes × Bytes)) := by
    rw [Reader.peek, if_pos (by rw [List.length_append]; omega), List.take_left' size]
  rw [protocolIs, if_pos announced]
  change ((Reader.peek n : Reader DecodeError Bytes) >>= fun bs => pure (bs == name))
    (name ++ rest) = _
  rw [bind_of_ok taken, beq_self_eq_true]
  rfl

theorem decodesAll_protocolIs {α : Type} {len : UInt16} {n : Nat} {name rest : Bytes}
    {f : Bool → Reader DecodeError α} {a : α} (announced : len.toNat = n) (size : name.length = n)
    (h : DecodesAll (f true) (name ++ rest) a) :
    DecodesAll (protocolIs len n name >>= f) (name ++ rest) a :=
  (bind_of_ok (protocolIs_self announced size rest)).trans h

/-- Subtraction of `u32` values outside of a buffer; going below zero is a fault. -/
def subU32 (a b : Nat) : Outcome EncodeError Nat := if b ≤ a then .ok (a - b) else .fault .overflow

theorem subU32_eq_ok {a b n : Nat} : subU32 a b = .ok n ↔ b ≤ a ∧ a - b = n := by
  unfold subU32
  split
  · rename_i h
    simp [h]
  · rename_i h
    simp [h]

/-! ## Variable-length integers -/

/-- The loop of `decode_variable_length_cursor`. -/
def variableLengthLoop (shift len : Nat) : Reader DecodeError Nat
  | [] => .err .malformedPacket
  | val :: src =>
      let len := len + (val &&& 0x7F).toNat <<< shift
      if val &&& 0x80 = 0 then .ok (len, src)
      else if shift < 21 then variableLengthLoop (shift + 7) len src
      else .err .invalidLength

/-- `decode_variable_length_cursor` -/
def decodeVariableLengthCursor : Reader DecodeError Nat := variableLengthLoop 0 0

/-- `decode_variable_length`: the value and the number of bytes it takes, or
`none` when the bytes end inside of it. -/
def decodeVariableLength (src : Bytes) : Outcome DecodeError (Option (Nat × Nat)) :=
  match decodeVariableLengthCursor src with
  | .ok (len, cur) => .ok (some (len, src.length - cur.length))
  | .err .malformedPacket => .ok none
  | .err e => .err e
  | .fault x => .fault x

/-- `take_properties` -/
def takeProperties : Reader DecodeError Bytes := do
  let propLen ← decodeVariableLengthCursor
  ensureRemaining propLen .invalidLength
  splitTo propLen

/-- A byte with the continuation bit set. -/
def continued (n : Nat) : UInt8 := UInt8.ofNat ((n &&& 0x7F) ||| 0x80)

/-- `write_variable_length` -/
def writeVariableLength (len : Nat) : ByteWriter EncodeError Unit :=
  if len ≤ 127 then putU8 (UInt8.ofNat len)
  else if len ≤ 16383 then putSlice [continued len, UInt8.ofNat (len >>> 7)]
  else if len ≤ 2097151 then
    putSlice [continued len, continued (len >>> 7), UInt8.ofNat (len >>> 14)]
  else if len ≤ 268435455 then
    putSlice [continued len, continued (len >>> 7), continued (len >>> 14),
      UInt8.ofNat (len >>> 21)]
  else crash .assertion

/-- `leading_zeros` of a word of `bits` bits. -/
def leadingZeros (bits n : Nat) : Nat := if n = 0 then bits else bits - 1 - n.log2

/-- The table of `var_int_len`. -/
def varIntLenMap : List Nat :=
  [10, 9, 9, 9, 9, 9, 9, 9, 8, 8, 8, 8, 8, 8, 8, 7, 7, 7, 7, 7, 7, 7, 6, 6, 6, 6, 6, 6, 6, 5, 5, 5, 5,
    5, 5, 5, 4, 4, 4, 4, 4, 4, 4, 3, 3, 3, 3, 3, 3, 3, 2, 2, 2, 2, 2, 2, 2, 1, 1, 1, 1, 1, 1, 1, 1]

/-- The table of `var_int_len_u32`. -/
def varIntLenU32Map : List Nat :=
  [5, 5, 5, 5, 4, 4, 4, 4, 4, 4, 4, 3, 3, 3, 3, 3, 3, 3, 2, 2, 2, 2, 2, 2, 2, 1, 1, 1, 1, 1, 1, 1, 1]

/-- `var_int_len` -/
def varIntLen (val : Nat) : Nat := varIntLenMap.getD (leadingZeros 64 val) 0

/-- `var_int_len_u32` -/
def varIntLenU32 (val : Nat) : Nat := varIntLenU32Map.getD (leadingZeros 32 val) 0

/-- `var_int_len_from_size` -/
def varIntLenFromSize (val : Nat) : ByteWriter EncodeError Nat := do
  let overSize := varIntLenU32 val
  let res ← checkedSub val overSize
  checkedSub val (varIntLenU32 (res + 1))

/-- The bytes of a variable-length integer below `2 ^ 28`. -/
def varInt (n : Nat) : Bytes :=
  if n ≤ 127 then [UInt8.ofNat n]
  else if n ≤ 16383 then [UInt8.ofNat (n % 128 + 128), UInt8.ofNat (n / 128)]
  else if n ≤ 2097151 then
    [UInt8.ofNat (n % 128 + 128), UInt8.ofNat (n / 128 % 128 + 128), UInt8.ofNat (n / 16384)]
  else [UInt8.ofNat (n % 128 + 128), UInt8.ofNat (n / 128 % 128 + 128),
    UInt8.ofNat (n / 16384 % 128 + 128), UInt8.ofNat (n / 2097152)]

theorem continued_eq (n : Nat) : continued n = UInt8.ofNat (n % 128 + 128) := by
  have low : n &&& 0x7F = n % 128 := Nat.and_two_pow_sub_one_eq_mod n 7
  have high : 0x80 + n % 128 = 0x80 ||| n % 128 :=
    Nat.two_pow_add_eq_or_of_lt (show n % 128 < 2 ^ 7 by omega) 1
  rw [continued, low, Nat.or_comm, ← high, Nat.add_comm]

theorem writes_writeVariableLength {n : Nat} (h : n ≤ MAX_PACKET_SIZE) :
    Writes (writeVariableLength n) (varInt n) := by
  have bound : n ≤ 268435455 := h
  unfold writeVariableLength varInt
  simp only [continued_eq, Nat.shiftRight_eq_div_pow, Nat.reducePow]
  split_ifs
  · exact Writes.putU8 _
  · exact Writes.putSlice _
  · exact Writes.putSlice _
  · exact Writes.putSlice _

/-- A length that cannot be announced is an assertion that fails. -/
theorem writeVariableLength_of_large {n : Nat} (large : MAX_PACKET_SIZE < n) :
    writeVariableLength n = crash .assertion := by
  unfold MAX_PACKET_SIZE at large
  rw [writeVariableLength, if_neg (by omega), if_neg (by omega), if_neg (by omega),
    if_neg (by omega)]

/-- The number of seven-bit groups of a value. -/
theorem log2_div_seven {n : Nat} (nonzero : n ≠ 0) (h : n ≤ MAX_PACKET_SIZE) :
    n.log2 / 7 + 1 = (varInt n).length := by
  have bound : n < 2 ^ 28 := Nat.lt_succ_of_le h
  have h₁ := Nat.log2_lt (n := n) (k := 7) nonzero
  have h₂ := Nat.log2_lt (n := n) (k := 14) nonzero
  have h₃ := Nat.log2_lt (n := n) (k := 21) nonzero
  have h₄ := Nat.log2_lt (n := n) (k := 28) nonzero
  unfold varInt
  split_ifs <;> simp only [List.length_cons, List.length_nil] <;> omega

theorem varIntLen_eq {n : Nat} (h : n ≤ MAX_PACKET_SIZE) : varIntLen n = (varInt n).length := by
  have table : ∀ k, k < 28 → varIntLenMap.getD (63 - k) 0 = k / 7 + 1 := by decide
  unfold varIntLen leadingZeros
  by_cases zero : n = 0
  · subst zero
    rfl
  · have bits : n.log2 < 28 := (Nat.log2_lt zero).mpr (Nat.lt_succ_of_le h)
    rw [if_neg zero, table _ bits, log2_div_seven zero h]

theorem varIntLenU32_eq {n : Nat} (h : n < 2 ^ 32) :
    varIntLenU32 n = if n ≤ MAX_PACKET_SIZE then (varInt n).length else 5 := by
  have table : ∀ k, k < 32 → varIntLenU32Map.getD (31 - k) 0 = k / 7 + 1 := by decide
  unfold varIntLenU32 leadingZeros
  by_cases zero : n = 0
  · subst zero
    rfl
  · have bits : n.log2 < 32 := (Nat.log2_lt zero).mpr h
    rw [if_neg zero, table _ bits]
    split
    · rename_i small
      exact log2_div_seven zero small
    · rename_i large
      have many : ¬ n.log2 < 28 := fun few => large (Nat.le_of_lt_succ ((Nat.log2_lt zero).mp few))
      omega

theorem length_varInt (n : Nat) : (varInt n).length =
    if n ≤ 127 then 1 else if n ≤ 16383 then 2 else if n ≤ 2097151 then 3 else 4 := by
  unfold varInt
  split_ifs <;> rfl

/-- The thresholds of the length table. -/
theorem varIntLenU32_cases {n : Nat} (h : n < 2 ^ 32) :
    n ≤ 127 ∧ varIntLenU32 n = 1 ∨ 127 < n ∧ n ≤ 16383 ∧ varIntLenU32 n = 2 ∨
      16383 < n ∧ n ≤ 2097151 ∧ varIntLenU32 n = 3 ∨
      2097151 < n ∧ n ≤ 268435455 ∧ varIntLenU32 n = 4 ∨ 268435455 < n ∧ varIntLenU32 n = 5 := by
  rw [varIntLenU32_eq h, length_varInt]
  unfold MAX_PACKET_SIZE
  split_ifs <;> omega

theorem length_varInt_le (n : Nat) : (varInt n).length ≤ 4 := by
  unfold varInt
  split_ifs <;> simp

theorem length_varInt_pos (n : Nat) : 0 < (varInt n).length := by
  unfold varInt
  split_ifs <;> simp

theorem and_128_eq_zero_iff (b : UInt8) : b &&& 0x80 = 0 ↔ b.toNat < 128 := by
  have bits : ∀ n < 256, n &&& 128 = 0 ↔ n < 128 := by decide +kernel
  rw [← UInt8.toNat_inj, UInt8.toNat_and]
  exact bits b.toNat b.toNat_lt

theorem varInt_append_ne_nil (n : Nat) (bs : Bytes) : varInt n ++ bs ≠ [] := by
  intro h
  have pos := length_varInt_pos n
  rw [(List.append_eq_nil_iff.mp h).1] at pos
  exact Nat.lt_irrefl 0 pos

/-- Room for a length field of the actual size is room for one of four bytes,
unless almost everything else is taken up by the other bytes. -/
theorem add_four_le_of_varInt {n m : Nat} (h : (varInt n).length + n + m ≤ MAX_PACKET_SIZE)
    (few : m ≤ 65536) : n + 4 + m ≤ MAX_PACKET_SIZE := by
  rw [length_varInt] at h
  unfold MAX_PACKET_SIZE at h ⊢
  split_ifs at h <;> omega

/-- A byte without the continuation bit ends the integer. -/
theorem variableLengthLoop_last {b : UInt8} (h : b.toNat < 128) (shift len : Nat) (src : Bytes) :
    variableLengthLoop shift len (b :: src) = .ok (len + b.toNat * 2 ^ shift, src) := by
  have value : (b &&& 0x7F).toNat = b.toNat := by
    rw [UInt8.toNat_and, show (0x7F : UInt8).toNat = 2 ^ 7 - 1 by rfl,
      Nat.and_two_pow_sub_one_eq_mod, Nat.mod_eq_of_lt h]
  rw [variableLengthLoop, if_pos ((and_128_eq_zero_iff b).mpr h), value, Nat.shiftLeft_eq]

theorem toNat_continued {k : Nat} (h : k < 128) : (UInt8.ofNat (k + 128)).toNat = 2 ^ 7 + k := by
  rw [UInt8.toNat_ofNat', Nat.mod_eq_of_lt (by omega)]
  omega

theorem and_continued {k : Nat} (h : k < 128) : ¬ UInt8.ofNat (k + 128) &&& 0x80 = 0 := by
  rw [and_128_eq_zero_iff, toNat_continued h]
  omega

/-- A byte with the continuation bit goes on to the next seven bits. -/
theorem variableLengthLoop_more {k shift : Nat} (h : k < 128) (hs : shift < 21) (len : Nat)
    (src : Bytes) : variableLengthLoop shift len (UInt8.ofNat (k + 128) :: src) =
      variableLengthLoop (shift + 7) (len + k * 2 ^ shift) src := by
  have value : (UInt8.ofNat (k + 128) &&& 0x7F).toNat = k := by
    rw [UInt8.toNat_and, show (0x7F : UInt8).toNat = 2 ^ 7 - 1 by rfl,
      Nat.and_two_pow_sub_one_eq_mod, toNat_continued h]
    omega
  rw [variableLengthLoop, if_neg (and_continued h), if_pos hs, value, Nat.shiftLeft_eq]

/-- Four bytes with the continuation bit are no length. -/
theorem decodeVariableLength_long {i j k l : Nat} (hi : i < 128) (hj : j < 128) (hk : k < 128)
    (hl : l < 128) (src : Bytes) :
    decodeVariableLength (UInt8.ofNat (i + 128) :: UInt8.ofNat (j + 128) ::
      UInt8.ofNat (k + 128) :: UInt8.ofNat (l + 128) :: src) = .err .invalidLength := by
  rw [decodeVariableLength, decodeVariableLengthCursor, variableLengthLoop_more hi (by decide),
    variableLengthLoop_more hj (by decide), variableLengthLoop_more hk (by decide),
    variableLengthLoop, if_neg (and_continued hl), if_neg (by decide)]

theorem decodes_varInt {n : Nat} (h : n ≤ MAX_PACKET_SIZE) :
    Decodes decodeVariableLengthCursor (varInt n) n := by
  have bound : n ≤ 268435455 := h
  have byte : ∀ {k}, k < 128 → (UInt8.ofNat k).toNat = k := by
    intro k hk
    rw [UInt8.toNat_ofNat', Nat.mod_eq_of_lt (by omega)]
  have last : ∀ {k}, k < 128 → ∀ shift len src,
      variableLengthLoop shift len (UInt8.ofNat k :: src) = .ok (len + k * 2 ^ shift, src) := by
    intro k hk shift len src
    rw [variableLengthLoop_last (by rw [byte hk]; exact hk), byte hk]
  intro rest
  unfold decodeVariableLengthCursor varInt
  split_ifs
  · rw [List.singleton_append, last (by omega)]
    congr 2
    omega
  · simp only [List.cons_append, List.nil_append]
    rw [variableLengthLoop_more (by omega) (by omega), last (by omega)]
    congr 2
    omega
  · simp only [List.cons_append, List.nil_append]
    rw [variableLengthLoop_more (by omega) (by omega), variableLengthLoop_more (by omega) (by omega),
      last (by omega)]
    congr 2
    omega
  · simp only [List.cons_append, List.nil_append]
    rw [variableLengthLoop_more (by omega) (by omega), variableLengthLoop_more (by omega) (by omega),
      variableLengthLoop_more (by omega) (by omega), last (by omega)]
    congr 2
    omega

/-- `var_int_len_from_size` recovers a length from the length with its own size. -/
theorem varIntLenFromSize_eq {n : Nat} (h : n ≤ MAX_PACKET_SIZE) :
    varIntLenFromSize ((varInt n).length + n) = pure n := by
  have bound : n ≤ 268435455 := h
  have small := length_varInt_le n
  have pos := length_varInt_pos n
  have self : varIntLenU32 n = (varInt n).length := by rw [varIntLenU32_eq (by omega), if_pos h]
  -- the size of the sum is the size of `n`, or one more when the sum crosses a threshold
  have guess : varIntLenU32 ((varInt n).length + n) = (varInt n).length ∧
        varIntLenU32 (n + 1) = (varInt n).length ∨
      varIntLenU32 ((varInt n).length + n) = (varInt n).length + 1 ∧ 0 < n := by
    have here := varIntLenU32_cases (show n < 2 ^ 32 by omega)
    have next := varIntLenU32_cases (show n + 1 < 2 ^ 32 by omega)
    have sum := varIntLenU32_cases (show (varInt n).length + n < 2 ^ 32 by omega)
    omega
  unfold varIntLenFromSize
  rcases guess with ⟨large, next⟩ | ⟨large, positive⟩
  · rw [large]
    dsimp only
    rw [checkedSub_of_eq rfl]
    change checkedSub _ (varIntLenU32 (n + 1)) = _
    rw [next, checkedSub_of_eq rfl]
  · have res : (varInt n).length + n = (varInt n).length + 1 + (n - 1) := by omega
    rw [large]
    dsimp only
    rw [checkedSub_of_eq res]
    change checkedSub _ (varIntLenU32 (n - 1 + 1)) = _
    rw [Nat.sub_add_cancel positive, self, checkedSub_of_eq rfl]

/-! ## Values with a wire format -/

/-- What the encoder and the decoder of a type agree on. -/
class WireType (α : Type) [Encode α] [Decode α] where
  /-- The bytes of a value. -/
  image : α → Bytes
  /-- The value is within the limits of the format. -/
  Fits : α → Prop
  length_image : ∀ a, (image a).length = encodedSize a
  writes : ∀ a, Fits a → Writes (encode a) (image a)
  decodes : ∀ a, Fits a → Decodes decode (image a) a
  safe : Safe 0 (decode : Reader DecodeError α) 0 1

export WireType (image Fits)

theorem decodes_u16 (n : UInt16) : Decodes (decode : Reader DecodeError UInt16) (be16 n) n :=
  Decodes.ensureRemaining (Nat.le_refl 2) (Decodes.getU16 n)

theorem decodes_u32 (n : UInt32) : Decodes (decode : Reader DecodeError UInt32) (be32 n) n :=
  Decodes.ensureRemaining (Nat.le_refl 4) (Decodes.getU32 n)

theorem safe_u16 : Safe 0 (decode : Reader DecodeError UInt16) 0 2 :=
  (Safe.ensureRemaining 2 _).zero_bind fun _ => Safe.getU16 0

theorem safe_u32 : Safe 0 (decode : Reader DecodeError UInt32) 0 4 :=
  (Safe.ensureRemaining 4 _).zero_bind fun _ => Safe.getU32 0

instance : WireType Bool where
  image b := [boolU8 b]
  Fits _ := True
  length_image _ := rfl
  writes b _ := Writes.putU8 _
  decodes b _ := by
    refine Decodes.ensureRemaining (by simp) fun rest => ?_
    cases b <;> rfl
  safe := (Safe.ensureRemaining 1 _).zero_bind fun _ => (Safe.getU8 0).bind_zero fun _ =>
    (Safe.ensure _ _ 0).bind_zero fun _ => Safe.pure _ 0

instance : WireType UInt16 where
  image n := be16 n
  Fits _ := True
  length_image _ := rfl
  writes n _ := Writes.putU16 n
  decodes n _ := decodes_u16 n
  safe := safe_u16.mono (Nat.le_refl 0) (Nat.le_refl 0) (Nat.le_succ 1)

instance : WireType UInt32 where
  image n := be32 n
  Fits _ := True
  length_image _ := rfl
  writes n _ := Writes.putU32 n
  decodes n _ := decodes_u32 n
  safe := safe_u32.mono (Nat.le_refl 0) (Nat.le_refl 0) (by decide)

instance : WireType NonZeroU16 where
  image n := be16 n.val
  Fits _ := True
  length_image _ := rfl
  writes n _ := Writes.putU16 n.val
  decodes n _ := (decodes_u16 n.val).bind_last (Decodes.okOr (NonZeroU16.new_val n))
  safe := (WireType.safe : Safe 0 (decode : Reader DecodeError UInt16) 0 1).bind_zero
    fun _ => Safe.okOr _ _ 0

instance : WireType NonZeroU32 where
  image n := be32 n.val
  Fits _ := True
  length_image _ := rfl
  writes n _ := Writes.putU32 n.val
  decodes n _ := (decodes_u32 n.val).bind_last (Decodes.okOr (NonZeroU32.new_val n))
  safe := (WireType.safe : Safe 0 (decode : Reader DecodeError UInt32) 0 1).bind_zero
    fun _ => Safe.okOr _ _ 0

instance : WireType Bytes where
  image bs := be16 (UInt16.ofNat bs.length) ++ bs
  Fits bs := bs.length ≤ 65535
  length_image bs := by
    rw [List.length_append, length_be16]
    rfl
  writes bs fits := by
    change Writes (if bs.length < 65536 then _ else _) _
    rw [if_pos (by omega)]
    exact (Writes.putU16 _).bind (Writes.putSlice bs)
  decodes bs fits := by
    have len : bs.length = (UInt16.ofNat bs.length).toNat := by
      rw [UInt16.toNat_ofNat', Nat.mod_eq_of_lt (by omega)]
    exact (decodes_u16 _).bind
      (Decodes.ensureRemaining (Nat.le_of_eq len.symm) (Decodes.splitTo len))
  safe := (WireType.safe : Safe 0 (decode : Reader DecodeError UInt16) 0 1).bind_zero fun len =>
    (Safe.ensureRemaining len.toNat _).zero_bind fun _ =>
      (Safe.splitTo 0 len.toNat).mono (by omega) (Nat.le_refl 0) (Nat.zero_le _)

instance : WireType ByteString where
  image s := image (ByteString.asBytes s)
  Fits s := Fits (ByteString.asBytes s)
  length_image s := WireType.length_image (ByteString.asBytes s)
  writes s fits := WireType.writes (ByteString.asBytes s) fits
  decodes s fits := (WireType.decodes (ByteString.asBytes s) fits).bind_last
    (Decodes.okOr (ByteString.tryFrom_asBytes s))
  safe := (WireType.safe : Safe 0 (decode : Reader DecodeError Bytes) 0 1).bind_zero
    fun _ => Safe.okOr _ _ 0

instance : WireType UserProperty where
  image p := image p.1 ++ image p.2
  Fits p := Fits p.1 ∧ Fits p.2
  length_image p := by
    rw [List.length_append, WireType.length_image, WireType.length_image]
    rfl
  writes p fits := (WireType.writes p.1 fits.1).bind (WireType.writes p.2 fits.2)
  decodes p fits := (WireType.decodes p.1 fits.1).bind
    ((WireType.decodes p.2 fits.2).bind_last (Decodes.pure _))
  safe := (WireType.safe : Safe 0 (decode : Reader DecodeError ByteString) 0 1).bind_zero fun _ =>
    ((WireType.safe : Safe 0 (decode : Reader DecodeError ByteString) 0 1).mono (Nat.le_refl 0)
      (Nat.le_refl 0) (Nat.zero_le 1)).bind_zero fun _ => Safe.pure _ 0

theorem safe_decode {α : Type} [Encode α] [Decode α] [WireType α] :
    Safe 0 (decode : Reader DecodeError α) 0 0 :=
  WireType.safe.mono (Nat.le_refl 0) (Nat.le_refl 0) (Nat.zero_le 1)

theorem safe_tryFrom {α : Type} [PrimEnum α] (v : UInt8) (n : Nat) :
    Safe n (fromOutcome (PrimEnum.tryFrom v) : Reader DecodeError α) n 0 :=
  Safe.fromOutcome (PrimEnum.tryFrom_ne_fault v) n

theorem decodes_tryFrom {α : Type} [PrimEnum α] (a : α) :
    Decodes (fromOutcome (PrimEnum.tryFrom (toU8 a)) : Reader DecodeError α) [] a :=
  Decodes.fromOutcome (PrimEnum.tryFrom_toU8 a)

theorem image_ne_nil (s : ByteString) : image s ≠ [] := List.cons_ne_nil _ _

/-! ## Optional parts and lists -/

theorem length_map_image {α : Type} {img : α → Bytes} {size : α → Nat} {v : Option α}
    (h : ∀ a ∈ v, (img a).length = size a) :
    ((v.map img).getD []).length = (v.map size).getD 0 := by
  cases v with
  | none => rfl
  | some a => exact h a rfl

/-- A size computed by adding up is the length of the bytes put together. -/
theorem foldl_size {α : Type} {size : α → Nat} {img : α → Bytes} (as : List α)
    (h : ∀ a, (img a).length = size a) (start : Nat) :
    as.foldl (fun len a => len + size a) start = start + (as.flatMap img).length := by
  induction as generalizing start with
  | nil => rfl
  | cons a as ih =>
      rw [List.foldl_cons, ih, List.flatMap_cons, List.length_append, h, Nat.add_assoc]

/-- Elements that fill the rest of a packet. -/
theorem feeds_elements {β : Type} {d : Reader DecodeError β} {img : β → Bytes} {bs : List β}
    (decodes : ∀ b ∈ bs, Decodes d (img b) b) (nonempty : ∀ b ∈ bs, img b ≠ []) :
    Feeds (fun acc => d >>= fun b => pure (acc ++ [b])) [] (bs.flatMap img) bs := by
  let push : List β → List β := fun acc => acc
  have each : ∀ b ∈ bs, ∀ pre, Feeds (fun acc => d >>= fun b => pure (acc ++ [b])) (push pre) (img b)
      (push (pre ++ [b])) := fun b hb pre =>
    Feeds.of_decodes ((decodes b hb).bind_last (Decodes.pure _)) (nonempty b hb)
  exact Feeds.append bs each []

/-! ## Property blocks -/

theorem safe_variableLengthLoop (shift len : Nat) : Safe 0 (variableLengthLoop shift len) 0 1 := by
  intro src _
  induction src generalizing shift len with
  | nil => trivial
  | cons val src ih =>
      have rest := ih (shift + 7) (len + (val &&& 0x7F).toNat <<< shift) (Nat.zero_le _)
      rw [variableLengthLoop]
      by_cases last : val &&& 0x80 = 0
      · rw [if_pos last]
        exact ⟨Nat.zero_le _, Nat.le_refl _⟩
      · rw [if_neg last]
        by_cases more : shift < 21
        · rw [if_pos more]
          rcases hrun : variableLengthLoop (shift + 7) (len + (val &&& 0x7F).toNat <<< shift) src
            with ⟨n, src'⟩ | e | x
          · rw [hrun] at rest
            exact ⟨Nat.zero_le _, by rw [List.length_cons]; omega⟩
          · trivial
          · rw [hrun] at rest
            exact rest
        · rw [if_neg more]
          trivial

theorem safe_takeProperties : Safe 0 takeProperties 0 1 :=
  (safe_variableLengthLoop 0 0).bind_zero fun len => (Safe.ensureRemaining len _).zero_bind fun _ =>
    (Safe.splitTo 0 len).mono (by omega) (Nat.le_refl 0) (Nat.zero_le len)

theorem decodes_takeProperties {bs : Bytes} (h : bs.length ≤ MAX_PACKET_SIZE) :
    Decodes takeProperties (varInt bs.length ++ bs) bs :=
  (decodes_varInt h).bind (Decodes.ensureRemaining (Nat.le_refl _) (Decodes.splitTo rfl))

/-- `Property for Option<T>`: a property value that may be set once. -/
def readValue {α : Type} [Decode α] (cur : Option α) : Reader DecodeError (Option α) := do
  ensure cur.isNone .malformedPacket
  some <$> decode

theorem safe_readValue {α : Type} [Encode α] [Decode α] [WireType α] (cur : Option α) :
    Safe 0 (readValue cur) 0 0 :=
  (Safe.ensure _ _ 0).zero_bind fun _ => safe_decode.map

/-- Read a property block: take its bytes, and let `read` dispatch on the type
byte of every property until they are used up. -/
def readProperties {σ : Type} (read : σ → UInt8 → Reader DecodeError σ) (init : σ) :
    Reader DecodeError σ := do
  let propSrc ← takeProperties
  within propSrc (whileRemaining (fun acc => getU8 >>= read acc) init)

theorem safe_readProperties {σ : Type} {read : σ → UInt8 → Reader DecodeError σ}
    (h : ∀ acc tag, Safe 0 (read acc tag) 0 0) (init : σ) : Safe 0 (readProperties read init) 0 1 :=
  safe_takeProperties.bind_zero fun _ =>
    Safe.within 0 (Safe.whileRemaining (fun acc => (Safe.getU8 0).bind_zero (h acc)) init)

/-- The loop over the properties of a block, one type byte at a time. -/
abbrev FeedsProps {σ : Type} (read : σ → UInt8 → Reader DecodeError σ) (acc : σ) (bs : Bytes)
    (acc' : σ) : Prop := Feeds (fun acc => getU8 >>= read acc) acc bs acc'

theorem decodes_readProperties {σ : Type} {read : σ → UInt8 → Reader DecodeError σ} {init acc : σ}
    {bs : Bytes} (feeds : FeedsProps read init bs acc) (h : bs.length ≤ MAX_PACKET_SIZE) :
    Decodes (readProperties read init) (varInt bs.length ++ bs) acc :=
  (decodes_takeProperties h).bind_last (Decodes.within feeds.decodesAll)

end OxiMqtt.Codec

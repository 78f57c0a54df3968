import OxiMqtt.Codec.Utils
import OxiMqtt.Lib.Framing

/-!
# The frame loop of the codecs

`Decoder::decode` of `codec/v3/codec.rs` and `codec/v5/codec.rs` have the same
loop: read the fixed header, remember it, wait for the body, and hand the body to
the packet decoder.  The loop is written once over the packet decoder and the size
limit; a codec stores its state (`Framed`).

The loop is an incremental decoder in the sense of `Wire.Incremental`, and it never
returns a packet whose announced length is above the limit.
-/

namespace OxiMqtt.Codec

open Wire Wire.Reader

/-- `DecodeState` -/
inductive DecodeState : Type
  | frameHeader
  | frame (fixed : FixedHeader)
  deriving DecidableEq, Repr

/-- What a call of the loop returns: its result, the state and the rest of the buffer. -/
abbrev Call (π : Type) : Type := Outcome DecodeError (Option (π × Nat)) × DecodeState × Bytes

section Loop

variable {π : Type} (decodePacket : UInt8 → Reader DecodeError π)

/-- The `Frame` arm of the loop. -/
def decodeFrame (fixed : FixedHeader) (src : Bytes) : Call π :=
  if src.length < fixed.remainingLength then (.ok none, .frame fixed, src)
  else
    let rest := src.drop fixed.remainingLength
    match decodePacket fixed.firstByte (src.take fixed.remainingLength) with
    | .ok (packet, _) => (.ok (some (packet, fixed.remainingLength)), .frameHeader, rest)
    | .err e => (.err e, .frame fixed, rest)
    | .fault f => (.fault f, .frame fixed, rest)

/-- The `FrameHeader` arm of the loop, which goes on with the `Frame` arm once the
whole frame is in the buffer. -/
def decodeHeader (maxSize : Nat) : Bytes → Call π
  | firstByte :: b :: src =>
      match decodeVariableLength (b :: src) with
      | .ok (some (remainingLength, consumed)) =>
          if maxSize ≠ 0 ∧ maxSize < remainingLength then
            (.err (.maxSizeExceeded remainingLength maxSize), .frameHeader, firstByte :: b :: src)
          else
            let src' := (firstByte :: b :: src).drop (consumed + 1)
            if src'.length < remainingLength then
              (.ok none, .frame ⟨firstByte, remainingLength⟩, src')
            else decodeFrame decodePacket ⟨firstByte, remainingLength⟩ src'
      | .ok none => (.ok none, .frameHeader, firstByte :: b :: src)
      | .err e => (.err e, .frameHeader, firstByte :: b :: src)
      | .fault f => (.fault f, .frameHeader, firstByte :: b :: src)
  | src => (.ok none, .frameHeader, src)

/-- The loop of `Decoder::decode`. -/
def decodeFrames (maxSize : Nat) (state : DecodeState) (src : Bytes) : Call π :=
  match state with
  | .frameHeader => decodeHeader decodePacket maxSize src
  | .frame fixed => decodeFrame decodePacket fixed src

end Loop

/-! ## Variable-length integers that are cut -/

theorem variableLengthLoop_append (shift len : Nat) (src more : Bytes) :
    match variableLengthLoop shift len src with
    | .ok (n, cur) => variableLengthLoop shift len (src ++ more) = .ok (n, cur ++ more)
    | .err .malformedPacket => True
    | .err e => variableLengthLoop shift len (src ++ more) = .err e
    | .fault _ => False := by
  induction src generalizing shift len with
  | nil => trivial
  | cons val src ih =>
      rw [List.cons_append, variableLengthLoop, variableLengthLoop]
      by_cases last : val &&& 0x80 = 0
      · rw [if_pos last, if_pos last]
      · rw [if_neg last, if_neg last]
        by_cases room : shift < 21
        · rw [if_pos room, if_pos room]
          exact ih _ _
        · rw [if_neg room, if_neg room]

/-- Bytes behind a complete length do not change it, nor an invalid one. -/
theorem decodeVariableLength_append (src more : Bytes) :
    match decodeVariableLength src with
    | .ok (some (n, consumed)) => consumed ≤ src.length ∧
        decodeVariableLength (src ++ more) = .ok (some (n, consumed))
    | .ok none => True
    | .err e => decodeVariableLength (src ++ more) = .err e
    | .fault _ => False := by
  have law := variableLengthLoop_append 0 0 src more
  unfold decodeVariableLength decodeVariableLengthCursor
  rcases h : variableLengthLoop 0 0 src with ⟨n, cur⟩ | e | f
  · rw [h] at law
    dsimp only at law ⊢
    rw [law]
    refine ⟨Nat.sub_le _ _, ?_⟩
    dsimp only
    rw [List.length_append, List.length_append, Nat.add_sub_add_right]
  · rw [h] at law
    cases e <;> first | trivial | (dsimp only at law ⊢; rw [law])
  · rw [h] at law
    exact law

/-- A length is read back, whatever comes behind it. -/
theorem decodeVariableLength_varInt {n : Nat} (h : n ≤ MAX_PACKET_SIZE) (rest : Bytes) :
    decodeVariableLength (varInt n ++ rest) = .ok (some (n, (varInt n).length)) := by
  rw [decodeVariableLength, decodes_varInt h]
  dsimp only
  rw [List.length_append, Nat.add_sub_cancel]

/-- A length that is cut is incomplete: an answer to what is there would be the answer to the whole,
which takes more bytes. -/
theorem decodeVariableLength_prefix {n : Nat} (h : n ≤ MAX_PACKET_SIZE) {front : Bytes}
    (cut : front <+: varInt n) (proper : front ≠ varInt n) :
    decodeVariableLength front = .ok none := by
  obtain ⟨back, whole⟩ := cut
  have shorter : front.length < (varInt n).length := by
    have nonempty : back ≠ [] := fun none => proper (by rw [← whole, none, List.append_nil])
    have pos := List.length_pos_iff.mpr nonempty
    rw [← whole, List.length_append]
    omega
  have answer : decodeVariableLength (front ++ back) = .ok (some (n, (varInt n).length)) := by
    have read := decodeVariableLength_varInt h []
    rw [List.append_nil] at read
    rw [whole]
    exact read
  have law := decodeVariableLength_append front back
  rw [answer] at law
  rcases read : decodeVariableLength front with (_ | ⟨m, consumed⟩) | e | f
  · rfl
  · rw [read] at law
    obtain ⟨within, same⟩ := law
    cases same
    omega
  · rw [read] at law
    cases law
  · rw [read] at law
    exact law.elim

/-- The bytes of `write_variable_length` are as many as both tables say, they are read back whatever
comes behind them, and cut short they are incomplete; and the number is recovered from its sum with
the number of its bytes. -/
theorem variableLength_coherent (n : Nat) (h : n ≤ 268435455) :
    ∃ bytes, ByteWriter.Writes (writeVariableLength n) bytes ∧ bytes.length = varIntLen n ∧
      varIntLen n = varIntLenU32 n ∧
      (∀ rest, decodeVariableLength (bytes ++ rest) = .ok (some (n, varIntLen n))) ∧
      (∀ front, front <+: bytes → front ≠ bytes → decodeVariableLength front = .ok none) ∧
      varIntLenFromSize (varIntLen n + n) = pure n := by
  have length := varIntLen_eq h
  have lengthU32 : varIntLenU32 n = (varInt n).length := by
    rw [varIntLenU32_eq (by omega), if_pos (show n ≤ MAX_PACKET_SIZE from h)]
  rw [lengthU32, length]
  exact ⟨varInt n, writes_writeVariableLength h, rfl, rfl, decodeVariableLength_varInt h,
    fun _ => decodeVariableLength_prefix h, varIntLenFromSize_eq h⟩

/-- The least number of two bytes. -/
theorem variableLength_coherent_128 :
    ∃ bytes, ByteWriter.Writes (writeVariableLength 128) bytes ∧ bytes.length = varIntLen 128 ∧
      varIntLen 128 = varIntLenU32 128 ∧
      (∀ rest, decodeVariableLength (bytes ++ rest) = .ok (some (128, varIntLen 128))) ∧
      (∀ front, front <+: bytes → front ≠ bytes → decodeVariableLength front = .ok none) ∧
      varIntLenFromSize (varIntLen 128 + 128) = pure 128 :=
  variableLength_coherent 128 (by decide)

/-! ## The loop as an incremental decoder -/

section Laws

variable {π : Type} {decodePacket : UInt8 → Reader DecodeError π} {maxSize : Nat}

/-- A complete header within the limit hands over to the `Frame` arm, whether or not
the body is there. -/
theorem decodeHeader_eq {firstByte b : UInt8} {src : Bytes} {remainingLength consumed : Nat}
    (header : decodeVariableLength (b :: src) = .ok (some (remainingLength, consumed)))
    (within : ¬ (maxSize ≠ 0 ∧ maxSize < remainingLength)) :
    decodeHeader decodePacket maxSize (firstByte :: b :: src) =
      decodeFrame decodePacket ⟨firstByte, remainingLength⟩ ((b :: src).drop consumed) := by
  rw [decodeHeader, header]
  dsimp only
  rw [if_neg within, List.drop_succ_cons]
  split
  · rename_i short
    rw [decodeFrame, if_pos short]
  · rfl

theorem decodeFrame_append (decodePacket : UInt8 → Reader DecodeError π) (fixed : FixedHeader)
    (src more : Bytes) :
    match decodeFrame decodePacket fixed src with
    | (.ok (some a), s', b') =>
        decodeFrame decodePacket fixed (src ++ more) = (.ok (some a), s', b' ++ more)
    | (.ok none, s', b') => s' = .frame fixed ∧ b' = src
    | (.err e, _, _) => (decodeFrame decodePacket fixed (src ++ more)).1 = .err e
    | (.fault f, _, _) => (decodeFrame decodePacket fixed (src ++ more)).1 = .fault f := by
  unfold decodeFrame
  by_cases short : src.length < fixed.remainingLength
  · rw [if_pos short]
    exact ⟨rfl, rfl⟩
  · have enough : fixed.remainingLength ≤ src.length := Nat.le_of_not_lt short
    rw [if_neg short, if_neg (by rw [List.length_append]; omega),
      List.take_append_of_le_length enough, List.drop_append_of_le_length enough]
    rcases decodePacket fixed.firstByte (src.take fixed.remainingLength) with ⟨p, -⟩ | e | f <;> rfl

theorem decodeHeader_append (decodePacket : UInt8 → Reader DecodeError π) (maxSize : Nat)
    (src more : Bytes) :
    match decodeHeader decodePacket maxSize src with
    | (.ok (some a), s', b') =>
        decodeHeader decodePacket maxSize (src ++ more) = (.ok (some a), s', b' ++ more)
    | (.ok none, s', b') =>
        decodeHeader decodePacket maxSize (src ++ more) =
          decodeFrames decodePacket maxSize s' (b' ++ more)
    | (.err e, _, _) => (decodeHeader decodePacket maxSize (src ++ more)).1 = .err e
    | (.fault f, _, _) => (decodeHeader decodePacket maxSize (src ++ more)).1 = .fault f := by
  match src with
  | [] => rfl
  | [firstByte] => rfl
  | firstByte :: b :: src =>
      have law := decodeVariableLength_append (b :: src) more
      rw [List.cons_append] at law
      rcases header : decodeVariableLength (b :: src) with (_ | ⟨n, consumed⟩) | e | f
      · rw [decodeHeader, header]
        rfl
      · rw [header] at law
        obtain ⟨inside, header'⟩ := law
        by_cases large : maxSize ≠ 0 ∧ maxSize < n
        · rw [List.cons_append, List.cons_append, decodeHeader, decodeHeader, header, header']
          dsimp only
          rw [if_pos large, if_pos large]
        · have body := decodeFrame_append decodePacket ⟨firstByte, n⟩
            ((b :: src).drop consumed) more
          have shift : ((b :: src) ++ more).drop consumed = (b :: src).drop consumed ++ more :=
            List.drop_append_of_le_length inside
          rw [decodeHeader_eq header large, List.cons_append, List.cons_append,
            decodeHeader_eq header' large, ← List.cons_append, shift]
          rcases run : decodeFrame decodePacket ⟨firstByte, n⟩ ((b :: src).drop consumed)
            with ⟨(_ | a) | e | f, s', b'⟩
          · rw [run] at body
            obtain ⟨rfl, rfl⟩ := body
            rfl
          all_goals
            rw [run] at body
            exact body
      · rw [header] at law
        rw [List.cons_append, List.cons_append, decodeHeader, decodeHeader, header, law]
      · rw [header] at law
        exact law.elim

/-- A whole frame within the limit: its content is handed over to the packet decoder. -/
theorem decodeHeader_content {firstByte : UInt8} {content : Bytes}
    (small : content.length ≤ MAX_PACKET_SIZE)
    (within : ¬ (maxSize ≠ 0 ∧ maxSize < content.length)) (rest : Bytes) :
    decodeHeader decodePacket maxSize (firstByte :: (varInt content.length ++ content) ++ rest) =
      match decodePacket firstByte content with
      | .ok (packet, _) => (.ok (some (packet, content.length)), .frameHeader, rest)
      | .err e => (.err e, .frame ⟨firstByte, content.length⟩, rest)
      | .fault f => (.fault f, .frame ⟨firstByte, content.length⟩, rest) := by
  have header : decodeVariableLength (varInt content.length ++ (content ++ rest)) =
      .ok (some (content.length, (varInt content.length).length)) :=
    decodeVariableLength_varInt small (content ++ rest)
  rcases bytes : varInt content.length with _ | ⟨b, more⟩
  · exact (varInt_append_ne_nil content.length [] (by rw [bytes]; rfl)).elim
  · rw [bytes, List.cons_append] at header
    rw [List.cons_append, List.append_assoc, List.cons_append, decodeHeader_eq header within,
      ← List.cons_append, List.drop_left, decodeFrame, if_neg (by simp)]
    dsimp only
    rw [List.take_left, List.drop_left]

/-- A whole frame within the limit is read as the packet of its content. -/
theorem decodeHeader_frame {firstByte : UInt8} {content : Bytes} {p : π}
    (small : content.length ≤ MAX_PACKET_SIZE)
    (within : ¬ (maxSize ≠ 0 ∧ maxSize < content.length))
    (h : DecodesAll (decodePacket firstByte) content p) (rest : Bytes) :
    decodeHeader decodePacket maxSize (firstByte :: (varInt content.length ++ content) ++ rest) =
      (.ok (some (p, content.length)), .frameHeader, rest) := by
  rw [decodeHeader_content small within, h]

/-- Bytes behind the buffer do not change what a call of the loop returns. -/
theorem decodeFrames_append (decodePacket : UInt8 → Reader DecodeError π) (maxSize : Nat)
    (state : DecodeState) (src more : Bytes) :
    match decodeFrames decodePacket maxSize state src with
    | (.ok (some a), s', b') =>
        decodeFrames decodePacket maxSize state (src ++ more) = (.ok (some a), s', b' ++ more)
    | (.ok none, s', b') =>
        decodeFrames decodePacket maxSize state (src ++ more) =
          decodeFrames decodePacket maxSize s' (b' ++ more)
    | (.err e, _, _) => (decodeFrames decodePacket maxSize state (src ++ more)).1 = .err e
    | (.fault f, _, _) => (decodeFrames decodePacket maxSize state (src ++ more)).1 = .fault f := by
  cases state with
  | frameHeader => exact decodeHeader_append decodePacket maxSize src more
  | frame fixed =>
      have law := decodeFrame_append decodePacket fixed src more
      rcases run : decodeFrame decodePacket fixed src with ⟨(_ | a) | e | f, s', b'⟩
      all_goals
        rw [run] at law
        have run' : decodeFrames decodePacket maxSize (.frame fixed) src = _ := run
        rw [run']
      · obtain ⟨rfl, rfl⟩ := law
        rfl
      all_goals exact law

/-- A frame that is waited for adds to the measure of progress. -/
def DecodeState.pending : DecodeState → Nat
  | .frameHeader => 0
  | .frame _ => 1

theorem decodeFrame_item {fixed : FixedHeader} {src rest : Bytes} {a : π × Nat} {s : DecodeState}
    (h : decodeFrame decodePacket fixed src = (.ok (some a), s, rest)) :
    s = .frameHeader ∧ rest.length ≤ src.length ∧ a.2 = fixed.remainingLength := by
  unfold decodeFrame at h
  split at h
  · cases h
  · rcases hd : decodePacket fixed.firstByte (src.take fixed.remainingLength) with ⟨p, left⟩ | e | f
    · rw [hd] at h
      cases h
      exact ⟨rfl, by simp, rfl⟩
    · rw [hd] at h
      cases h
    · rw [hd] at h
      cases h

/-- What a call in the `FrameHeader` arm that returns an item has done. -/
theorem decodeHeader_item {src rest : Bytes} {a : π × Nat} {s : DecodeState}
    (h : decodeHeader decodePacket maxSize src = (.ok (some a), s, rest)) :
    ∃ firstByte b src' consumed, src = firstByte :: b :: src' ∧
      decodeVariableLength (b :: src') = .ok (some (a.2, consumed)) ∧
      ¬ (maxSize ≠ 0 ∧ maxSize < a.2) ∧
      decodeFrame decodePacket ⟨firstByte, a.2⟩ ((b :: src').drop consumed) =
        (.ok (some a), s, rest) := by
  match src, h with
  | firstByte :: b :: src, h =>
      rcases header : decodeVariableLength (b :: src) with (_ | ⟨n, consumed⟩) | e | f
      · rw [decodeHeader, header] at h
        cases h
      · by_cases large : maxSize ≠ 0 ∧ maxSize < n
        · rw [decodeHeader, header] at h
          dsimp only at h
          rw [if_pos large] at h
          cases h
        · rw [decodeHeader_eq header large] at h
          have len : a.2 = n := (decodeFrame_item h).2.2
          subst len
          exact ⟨firstByte, b, src, consumed, rfl, header, large, h⟩
      · rw [decodeHeader, header] at h
        cases h
      · rw [decodeHeader, header] at h
        cases h

theorem decodeFrames_progress {state state' : DecodeState} {src rest : Bytes} {a : π × Nat}
    (h : decodeFrames decodePacket maxSize state src = (.ok (some a), state', rest)) :
    2 * rest.length + state'.pending < 2 * src.length + state.pending := by
  cases state with
  | frameHeader =>
      obtain ⟨firstByte, b, src', consumed, rfl, -, -, body⟩ := decodeHeader_item h
      obtain ⟨rfl, le, -⟩ := decodeFrame_item body
      simp only [DecodeState.pending, List.length_cons, List.length_drop] at le ⊢
      omega
  | frame fixed =>
      obtain ⟨rfl, le, -⟩ := decodeFrame_item h
      simp only [DecodeState.pending]
      omega

/-- The frame that is waited for is within the limit. -/
def DecodeState.Within (maxSize : Nat) : DecodeState → Prop
  | .frameHeader => True
  | .frame fixed => maxSize = 0 ∨ fixed.remainingLength ≤ maxSize

theorem decodeFrame_state (decodePacket : UInt8 → Reader DecodeError π) (fixed : FixedHeader)
    (src : Bytes) :
    (decodeFrame decodePacket fixed src).2.1 = .frameHeader ∨
      (decodeFrame decodePacket fixed src).2.1 = .frame fixed := by
  unfold decodeFrame
  split
  · exact .inr rfl
  · rcases decodePacket fixed.firstByte (src.take fixed.remainingLength) with ⟨p, -⟩ | e | f
    · exact .inl rfl
    · exact .inr rfl
    · exact .inr rfl

theorem decodeFrame_within {fixed : FixedHeader} (src : Bytes)
    (h : maxSize = 0 ∨ fixed.remainingLength ≤ maxSize) :
    (decodeFrame decodePacket fixed src).2.1.Within maxSize ∧
      ∀ a, (decodeFrame decodePacket fixed src).1 = .ok (some a) → maxSize = 0 ∨ a.2 ≤ maxSize := by
  constructor
  · rcases decodeFrame_state decodePacket fixed src with state | state
    · rw [state]
      trivial
    · rw [state]
      exact h
  · intro a item
    have len := (decodeFrame_item (Prod.ext item rfl)).2.2
    omega

/-- A call from a state within the limit stays within the limit, and returns no
packet that is longer. -/
theorem decodeFrames_within (decodePacket : UInt8 → Reader DecodeError π) {state : DecodeState}
    (src : Bytes) (h : state.Within maxSize) :
    (decodeFrames decodePacket maxSize state src).2.1.Within maxSize ∧
      ∀ a, (decodeFrames decodePacket maxSize state src).1 = .ok (some a) →
        maxSize = 0 ∨ a.2 ≤ maxSize := by
  cases state with
  | frame fixed => exact decodeFrame_within src h
  | frameHeader =>
      change (decodeHeader decodePacket maxSize src).2.1.Within maxSize ∧
        ∀ a, (decodeHeader decodePacket maxSize src).1 = .ok (some a) → maxSize = 0 ∨ a.2 ≤ maxSize
      match src with
      | [] => exact ⟨trivial, fun a ha => by cases ha⟩
      | [firstByte] => exact ⟨trivial, fun a ha => by cases ha⟩
      | firstByte :: b :: src =>
          rcases header : decodeVariableLength (b :: src) with (_ | ⟨n, consumed⟩) | e | f
          · rw [decodeHeader, header]
            exact ⟨trivial, fun a ha => by cases ha⟩
          · by_cases large : maxSize ≠ 0 ∧ maxSize < n
            · rw [decodeHeader, header]
              dsimp only
              rw [if_pos large]
              exact ⟨trivial, fun a ha => by cases ha⟩
            · rw [decodeHeader_eq header large]
              exact decodeFrame_within _ (by dsimp only; omega)
          · rw [decodeHeader, header]
            exact ⟨trivial, fun a ha => by cases ha⟩
          · rw [decodeHeader, header]
            exact ⟨trivial, fun a ha => by cases ha⟩

end Laws

/-! ## Codecs around the loop -/

/-- How a codec of type `κ` for packets `π` holds the state of the loop. -/
structure Framed (κ π : Type) : Type where
  decodePacket : UInt8 → Reader DecodeError π
  maxSize : κ → Nat
  state : κ → DecodeState
  /-- The codec after a call with this result and final state. -/
  update : κ → Outcome DecodeError (Option (π × Nat)) → DecodeState → κ
  maxSize_update : ∀ c r s, maxSize (update c r s) = maxSize c
  state_update : ∀ c r s, state (update c r s) = s
  update_update : ∀ c r s s', update (update c (.ok none) s) r s' = update c r s'

namespace Framed

variable {κ π : Type} (codec : Framed κ π)

/-- `Decoder::decode` -/
def decode (c : κ) (src : Bytes) : Outcome DecodeError (Option (π × Nat)) × κ × Bytes :=
  let (r, state, src) := decodeFrames codec.decodePacket (codec.maxSize c) (codec.state c) src
  (r, codec.update c r state, src)

theorem decode_of_run {c : κ} {src rest : Bytes} {r : Outcome DecodeError (Option (π × Nat))}
    {state : DecodeState}
    (h : decodeFrames codec.decodePacket (codec.maxSize c) (codec.state c) src = (r, state, rest)) :
    codec.decode c src = (r, codec.update c r state, rest) := by
  rw [decode, h]

theorem decode_item {c c' : κ} {src rest : Bytes} {a : π × Nat}
    (h : codec.decode c src = (.ok (some a), c', rest)) :
    ∃ state, decodeFrames codec.decodePacket (codec.maxSize c) (codec.state c) src =
      (.ok (some a), state, rest) ∧ codec.state c' = state := by
  rcases run : decodeFrames codec.decodePacket (codec.maxSize c) (codec.state c) src
    with ⟨r, state, rest'⟩
  rw [codec.decode_of_run run] at h
  cases h
  exact ⟨state, rfl, codec.state_update _ _ _⟩

/-- The codec as an incremental decoder. -/
def incremental : Incremental κ DecodeError (π × Nat) where
  decode := codec.decode
  pending c := (codec.state c).pending
  progress := by
    intro c src a c' rest h
    obtain ⟨state, run, rfl⟩ := codec.decode_item h
    exact decodeFrames_progress run
  append := by
    intro c src more
    have law := decodeFrames_append codec.decodePacket (codec.maxSize c) (codec.state c) src more
    rcases run : decodeFrames codec.decodePacket (codec.maxSize c) (codec.state c) src
      with ⟨(_ | a) | e | f, state, rest⟩
    · rw [run] at law
      rw [codec.decode_of_run run]
      dsimp only at law ⊢
      unfold decode
      rw [codec.maxSize_update, codec.state_update, law]
      simp only [codec.update_update]
    · rw [run] at law
      rw [codec.decode_of_run run]
      exact codec.decode_of_run law
    · rw [run] at law
      rw [codec.decode_of_run run]
      exact law
    · rw [run] at law
      rw [codec.decode_of_run run]
      exact law

/-- A codec with this limit waits for no frame above it. -/
def Within (maxSize : Nat) (c : κ) : Prop :=
  codec.maxSize c = maxSize ∧ (codec.state c).Within maxSize

theorem decode_within {maxSize : Nat} {c : κ} {src : Bytes} (h : codec.Within maxSize c) :
    codec.Within maxSize (codec.decode c src).2.1 ∧
      ∀ a, (codec.decode c src).1 = .ok (some a) → maxSize = 0 ∨ a.2 ≤ maxSize := by
  obtain ⟨rfl, state⟩ := h
  have run := decodeFrames_within codec.decodePacket src state
  refine ⟨⟨codec.maxSize_update _ _ _, ?_⟩, run.2⟩
  unfold decode
  rw [codec.state_update]
  exact run.1

end Framed

end OxiMqtt.Codec

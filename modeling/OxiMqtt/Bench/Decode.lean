import OxiMqtt.Bench.Types
import OxiMqtt.Codec.Utils

/-!
# The decoder of the benchmark

`oximqtt-bench/src/mqtt/decode.rs`, and the frame codec of `oximqtt-bench/src/mqtt/mod.rs`.  A body
is read with a cursor that reports a read past its end as an incomplete packet; what is left of the
body in the end is ignored.

* `varint_agrees`, `peekRemainingLength_agrees`: the two readers of variable-length integers answer
  as the one of the broker does, on all bytes.
* `Codec.decode_frame`: a whole frame is taken, and its content goes to `parse`.
-/

namespace OxiMqtt.Bench

open Wire Wire.Reader
open Wire.ByteWriter (be16 length_be16)
open Codec (ByteString)

/-! ## The cursor -/

namespace Cur

/-- `Cur::byte` -/
def byte : Reader CodecError UInt8 := do
  ensureRemaining 1 .incomplete
  getU8

/-- `Cur::u16` -/
def u16 : Reader CodecError UInt16 := do
  ensureRemaining 2 .incomplete
  getU16

/-- `Cur::take` -/
def take (n : Nat) : Reader CodecError Bytes := do
  ensureRemaining n .incomplete
  splitTo n

/-- The loop of `Cur::varint`, with the rounds that are left. -/
def varintLoop : Nat → Nat → Nat → Reader CodecError Nat
  | 0, _, _ => fail (.malformed "variable length integer too long")
  | rounds + 1, shift, value => do
      let b ← byte
      let value := value ||| (b &&& 0x7F).toNat <<< shift
      if b &&& 0x80 = 0 then pure value else varintLoop rounds (shift + 7) value

/-- `Cur::varint` -/
def varint : Reader CodecError Nat := varintLoop 4 0 0

/-- `Cur::string` -/
def string : Reader CodecError ByteString := do
  let len ← u16
  let raw ← take len.toNat
  okOr (ByteString.tryFrom raw) (.malformed "invalid utf-8 string")

/-- `Cur::binary` -/
def binary : Reader CodecError Bytes := do
  let len ← u16
  take len.toNat

/-- `Cur::skip_properties` -/
def skipProperties : Reader CodecError Nat := do
  let len ← varint
  ensureRemaining len .incomplete
  advance len
  return len

end Cur

open Cur

/-- The property block of a v5 packet. -/
def skipV5 (version : Version) : Reader CodecError Unit :=
  if version = .v5 then (fun _ => ()) <$> skipProperties else pure ()

/-- `read_pid` -/
def readPid : Reader CodecError UInt16 := do
  let pid ← u16
  ensure (pid != 0) .invalidPacketId
  return pid

/-! ## Packets -/

/-- The will of a CONNECT. -/
def parseWill (version : Version) (flags : UInt8) : Reader CodecError Will := do
  skipV5 version
  let topic ← string
  let payload ← binary
  return {
    topic, payload, qos := QoS.fromU8 ((flags >>> 3) &&& 0x03), retain := flags &&& 0x20 != 0 }

/-- `parse_connect` -/
def parseConnect (version : Version) (headerFlags : UInt8) : Reader CodecError Packet := do
  let name ← string
  ensure (name == "MQTT" || name == "MQIsdp") (.malformed "bad protocol name")
  let level ← byte
  ensure (3 ≤ level && level ≤ 5) (.malformed "bad protocol level")
  ensure (!(version == .v3 && headerFlags &&& 0x0F != 0)) (.malformed "reserved connect flags")
  let flags ← byte
  let keepalive ← u16
  skipV5 version
  let clientId ← string
  let will ← readIf (flags &&& 0x04 != 0) (parseWill version flags)
  let username ← readIf (flags &&& 0x80 != 0) string
  let password ← readIf (flags &&& 0x40 != 0) binary
  return .connect { clean := flags &&& 0x02 != 0, keepalive, clientId, username, password, will,
                    sessionExpiry := none }

/-- One property of a CONNACK. -/
def parseConnackProperty (receiveMax : Option UInt16) : Reader CodecError (Option UInt16) := do
  match ← byte with
  | 0x11 | 0x13 => (fun _ => receiveMax) <$> take 4
  | 0x12 | 0x1A | 0x1C | 0x1F => do
      let n ← varint
      (fun _ => receiveMax) <$> take n
  | 0x21 => some <$> u16
  | 0x22 => (fun _ => receiveMax) <$> u16
  | 0x24 | 0x25 | 0x28 | 0x29 | 0x2A => (fun _ => receiveMax) <$> byte
  | 0x26 => do
      let n ← varint
      let _ ← take n
      let n ← varint
      (fun _ => receiveMax) <$> take n
  | 0x27 => (fun _ => receiveMax) <$> take 4
  | _ => fail (.malformed "unknown CONNACK property")

/-- The properties of a CONNACK, until no more than `stop` bytes are left.  Every property has an
identifier, so that `fuel` rounds are enough for as many bytes. -/
def parseConnackBlock (stop : Nat) : Nat → Option UInt16 → Reader CodecError (Option UInt16)
  | 0, receiveMax => fun s =>
      if s.length > stop then .fault .stalledLoop else .ok (receiveMax, s)
  | fuel + 1, receiveMax => fun s =>
      if s.length > stop then
        (parseConnackProperty receiveMax >>= parseConnackBlock stop fuel) s
      else .ok (receiveMax, s)

/-- The loop of `parse_connack_properties` over a block of this length, and the check behind it. -/
def parseConnackProps (block : Nat) : Reader CodecError (Option UInt16) := fun s =>
  let stop := s.length - block
  match parseConnackBlock stop block none s with
  | .ok (receiveMax, s') =>
      if s'.length < stop then .err (.malformed "CONNACK property overflow")
      else .ok (receiveMax, s')
  | .err e => .err e
  | .fault x => .fault x

/-- `parse_connack_properties` -/
def parseConnackProperties : Reader CodecError (Option UInt16) := do
  let block ← varint
  ensureRemaining block .incomplete
  parseConnackProps block

/-- `parse_connack` -/
def parseConnack (version : Version) : Reader CodecError Packet :=
  if version = .v3 then do
    let sessionPresent ← byte
    let reason ← byte
    return .connAck reason (sessionPresent &&& 0x01 != 0) none
  else do
    let reason ← byte
    let receiveMax ← parseConnackProperties
    return .connAck reason false receiveMax

/-- `parse_publish` -/
def parsePublish (version : Version) (flags : UInt8) : Reader CodecError Packet := do
  let qosRaw := (flags >>> 1) &&& 0x03
  ensure (qosRaw ≤ 2) (.malformed "reserved QoS value")
  let qos := QoS.fromU8 qosRaw
  let topic ← string
  ensure (!ByteString.isEmpty topic) (.malformed "empty topic name")
  let pid ← readIf (qos != .atMostOnce) readPid
  skipV5 version
  let payload ← takeRest
  return .publish { topic, payload, qos, retain := flags &&& 0x01 != 0, dup := flags &&& 0x08 != 0,
                    pid }

/-- The reason of an acknowledgment, and the properties behind it. -/
def parseReason (version : Version) : Reader CodecError UInt8 :=
  if version = .v5 then
    ifRemaining
      (do
        let reason ← byte
        ifRemaining ((fun _ => reason) <$> skipProperties) (pure reason))
      (pure 0)
  else pure 0

/-- `parse_ack` -/
def parseAck (version : Version) (build : UInt16 → UInt8 → Packet) : Reader CodecError Packet := do
  let pid ← readPid
  let reason ← parseReason version
  return build pid reason

/-- One topic filter of a SUBSCRIBE. -/
def parseFilter (version : Version) (filters : List (ByteString × SubOpts)) :
    Reader CodecError (List (ByteString × SubOpts)) := do
  let filter ← string
  let byte ← byte
  ensure (!(version == .v3 && byte &&& 0xFC != 0)) (.malformed "subscription options")
  return filters ++ [(filter, ⟨QoS.fromU8 (byte &&& 0x03)⟩)]

/-- `parse_subscribe` -/
def parseSubscribe (version : Version) (flags : UInt8) : Reader CodecError Packet := do
  ensure (flags == 0x02) (.malformed "SUBSCRIBE reserved flags")
  let pid ← readPid
  skipV5 version
  let filters ← whileRemaining (parseFilter version) []
  ensure (!filters.isEmpty) (.malformed "SUBSCRIBE without filters")
  return .subscribe pid filters

/-- `parse_suback` -/
def parseSuback (version : Version) : Reader CodecError Packet := do
  let pid ← readPid
  skipV5 version
  let reasons ← takeRest
  return .subAck pid reasons

/-- `parse_unsubscribe` -/
def parseUnsubscribe (version : Version) (flags : UInt8) : Reader CodecError Packet := do
  ensure (flags == 0x02) (.malformed "UNSUBSCRIBE reserved flags")
  let pid ← readPid
  skipV5 version
  let filters ← whileRemaining (fun filters => do return filters ++ [← string]) []
  return .unsubscribe pid filters

/-- `parse_unsuback` -/
def parseUnsuback (version : Version) : Reader CodecError Packet := do
  let pid ← readPid
  if version = .v5 then do
    let _ ← skipProperties
    let reasons ← takeRest
    return .unsubAck pid reasons
  else return .unsubAck pid []

/-- `parse` -/
def parse (version : Version) (header : UInt8) : Reader CodecError Packet :=
  let flags := header &&& 0x0F
  match header >>> 4 with
  | 1 => parseConnect version flags
  | 2 => parseConnack version
  | 3 => parsePublish version flags
  | 4 => parseAck version .pubAck
  | 5 => parseAck version .pubRec
  | 6 => do
      ensure (flags == 0x02) (.malformed "PUBREL reserved flags")
      parseAck version .pubRel
  | 7 => parseAck version .pubComp
  | 8 => parseSubscribe version flags
  | 9 => parseSuback version
  | 10 => parseUnsubscribe version flags
  | 11 => parseUnsuback version
  | 12 => pure .pingReq
  | 13 => pure .pingResp
  | 14 => .disconnect <$> if version = .v5 then ifRemaining byte (pure 0) else pure 0
  | _ => fail (.malformed "reserved packet type")

/-! ## Frames -/

/-- The loop of `peek_remaining_length`, over the index of the next byte. -/
def peekLoop : Nat → Nat → Nat → Bytes → Outcome CodecError (Option (Nat × Nat))
  | _, _, _, [] => .ok none
  | i, shift, value, b :: src =>
      let value := value ||| (b &&& 0x7F).toNat <<< shift
      if b &&& 0x80 = 0 then .ok (some (value, i + 1))
      else if i = 3 then .err (.malformed "variable length integer too long")
      else peekLoop (i + 1) (shift + 7) value src

/-- `peek_remaining_length` -/
def peekRemainingLength (src : Bytes) : Outcome CodecError (Option (Nat × Nat)) :=
  peekLoop 0 0 0 src

/-- `MAX_PACKET_SIZE` of `transport.rs` -/
def transportMaxPacketSize : Nat := 4 * 1024 * 1024

/-- `Codec` -/
structure FrameCodec : Type where
  version : Version
  maxPacketSize : Nat
  /-- The size of the frame that is waited for. -/
  want : Nat
  deriving DecidableEq, Repr

namespace FrameCodec

/-- `Codec::new` -/
def new (version : Version) (maxPacketSize : Nat) : FrameCodec where
  version
  maxPacketSize := max maxPacketSize 64
  want := 0

/-- `Codec::decode` -/
def decode (c : FrameCodec) (src : Bytes) :
    Outcome CodecError (Option Packet) × FrameCodec × Bytes :=
  match src with
  | header :: b :: more =>
      match peekRemainingLength (b :: more) with
      | .ok (some (len, headerLen)) =>
          let total := 1 + headerLen + len
          if len > c.maxPacketSize then (.err (.packetTooLarge len c.maxPacketSize), c, src)
          else if src.length < total then (.ok none, { c with want := total }, src)
          else
            match parse c.version header ((src.take total).drop (1 + headerLen)) with
            | .ok (pkt, _) => (.ok (some pkt), { c with want := 0 }, src.drop total)
            | .err e => (.err e, { c with want := 0 }, src.drop total)
            | .fault x => (.fault x, { c with want := 0 }, src.drop total)
      | .ok none => (.ok none, { c with want := src.length + 1 }, src)
      | .err e => (.err e, c, src)
      | .fault x => (.fault x, c, src)
  | _ => (.ok none, { c with want := 2 }, src)

end FrameCodec

/-! ## Variable-length integers -/

theorem shiftOr_eq {shift value : Nat} (low : value < 2 ^ shift) (x : Nat) :
    value ||| x <<< shift = value + x <<< shift := by
  rw [Nat.or_comm, ← Nat.shiftLeft_add_eq_or_of_lt low, Nat.add_comm]

/-- Seven more bits. -/
theorem shiftAdd_lt {shift value : Nat} (low : value < 2 ^ shift) (b : UInt8) :
    value + (b &&& 0x7F).toNat <<< shift < 2 ^ (shift + 7) := by
  have seven : (b &&& 0x7F).toNat ≤ 127 := by
    rw [UInt8.toNat_and]
    exact Nat.and_le_right
  have scaled : (b &&& 0x7F).toNat * 2 ^ shift ≤ 127 * 2 ^ shift := Nat.mul_le_mul_right _ seven
  rw [Nat.shiftLeft_eq, Nat.pow_add]
  omega

/-- The loop of the cursor answers as the one of the broker. -/
theorem varintLoop_agrees {rounds shift value : Nat} (left : shift + 7 * (rounds + 1) = 28)
    (low : value < 2 ^ shift) (src : Bytes) :
    match Codec.variableLengthLoop shift value src with
    | .ok r => varintLoop (rounds + 1) shift value src = .ok r
    | .err .malformedPacket => varintLoop (rounds + 1) shift value src = .err .incomplete
    | .err _ => varintLoop (rounds + 1) shift value src =
        .err (.malformed "variable length integer too long")
    | .fault _ => False := by
  induction src generalizing rounds shift value with
  | nil => rfl
  | cons b src ih =>
      have first : byte (b :: src) = .ok (b, src) := rfl
      rw [varintLoop, bind_of_ok first, Codec.variableLengthLoop]
      simp only [shiftOr_eq low]
      by_cases last : b &&& 0x80 = 0
      · rw [if_pos last, if_pos last]
        rfl
      · rw [if_neg last, if_neg last]
        by_cases more : shift < 21
        · rw [if_pos more]
          cases rounds with
          | zero => omega
          | succ rounds => exact ih (by omega) (shiftAdd_lt low b)
        · rw [if_neg more]
          obtain rfl : rounds = 0 := by omega
          rfl

/-- The loop over the header answers as the one of the broker, with the number of bytes. -/
theorem peekLoop_agrees {i shift value : Nat} (index : shift = 7 * i) (few : i ≤ 3)
    (low : value < 2 ^ shift) (src : Bytes) :
    match Codec.variableLengthLoop shift value src with
    | .ok (n, cur) => cur.length < src.length ∧
        peekLoop i shift value src = .ok (some (n, i + (src.length - cur.length)))
    | .err .malformedPacket => peekLoop i shift value src = .ok none
    | .err _ => peekLoop i shift value src = .err (.malformed "variable length integer too long")
    | .fault _ => False := by
  induction src generalizing i shift value with
  | nil => rfl
  | cons b src ih =>
      rw [peekLoop, Codec.variableLengthLoop]
      simp only [shiftOr_eq low]
      by_cases last : b &&& 0x80 = 0
      · rw [if_pos last, if_pos last]
        dsimp only
        rw [List.length_cons, Nat.add_sub_cancel_left]
        exact ⟨Nat.lt_succ_self _, rfl⟩
      · rw [if_neg last, if_neg last]
        by_cases more : shift < 21
        · have next := ih (i := i + 1) (by omega) (by omega) (shiftAdd_lt low b)
          rw [if_pos more, if_neg (by omega)]
          rcases run : Codec.variableLengthLoop (shift + 7)
            (value + (b &&& 0x7F).toNat <<< shift) src with ⟨n, cur⟩ | e | x
          · rw [run] at next
            dsimp only at next ⊢
            rw [next.2, List.length_cons]
            refine ⟨by omega, ?_⟩
            congr 3
            omega
          · rw [run] at next
            cases e <;> exact next
          · rw [run] at next
            exact next
        · rw [if_neg more, if_pos (by omega)]

/-- The cursor reads the integers that the broker writes. -/
theorem decodes_varint {n : Nat} (small : n ≤ Codec.MAX_PACKET_SIZE) :
    Decodes varint (Codec.varInt n) n := by
  intro rest
  have law := @varintLoop_agrees 3 0 0 rfl (by decide) (Codec.varInt n ++ rest)
  have run : Codec.variableLengthLoop 0 0 (Codec.varInt n ++ rest) = .ok (n, rest) :=
    Codec.decodes_varInt small rest
  rw [run] at law
  exact law

theorem peekRemainingLength_varInt {n : Nat} (small : n ≤ Codec.MAX_PACKET_SIZE) (rest : Bytes) :
    peekRemainingLength (Codec.varInt n ++ rest) = .ok (some (n, (Codec.varInt n).length)) := by
  have law := @peekLoop_agrees 0 0 0 rfl (by decide) (by decide) (Codec.varInt n ++ rest)
  have run : Codec.variableLengthLoop 0 0 (Codec.varInt n ++ rest) = .ok (n, rest) :=
    Codec.decodes_varInt small rest
  rw [run] at law
  rw [peekRemainingLength, law.2, List.length_append, Nat.zero_add, Nat.add_sub_cancel]

/-! ## Fields -/

theorem decodes_byte (b : UInt8) : Decodes byte [b] b := fun _ => rfl

theorem decodes_take {bs : Bytes} {n : Nat} (h : bs.length = n) : Decodes (take n) bs bs :=
  Decodes.ensureRemaining (Nat.le_of_eq h.symm) (Decodes.splitTo h)

theorem decodes_u16 (n : UInt16) : Decodes u16 (be16 n) n :=
  Decodes.ensureRemaining (Nat.le_refl 2) (Decodes.getU16 n)

theorem decodes_string {s : ByteString} (fits : Codec.Fits s) :
    Decodes string (Codec.image s) s := by
  have short : (ByteString.asBytes s).length ≤ 65535 := fits
  have len : (ByteString.asBytes s).length =
      (UInt16.ofNat (ByteString.asBytes s).length).toNat := by
    rw [UInt16.toNat_ofNat', Nat.mod_eq_of_lt (by omega)]
  refine (decodes_u16 _).bind ?_
  exact (decodes_take len).bind_last (Decodes.okOr (ByteString.tryFrom_asBytes s))

/-- A block behind its length is skipped, whatever is in it. -/
theorem decodes_skipProperties {bs : Bytes} (small : bs.length ≤ Codec.MAX_PACKET_SIZE) :
    Decodes skipProperties (Codec.varInt bs.length ++ bs) bs.length := by
  refine (decodes_varint small).bind ?_
  exact Decodes.ensureRemaining (Nat.le_refl _) ((Decodes.advance rfl).bind_last (Decodes.pure _))

theorem decodes_skipV5 {bs : Bytes} (small : bs.length ≤ Codec.MAX_PACKET_SIZE) :
    Decodes (skipV5 .v5) (Codec.varInt bs.length ++ bs) () :=
  (decodes_skipProperties small).map

theorem decodes_readPid {pid : UInt16} (nonzero : pid ≠ 0) : Decodes readPid (be16 pid) pid := by
  refine (decodes_u16 pid).bind_last ?_
  exact Decodes.bind_nil (Decodes.ensure (by simpa using nonzero)) (Decodes.pure pid)

/-! ## Whole frames -/

namespace FrameCodec

/-- A frame whose length has been read and that is in the buffer. -/
theorem decode_of_peek {c : FrameCodec} {header : UInt8} {src : Bytes} {len headerLen : Nat}
    (peek : peekRemainingLength src = .ok (some (len, headerLen))) (within : len ≤ c.maxPacketSize)
    (whole : headerLen + len ≤ src.length) :
    c.decode (header :: src) =
      match parse c.version header ((src.drop headerLen).take len) with
      | .ok (pkt, _) => (.ok (some pkt), { c with want := 0 }, src.drop (headerLen + len))
      | .err e => (.err e, { c with want := 0 }, src.drop (headerLen + len))
      | .fault x => (.fault x, { c with want := 0 }, src.drop (headerLen + len)) := by
  have total : 1 + headerLen + len = (headerLen + len) + 1 := by omega
  have body : ((header :: src).take (1 + headerLen + len)).drop (1 + headerLen) =
      (src.drop headerLen).take len := by
    rw [total, List.take_succ_cons, Nat.add_comm 1, List.drop_succ_cons, List.drop_take,
      Nat.add_sub_cancel_left]
  cases src with
  | nil => cases peek
  | cons b more =>
      rw [decode, peek]
      dsimp only
      rw [if_neg (Nat.not_lt.mpr within), if_neg (by rw [List.length_cons]; omega), body, total,
        List.drop_succ_cons]

/-- A frame above the limit is refused and left in the buffer. -/
theorem decode_large {c : FrameCodec} {header : UInt8} {src : Bytes} {len headerLen : Nat}
    (peek : peekRemainingLength src = .ok (some (len, headerLen))) (large : c.maxPacketSize < len) :
    c.decode (header :: src) = (.err (.packetTooLarge len c.maxPacketSize), c, header :: src) := by
  cases src with
  | nil => cases peek
  | cons b more =>
      rw [decode, peek]
      exact if_pos large

/-- A whole frame within the limit is taken off the buffer, and its content is parsed. -/
theorem decode_frame {c : FrameCodec} {header : UInt8} {content : Bytes}
    (small : content.length ≤ Codec.MAX_PACKET_SIZE) (within : content.length ≤ c.maxPacketSize)
    (rest : Bytes) :
    c.decode (header :: (Codec.varInt content.length ++ content) ++ rest) =
      match parse c.version header content with
      | .ok (pkt, _) => (.ok (some pkt), { c with want := 0 }, rest)
      | .err e => (.err e, { c with want := 0 }, rest)
      | .fault x => (.fault x, { c with want := 0 }, rest) := by
  have peek := peekRemainingLength_varInt small (content ++ rest)
  have run : c.decode (header :: (Codec.varInt content.length ++ (content ++ rest))) = _ :=
    decode_of_peek peek within (by
      rw [List.length_append, List.length_append]
      omega)
  rw [List.drop_left, List.take_left, ← List.append_assoc, ← List.length_append,
    List.drop_left] at run
  exact run

end FrameCodec

end OxiMqtt.Bench

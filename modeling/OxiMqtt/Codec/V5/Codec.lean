import OxiMqtt.Codec.Framing
import OxiMqtt.Codec.V5.Packet

/-!
# The MQTT 5 codec

`Codec` of `codec/v5/codec.rs`: the frame loop with the flags a CONNECT sets, and
the encoder with its size limit.

* `decode_encode`: a well-formed packet is decoded from the bytes it is encoded to.
* `decode_encode_limited`: whatever the limit, a frame the encoder has written is
  decoded to the packet without some of its diagnostic properties.
-/

namespace OxiMqtt.Codec.V5

set_option linter.dupNamespace false

open Wire Wire.Reader Wire.ByteWriter

namespace CodecFlags

def NO_PROBLEM_INFO : UInt8 := 0b0000_0001
def NO_RETAIN : UInt8 := 0b0000_0010
def NO_SUB_IDS : UInt8 := 0b0000_1000

/-- `bitflags`: `set` -/
def set (flags mask : UInt8) (value : Bool) : UInt8 :=
  if value then flags ||| mask else flags &&& ~~~mask

end CodecFlags

/-- `Codec` -/
structure Codec : Type where
  state : DecodeState
  maxInSize : UInt32
  maxOutSize : UInt32
  flags : UInt8
  deriving DecidableEq, Repr

namespace Codec

/-- `Codec::new` -/
def new (maxInSize maxOutSize : UInt32) : Codec where
  state := .frameHeader
  maxInSize := maxInSize
  maxOutSize := maxOutSize
  flags := 0

/-- The flags after a call with this result: a CONNECT says whether problem
information is wanted. -/
def flagsAfter (flags : UInt8) : Outcome DecodeError (Option (Packet × Nat)) → UInt8
  | .ok (some (.connect pkt, _)) =>
      CodecFlags.set flags CodecFlags.NO_PROBLEM_INFO (!pkt.requestProblemInfo)
  | _ => flags

/-- The codec around the frame loop. -/
def framed : Framed Codec Packet where
  decodePacket := decodePacket
  maxSize c := c.maxInSize.toNat
  state c := c.state
  update c r state := { c with state, flags := flagsAfter c.flags r }
  maxSize_update _ _ _ := rfl
  state_update _ _ _ := rfl
  update_update _ _ _ _ := rfl

/-- `Decoder::decode` -/
def decode (c : Codec) (src : Bytes) :
    Outcome DecodeError (Option (Packet × Nat)) × Codec × Bytes :=
  framed.decode c src

end Codec

/-- The packet without the properties that are not sent to a client that does not
want problem information. -/
def Packet.withoutProblemInfo : Packet → Packet
  | .publishAck pkt => .publishAck { pkt with properties := [], reasonString := none }
  | .publishReceived pkt => .publishReceived { pkt with properties := [], reasonString := none }
  | .publishRelease pkt => .publishRelease { pkt with properties := [], reasonString := none }
  | .publishComplete pkt => .publishComplete { pkt with properties := [], reasonString := none }
  | .subscribe pkt => .subscribe { pkt with userProperties := [] }
  | .subscribeAck pkt => .subscribeAck { pkt with properties := [], reasonString := none }
  | .unsubscribe pkt => .unsubscribe { pkt with userProperties := [] }
  | .unsubscribeAck pkt => .unsubscribeAck { pkt with properties := [], reasonString := none }
  | .auth pkt => .auth { pkt with userProperties := [], reasonString := none }
  | pkt => pkt

namespace Codec

/-- The limit that applies to the content of a frame. -/
def maxSize (c : Codec) : Nat := if c.maxOutSize ≠ 0 then c.maxOutSize.toNat else MAX_PACKET_SIZE

/-- The packet that `encode` works on. -/
def outgoing (c : Codec) (item : Packet) : Packet :=
  if contains c.flags CodecFlags.NO_PROBLEM_INFO then item.withoutProblemInfo else item

/-- `Encoder::encode` -/
def encode (c : Codec) (item : Packet) : ByteWriter EncodeError Unit := do
  let contentSize ← ByteWriter.fromOutcome ((c.outgoing item).encodedSize c.maxSize)
  if contentSize > c.maxSize then
    ByteWriter.fail (.overMaxPacketSize (contentSize % 2 ^ 32) c.maxSize)
  else (c.outgoing item).encode (contentSize % 2 ^ 32)

theorem maxSize_lt (c : Codec) : c.maxSize < 2 ^ 32 := by
  unfold maxSize
  split
  · exact c.maxOutSize.toNat_lt
  · decide

/-- A content within the limit is written with its exact size. -/
theorem encode_of_within {c : Codec} {p : Packet} {n : Nat}
    (size : (c.outgoing p).encodedSize c.maxSize = .ok n) (within : n ≤ c.maxSize) :
    c.encode p = (c.outgoing p).encode n := by
  have words : n % 2 ^ 32 = n := Nat.mod_eq_of_lt (Nat.lt_of_le_of_lt within c.maxSize_lt)
  rw [encode, size]
  change (if n > c.maxSize then _ else _) = _
  rw [if_neg (Nat.not_lt.mpr within), words]

theorem encode_of_above {c : Codec} {p : Packet} {n : Nat}
    (size : (c.outgoing p).encodedSize c.maxSize = .ok n) (above : n > c.maxSize) :
    c.encode p = ByteWriter.fail (.overMaxPacketSize (n % 2 ^ 32) c.maxSize) := by
  rw [encode, size]
  change (if n > c.maxSize then _ else _) = _
  rw [if_pos above]

/-! ## Frames are read back -/

/-- A fresh codec reads the frame of a packet and leaves what is behind it. -/
theorem decode_frame {p : Packet} (fits : p.Fits) (acceptable : p.Acceptable)
    (small : p.content.length ≤ MAX_PACKET_SIZE) (rest : Bytes) :
    ∃ c, (new 0 0).decode (p.frame ++ rest) =
      (.ok (some (p.normalized, p.content.length)), c, rest) := by
  have run : decodeHeader decodePacket 0 (p.frame ++ rest) = _ :=
    decodeHeader_frame small (fun h => h.1 rfl) (Packet.decodes fits acceptable small) rest
  exact ⟨_, framed.decode_of_run run⟩

/-- The encoder writes the frame of the packet as it is cut to the limit. -/
theorem encode_of_size {c : Codec} {p : Packet} {n : Nat}
    (fits : ((c.outgoing p).cut c.maxSize).Fits)
    (size : (c.outgoing p).encodedSize c.maxSize = .ok n) (within : n ≤ c.maxSize)
    (small : n ≤ MAX_PACKET_SIZE) :
    Writes (c.encode p) ((c.outgoing p).cut c.maxSize).frame := by
  rw [encode_of_within size within]
  exact (Packet.agrees fits size small).2

end Codec

/-- A packet that is decoded from the bytes it is encoded to: its fields are within
the wire limits, a CONNECT is acceptable, and the content leaves room for the
length fields, so that nothing is dropped. -/
structure Packet.WellFormed (p : Packet) : Prop where
  fits : p.Fits
  acceptable : p.Acceptable
  room : p.content.length + 4 ≤ MAX_PACKET_SIZE

/-- Round trip: encoding a well-formed packet succeeds, and decoding the bytes with
anything behind them gives the packet back, with the remaining length that was
written, and leaves what is behind. -/
theorem decode_encode {p : Packet} (wf : p.WellFormed) (dst rest : Bytes) :
    ∃ content c, (Codec.new 0 0).encode p dst =
        (.ok (), dst ++ p.firstByte :: (varInt content.length ++ content)) ∧
      (Codec.new 0 0).decode (p.firstByte :: (varInt content.length ++ content) ++ rest) =
        (.ok (some (p.normalized, content.length)), c, rest) := by
  have small : p.content.length ≤ MAX_PACKET_SIZE := by
    have := wf.room
    omega
  have whole : p.cut MAX_PACKET_SIZE = p := Packet.cut_eq_self wf.room
  have size := Packet.encodedSize_max wf.fits small whole
  obtain ⟨c, decoded⟩ := Codec.decode_frame wf.fits wf.acceptable small rest
  refine ⟨p.content, c, ?_, decoded⟩
  have written := Codec.encode_of_size (c := Codec.new 0 0) (show (p.cut MAX_PACKET_SIZE).Fits from
    whole.symm ▸ wf.fits) size small small dst
  change _ = (_, dst ++ (p.cut MAX_PACKET_SIZE).frame) at written
  rw [whole] at written
  exact written

/-- A QoS 1 publish without properties. -/
def reading : Publish where
  dup := false
  retain := false
  qos := .atLeastOnce
  topic := "a/b"
  packetId := some ⟨7, by decide⟩
  payload := [1, 2]
  properties := none

/-- The round trip of a publish behind one byte and before a ping. -/
theorem decode_encode_reading :
    ∃ content c, (Codec.new 0 0).encode (.publish reading) [9] =
        (.ok (), [9] ++ 0x32 :: (varInt content.length ++ content)) ∧
      (Codec.new 0 0).decode (0x32 :: (varInt content.length ++ content) ++ [0xC0, 0]) =
        (.ok (some (.publish { reading with properties := some PublishProperties.default },
          content.length)), c, [0xC0, 0]) := by
  have fits : reading.Fits :=
    ⟨show ByteString.len "a/b" ≤ 65535 by decide, by decide, fun _ h => (Option.not_mem_none _ h).elim⟩
  have wf : (Packet.publish reading).WellFormed := ⟨fits, trivial, by decide⟩
  exact decode_encode wf [9] [0xC0, 0]

/-! ## Encoding under a limit -/

namespace Packet

/-- The user properties and the reason string of the packets that may lose them to
the limit. -/
def diag : Packet → Option (UserProperties × Option ByteString)
  | .connectAck p => some (p.userProperties, p.reasonString)
  | .publishAck p => some (p.properties, p.reasonString)
  | .publishReceived p => some (p.properties, p.reasonString)
  | .publishRelease p => some (p.properties, p.reasonString)
  | .publishComplete p => some (p.properties, p.reasonString)
  | .subscribeAck p => some (p.properties, p.reasonString)
  | .unsubscribeAck p => some (p.properties, p.reasonString)
  | .disconnect p => some (p.userProperties, p.reasonString)
  | .auth p => some (p.userProperties, p.reasonString)
  | _ => none

/-- The packet with other user properties and another reason string. -/
def withDiag (ups : UserProperties) (reason : Option ByteString) : Packet → Packet
  | .connectAck p => .connectAck { p with userProperties := ups, reasonString := reason }
  | .publishAck p => .publishAck { p with properties := ups, reasonString := reason }
  | .publishReceived p => .publishReceived { p with properties := ups, reasonString := reason }
  | .publishRelease p => .publishRelease { p with properties := ups, reasonString := reason }
  | .publishComplete p => .publishComplete { p with properties := ups, reasonString := reason }
  | .subscribeAck p => .subscribeAck { p with properties := ups, reasonString := reason }
  | .unsubscribeAck p => .unsubscribeAck { p with properties := ups, reasonString := reason }
  | .disconnect p => .disconnect { p with userProperties := ups, reasonString := reason }
  | .auth p => .auth { p with userProperties := ups, reasonString := reason }
  | p => p

/-- `q` is `p` with a prefix of its user properties, and with its reason string only
if all of them are there. -/
def Shortens (q p : Packet) : Prop :=
  ∀ ups reason, p.diag = some (ups, reason) → ∃ ups' reason', q = p.withDiag ups' reason' ∧
    ups' <+: ups ∧ (reason' = none ∨ reason' = reason ∧ ups' = ups)

theorem cut_shortens (p : Packet) (limit : Nat) : (p.cut limit).Shortens p := by
  intro ups reason h
  cases p with
  | connectAck p => cases h; exact ⟨_, _, rfl, keepOptProps_spec _ _ _⟩
  | publishAck p => cases h; exact ⟨_, _, rfl, keepAckProps_spec _ _ _⟩
  | publishReceived p => cases h; exact ⟨_, _, rfl, keepAckProps_spec _ _ _⟩
  | publishRelease p => cases h; exact ⟨_, _, rfl, keepAckProps_spec _ _ _⟩
  | publishComplete p => cases h; exact ⟨_, _, rfl, keepAckProps_spec _ _ _⟩
  | subscribeAck p => cases h; exact ⟨_, _, rfl, keepAckProps_spec _ _ _⟩
  | unsubscribeAck p => cases h; exact ⟨_, _, rfl, keepAckProps_spec _ _ _⟩
  | disconnect p => cases h; exact ⟨_, _, rfl, keepOptProps_spec _ _ _⟩
  | auth p => cases h; exact ⟨_, _, rfl, keepOptProps_spec _ _ _⟩
  | _ => cases h

theorem Shortens.refl (p : Packet) : p.Shortens p := by
  intro ups reason h
  refine ⟨ups, reason, ?_, List.prefix_rfl, .inr ⟨rfl, rfl⟩⟩
  cases p <;> cases h <;> rfl

theorem withDiag_withDiag (p : Packet) (ups ups' : UserProperties)
    (reason reason' : Option ByteString) :
    (p.withDiag ups reason).withDiag ups' reason' = p.withDiag ups' reason' := by
  cases p <;> rfl

theorem diag_withDiag {p : Packet} (h : p.diag.isSome) (ups : UserProperties)
    (reason : Option ByteString) : (p.withDiag ups reason).diag = some (ups, reason) := by
  cases p <;> first | rfl | cases h

theorem Shortens.trans {p q r : Packet} (h : r.Shortens q) (h' : q.Shortens p) : r.Shortens p := by
  intro ups reason hp
  obtain ⟨ups₁, reason₁, rfl, pre₁, keep₁⟩ := h' ups reason hp
  obtain ⟨ups₂, reason₂, rfl, pre₂, keep₂⟩ :=
    h ups₁ reason₁ (diag_withDiag (by rw [hp]; rfl) ups₁ reason₁)
  refine ⟨ups₂, reason₂, withDiag_withDiag _ _ _ _ _, pre₂.trans pre₁, ?_⟩
  rcases keep₂ with none | ⟨rfl, rfl⟩
  · exact .inl none
  · exact keep₁

theorem clear_shortens (p : Packet) : (p.withDiag [] none).Shortens p :=
  fun _ _ _ => ⟨[], none, rfl, List.nil_prefix, .inl rfl⟩

theorem withoutProblemInfo_shortens (p : Packet) : p.withoutProblemInfo.Shortens p := by
  cases p with
  | publishAck p => exact clear_shortens (.publishAck p)
  | publishReceived p => exact clear_shortens (.publishReceived p)
  | publishRelease p => exact clear_shortens (.publishRelease p)
  | publishComplete p => exact clear_shortens (.publishComplete p)
  | subscribeAck p => exact clear_shortens (.subscribeAck p)
  | unsubscribeAck p => exact clear_shortens (.unsubscribeAck p)
  | auth p => exact clear_shortens (.auth p)
  | subscribe p => exact fun ups reason h => by cases h
  | unsubscribe p => exact fun ups reason h => by cases h
  | _ => exact Shortens.refl _

theorem Fits.withoutProblemInfo {p : Packet} (fits : p.Fits) : p.withoutProblemInfo.Fits := by
  cases p with
  | publishAck p => exact DiagFit.nil
  | publishReceived p => exact DiagFit.nil
  | publishRelease p => exact DiagFit.nil
  | publishComplete p => exact DiagFit.nil
  | subscribe p => exact ⟨fits.id, DiagFit.nil.1, fits.topicFilters⟩
  | subscribeAck p => exact DiagFit.nil
  | unsubscribe p => exact ⟨DiagFit.nil.1, fits.topicFilters⟩
  | unsubscribeAck p => exact DiagFit.nil
  | auth p => exact ⟨fits.authMethod, fits.authData, DiagFit.nil⟩
  | _ => exact fits

theorem Fits.cut {p : Packet} (fits : p.Fits) (limit : Nat) : (p.cut limit).Fits := by
  cases p with
  | connectAck p => exact ConnectAck.Fits.cut fits limit
  | publishAck p => exact PublishAckOf.Fits.cut fits limit
  | publishReceived p => exact PublishAckOf.Fits.cut fits limit
  | publishRelease p => exact PublishAckOf.Fits.cut fits limit
  | publishComplete p => exact PublishAckOf.Fits.cut fits limit
  | subscribeAck p => exact StatusAckOf.Fits.cut fits limit
  | unsubscribeAck p => exact StatusAckOf.Fits.cut fits limit
  | disconnect p => exact Disconnect.Fits.cut fits limit
  | auth p => exact Auth.Fits.cut fits limit
  | _ => exact fits

/-- A shortened packet is of the same kind; the decoder has nothing to refuse or to
fill in for these kinds. -/
theorem Shortens.same_kind {p q : Packet} (h : q.Shortens p) (some : p.diag.isSome) :
    q.firstByte = p.firstByte ∧ q.Acceptable ∧ q.normalized = q := by
  obtain ⟨⟨ups, reason⟩, hp⟩ := Option.isSome_iff_exists.mp some
  obtain ⟨ups', reason', rfl, -⟩ := h ups reason hp
  cases p <;> first | exact ⟨rfl, trivial, rfl⟩ | cases some

theorem encodeFrame_small {firstByte : UInt8} {n : Nat} {w : Nat → ByteWriter EncodeError Unit}
    {buf buf' : Bytes} (h : encodeFrame firstByte n w buf = (.ok (), buf')) :
    n ≤ MAX_PACKET_SIZE := by
  obtain ⟨_, buf₁, -, h⟩ := ByteWriter.bind_eq_ok h
  obtain ⟨_, buf₂, h, -⟩ := ByteWriter.bind_eq_ok h
  apply Nat.le_of_not_lt
  intro large
  rw [writeVariableLength_of_large large] at h
  cases h

/-- A frame that was written has a size that a frame can announce. -/
theorem size_of_encode {p : Packet} {limit n : Nat} {buf buf' : Bytes}
    (size : p.encodedSize limit = .ok n) (h : p.encode n buf = (.ok (), buf')) :
    n ≤ MAX_PACKET_SIZE := by
  cases p with
  | pingRequest => cases size; exact Nat.zero_le _
  | pingResponse => cases size; exact Nat.zero_le _
  | _ => exact encodeFrame_small h

end Packet

namespace Codec

theorem outgoing_shortens (c : Codec) (p : Packet) : (c.outgoing p).Shortens p := by
  unfold outgoing
  split
  · exact p.withoutProblemInfo_shortens
  · exact .refl p

theorem outgoing_fits (c : Codec) {p : Packet} (fits : p.Fits) : (c.outgoing p).Fits := by
  unfold outgoing
  split
  · exact fits.withoutProblemInfo
  · exact fits

/-- When `encode` succeeds, both passes went through within the limits. -/
theorem encode_eq_ok {c : Codec} {p : Packet} {dst dst' : Bytes}
    (h : c.encode p dst = (.ok (), dst')) :
    ∃ n, (c.outgoing p).encodedSize c.maxSize = .ok n ∧ n ≤ c.maxSize ∧ n ≤ MAX_PACKET_SIZE := by
  obtain ⟨n, mid, hsize, h⟩ := ByteWriter.bind_eq_ok h
  have size : (c.outgoing p).encodedSize c.maxSize = .ok n := congrArg Prod.fst hsize
  split at h
  · cases h
  · rename_i large
    have within : n ≤ c.maxSize := Nat.le_of_not_lt large
    rw [Nat.mod_eq_of_lt (Nat.lt_of_le_of_lt within c.maxSize_lt)] at h
    exact ⟨n, size, within, Packet.size_of_encode size h⟩

end Codec

/-- Whatever the limit and the flags of the codec: when `encode` succeeds on a packet
of these kinds, it has appended one frame whose remaining length is the length of its
content, the content is within the limit, and decoding the frame gives the packet
with a prefix of its user properties, and with its reason string only if no user
property was dropped. -/
theorem decode_encode_limited {codec : Codec} {p : Packet} {ups : UserProperties}
    {reason : Option ByteString} (kind : p.diag = some (ups, reason)) (fits : p.Fits)
    {dst dst' : Bytes} (encoded : codec.encode p dst = (.ok (), dst')) :
    ∃ content ups' reason',
      dst' = dst ++ p.firstByte :: (varInt content.length ++ content) ∧
      content.length ≤ codec.maxSize ∧
      ups' <+: ups ∧ (reason' = none ∨ reason' = reason ∧ ups' = ups) ∧
      ∀ rest, ∃ c, (Codec.new 0 0).decode
          (p.firstByte :: (varInt content.length ++ content) ++ rest) =
        (.ok (some (p.withDiag ups' reason', content.length)), c, rest) := by
  obtain ⟨n, size, within, small⟩ := Codec.encode_eq_ok encoded
  have sentFits := (codec.outgoing_fits fits).cut codec.maxSize
  have length := (Packet.agrees sentFits size small).1
  have written := Codec.encode_of_size sentFits size within small dst
  generalize hq : (codec.outgoing p).cut codec.maxSize = q at length written
  have shortens : q.Shortens p :=
    hq ▸ ((codec.outgoing p).cut_shortens codec.maxSize).trans (codec.outgoing_shortens p)
  obtain ⟨first, acceptable, same⟩ := shortens.same_kind (by rw [kind]; rfl)
  obtain ⟨ups', reason', rfl, pre, keep⟩ := shortens ups reason kind
  refine ⟨(p.withDiag ups' reason').content, ups', reason', ?_, length ▸ within, pre, keep,
    fun rest => ?_⟩
  · rw [encoded] at written
    rw [← first]
    exact congrArg Prod.snd written
  · have decoded := Codec.decode_frame (hq ▸ sentFits) acceptable (length ▸ small)
      rest
    rw [same, Packet.frame, first] at decoded
    exact decoded

/-- A PUBACK with a user property and a reason string. -/
def refusal : PublishAck where
  packetId := ⟨7, by decide⟩
  reasonCode := .notAuthorized
  properties := [("", "")]
  reasonString := some ""

/-- Under a limit of nine bytes it is sent without both. -/
theorem decode_encode_limited_refusal :
    (Codec.new 0 9).encode (.publishAck refusal) [] = (.ok (), [0x40, 4, 0, 7, 135, 0]) ∧
      ∃ content ups' reason',
        [0x40, 4, 0, 7, 135, 0] = [] ++ 0x40 :: (varInt content.length ++ content) ∧
        content.length ≤ (Codec.new 0 9).maxSize ∧
        ups' <+: [("", "")] ∧ (reason' = none ∨ reason' = some "" ∧ ups' = [("", "")]) ∧
        ∀ rest, ∃ c, (Codec.new 0 0).decode (0x40 :: (varInt content.length ++ content) ++ rest) =
          (.ok (some (.publishAck { refusal with properties := ups', reasonString := reason' },
            content.length)), c, rest) := by
  have encoded : (Codec.new 0 9).encode (.publishAck refusal) [] =
      (.ok (), [0x40, 4, 0, 7, 135, 0]) := by decide
  have empty : ByteString.len "" ≤ 65535 := by decide
  have users : UsersFit [("", "")] := fun up hup => by
    rw [List.mem_singleton.mp hup]
    exact ⟨empty, empty⟩
  have fits : (Packet.publishAck refusal).Fits := ⟨users, fun r hr => by cases hr; exact empty⟩
  exact ⟨encoded, decode_encode_limited rfl fits encoded⟩

end OxiMqtt.Codec.V5

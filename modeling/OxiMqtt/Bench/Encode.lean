import OxiMqtt.Bench.Types
import OxiMqtt.Codec.Utils

/-!
# The encoder of the benchmark

`oximqtt-bench/src/mqtt/encode.rs`.  The body of a packet is written into a buffer of its own, and
behind the fixed header once its length is known.

* `writes_putRemainingLength`: the loop writes the variable-length integers of the broker, as far as
  these go.
-/

namespace OxiMqtt.Bench

open Wire Wire.ByteWriter
open Codec (ByteString boolU8)

/-- `publish_flags` -/
def publishFlags (p : Publish) : UInt8 :=
  (0x30 : UInt8) ||| (boolU8 p.dup <<< 3) ||| (p.qos.asU8 <<< 1) ||| boolU8 p.retain

/-- `put_remaining_length` -/
def putRemainingLength (len : Nat) : ByteWriter CodecError Unit :=
  let byte := UInt8.ofNat (len &&& 0x7F)
  if len >>> 7 > 0 then do
    putU8 (byte ||| 0x80)
    putRemainingLength (len >>> 7)
  else putU8 byte
termination_by len
decreasing_by
  rename_i more
  simp only [Nat.shiftRight_eq_div_pow] at more ⊢
  omega

/-- `put_string` -/
def putString (s : ByteString) : ByteWriter CodecError Unit := do
  putU16 (UInt16.ofNat (ByteString.len s))
  putSlice (ByteString.asBytes s)

/-- `put_binary` -/
def putBinary (b : Bytes) : ByteWriter CodecError Unit := do
  putU16 (UInt16.ofNat b.length)
  putSlice b

/-- `EMPTY_PROPS` -/
def EMPTY_PROPS : UInt8 := 0

/-- `prop_len_u32` -/
def propLenU32 (value : Option UInt32) : Nat := if value.isSome then 5 else 0

/-- The empty property block of a v5 packet. -/
def putEmptyProps (version : Version) : ByteWriter CodecError Unit :=
  if version = .v5 then putU8 EMPTY_PROPS else pure ()

/-! ## Bodies -/

/-- The user name that is sent: a password requires the flag. -/
def Connect.sentUsername (c : Connect) : Option ByteString :=
  match c.username, c.password with
  | some u, _ => some u
  | none, some _ => some ""
  | none, none => none

/-- The connect flags of `encode_connect`. -/
def Connect.flags (c : Connect) : UInt8 :=
  let flags : UInt8 := 0
  let flags := if c.clean then flags ||| 0x02 else flags
  let flags := if c.sentUsername.isSome then flags ||| 0x80 else flags
  let flags := if c.password.isSome then flags ||| 0x40 else flags
  match c.will with
  | some w =>
      let flags := flags ||| ((0x04 : UInt8) ||| (w.qos.asU8 <<< 3))
      if w.retain then flags ||| 0x20 else flags
  | none => flags

/-- The property block of a v5 CONNECT. -/
def putConnectProps (version : Version) (sessionExpiry : Option UInt32) :
    ByteWriter CodecError Unit :=
  if version = .v5 then do
    putRemainingLength (propLenU32 sessionExpiry)
    forSome sessionExpiry fun se => do
      putU8 0x11
      putU32 se
  else pure ()

/-- `encode_connect` -/
def encodeConnect (version : Version) (c : Connect) : ByteWriter CodecError Unit :=
  if ByteString.len c.clientId > 65535 then fail (.malformed "client id too long")
  else do
    putString "MQTT"
    putU8 version.level
    putU8 c.flags
    putU16 c.keepalive
    putConnectProps version c.sessionExpiry
    putString c.clientId
    forSome c.will fun w => do
      putEmptyProps version
      putString w.topic
      putBinary w.payload
    forSome c.sentUsername putString
    forSome c.password putBinary

/-- `encode_publish` -/
def encodePublish (version : Version) (p : Publish) : ByteWriter CodecError Unit :=
  if p.qos ≠ .atMostOnce ∧ p.pid = none then fail .invalidPacketId
  else if p.qos = .atMostOnce ∧ p.pid ≠ none then
    fail (.malformed "QoS 0 must not carry a packet id")
  else do
    putString p.topic
    forSome p.pid fun pid => if pid = 0 then fail .invalidPacketId else putU16 pid
    putEmptyProps version
    putSlice p.payload

/-- `encode_ack`: the id, then the reason and properties when needed. -/
def encodeAck (version : Version) (pid : UInt16) (reason : UInt8) : ByteWriter CodecError Unit :=
  if pid = 0 then fail .invalidPacketId
  else do
    putU16 pid
    if version = .v5 ∧ reason ≠ 0 then putSlice [reason, EMPTY_PROPS] else pure ()

/-- The body of a SUBSCRIBE. -/
def encodeSubscribe (version : Version) (pid : UInt16) (filters : List (ByteString × SubOpts)) :
    ByteWriter CodecError Unit := do
  putU16 pid
  putEmptyProps version
  forEach (fun f => do putString f.1; putU8 f.2.qos.asU8) filters

/-- The body of an UNSUBSCRIBE. -/
def encodeUnsubscribe (version : Version) (pid : UInt16) (filters : List ByteString) :
    ByteWriter CodecError Unit := do
  putU16 pid
  putEmptyProps version
  forEach putString filters

/-- `suback_body` -/
def subackBody (version : Version) (pid : UInt16) (reasons : List UInt8) :
    ByteWriter CodecError Unit := do
  putU16 pid
  putEmptyProps version
  putSlice reasons

/-- The body of an UNSUBACK, which has reasons in v5 only. -/
def encodeUnsubAck (version : Version) (pid : UInt16) (reasons : List UInt8) :
    ByteWriter CodecError Unit := do
  putU16 pid
  putEmptyProps version
  if version = .v5 then putSlice reasons else pure ()

/-- The body of a DISCONNECT. -/
def encodeDisconnect (version : Version) (reason : UInt8) : ByteWriter CodecError Unit :=
  if version = .v5 ∧ reason ≠ 0 then putSlice [reason, EMPTY_PROPS] else pure ()

/-- The match of `encode`: the body of a packet is written, and its fixed header byte returned. -/
def encodeBody (version : Version) : Packet → ByteWriter CodecError UInt8
  | .connect c => do encodeConnect version c; return 0x10
  | .connAck _ _ _ => fail (.unsupported "sending CONNACK")
  | .publish p => do encodePublish version p; return publishFlags p
  | .pubAck pid reason => do encodeAck version pid reason; return 0x40
  | .pubRec pid reason => do encodeAck version pid reason; return 0x50
  | .pubRel pid reason => do encodeAck version pid reason; return 0x62
  | .pubComp pid reason => do encodeAck version pid reason; return 0x70
  | .subscribe pid filters => do encodeSubscribe version pid filters; return 0x82
  | .subAck pid reasons => do subackBody version pid reasons; return 0x90
  | .unsubscribe pid filters => do encodeUnsubscribe version pid filters; return 0xA2
  | .unsubAck pid reasons => do encodeUnsubAck version pid reasons; return 0xB0
  | .pingReq => return 0xC0
  | .pingResp => return 0xD0
  | .disconnect reason => do encodeDisconnect version reason; return 0xE0

/-- `encode` -/
def encode (version : Version) (pkt : Packet) : ByteWriter CodecError Unit := fun dst =>
  match encodeBody version pkt [] with
  | (.ok flags, body) =>
      (do
        putU8 flags
        putRemainingLength body.length
        putSlice body : ByteWriter CodecError Unit) dst
  | (.err e, _) => (.err e, dst)
  | (.fault x, _) => (.fault x, dst)

/-! ## What is written -/

theorem putRemainingLength_last {len : Nat} (h : len < 128) :
    putRemainingLength len = putU8 (UInt8.ofNat len) := by
  have low : len &&& 0x7F = len :=
    (Nat.and_two_pow_sub_one_eq_mod len 7).trans (Nat.mod_eq_of_lt h)
  have none : ¬len >>> 7 > 0 := by
    rw [Nat.shiftRight_eq_div_pow]
    omega
  rw [putRemainingLength]
  rw [if_neg none, low]

theorem putRemainingLength_more {len : Nat} (h : 128 ≤ len) :
    putRemainingLength len = (do
      putU8 (UInt8.ofNat (len % 128 + 128))
      putRemainingLength (len / 128)) := by
  have low : len &&& 0x7F = len % 128 := Nat.and_two_pow_sub_one_eq_mod len 7
  have byte : UInt8.ofNat (len % 128) ||| 0x80 = UInt8.ofNat (len % 128 + 128) := by
    have groups : ∀ n < 128, UInt8.ofNat n ||| 0x80 = UInt8.ofNat (n + 128) := by decide +kernel
    exact groups _ (Nat.mod_lt _ (by decide))
  have next : len >>> 7 = len / 128 := Nat.shiftRight_eq_div_pow len 7
  rw [putRemainingLength]
  rw [if_pos (by omega), low, byte, next]

/-- The loop ends, and appends to what is there. -/
theorem putRemainingLength_writes (len : Nat) : ∃ bs, Writes (putRemainingLength len) bs := by
  induction len using Nat.strongRecOn with
  | ind len ih =>
      by_cases last : len < 128
      · rw [putRemainingLength_last last]
        exact ⟨_, Writes.putU8 _⟩
      · rw [putRemainingLength_more (by omega)]
        rcases ih (len / 128) (by omega) with ⟨bs, next⟩
        exact ⟨_, (Writes.putU8 _).bind next⟩

/-- The loop writes the variable-length integers that the format has. -/
theorem writes_putRemainingLength {len : Nat} (h : len ≤ Codec.MAX_PACKET_SIZE) :
    Writes (putRemainingLength len) (Codec.varInt len) := by
  have bound : len ≤ 268435455 := h
  unfold Codec.varInt
  split_ifs
  · rw [putRemainingLength_last (by omega)]
    exact Writes.putU8 _
  · rw [putRemainingLength_more (by omega), putRemainingLength_last (by omega)]
    exact (Writes.putU8 _).bind (Writes.putU8 _)
  · rw [putRemainingLength_more (by omega), putRemainingLength_more (by omega),
      putRemainingLength_last (by omega), Nat.div_div_eq_div_mul]
    exact (Writes.putU8 _).bind ((Writes.putU8 _).bind (Writes.putU8 _))
  · rw [putRemainingLength_more (by omega), putRemainingLength_more (by omega),
      putRemainingLength_more (by omega), putRemainingLength_last (by omega),
      Nat.div_div_eq_div_mul, Nat.div_div_eq_div_mul]
    exact (Writes.putU8 _).bind ((Writes.putU8 _).bind ((Writes.putU8 _).bind (Writes.putU8 _)))

/-- A greater length starts with four bytes that announce another one. -/
theorem writes_putRemainingLength_long {len : Nat} (h : Codec.MAX_PACKET_SIZE < len) :
    ∃ i j k l more, i < 128 ∧ j < 128 ∧ k < 128 ∧ l < 128 ∧
      Writes (putRemainingLength len) (UInt8.ofNat (i + 128) :: UInt8.ofNat (j + 128) ::
        UInt8.ofNat (k + 128) :: UInt8.ofNat (l + 128) :: more) := by
  have bound : 268435455 < len := h
  have step : ∀ {n : Nat} {bs : Bytes}, 128 ≤ n → Writes (putRemainingLength (n / 128)) bs →
      Writes (putRemainingLength n) (UInt8.ofNat (n % 128 + 128) :: bs) := by
    intro n bs large next
    rw [putRemainingLength_more large]
    exact (Writes.putU8 _).bind next
  have low : ∀ n : Nat, n % 128 < 128 := fun n => Nat.mod_lt n (by decide)
  rcases putRemainingLength_writes (len / 128 / 128 / 128 / 128) with ⟨more, last⟩
  exact ⟨_, _, _, _, more, low _, low _, low _, low _,
    step (by omega) (step (by omega) (step (by omega) (step (by omega) last)))⟩

theorem writes_putString (s : ByteString) : Writes (putString s) (Codec.image s) :=
  (Writes.putU16 _).bind (Writes.putSlice _)

theorem writes_putBinary (b : Bytes) : Writes (putBinary b) (Codec.image b) :=
  (Writes.putU16 _).bind (Writes.putSlice _)

/-- What the v5 packets have where the v3 packets have nothing. -/
def emptyProps (version : Version) : Bytes := if version = .v5 then [EMPTY_PROPS] else []

theorem writes_putEmptyProps (version : Version) :
    Writes (putEmptyProps version) (emptyProps version) := by
  cases version with
  | v3 => exact Writes.pure
  | v5 => exact Writes.putU8 _

/-- The property block of a CONNECT. -/
def connectProps (sessionExpiry : Option UInt32) : Bytes :=
  (sessionExpiry.map fun se => 0x11 :: be32 se).getD []

theorem length_connectProps (sessionExpiry : Option UInt32) :
    (connectProps sessionExpiry).length = propLenU32 sessionExpiry := by
  cases sessionExpiry <;> rfl

/-- A property block with its length, in v5. -/
def propBlock (version : Version) (props : Bytes) : Bytes :=
  if version = .v5 then Codec.varInt props.length ++ props else []

theorem writes_putConnectProps (version : Version) (sessionExpiry : Option UInt32) :
    Writes (putConnectProps version sessionExpiry)
      (propBlock version (connectProps sessionExpiry)) := by
  cases version with
  | v3 => exact Writes.pure
  | v5 =>
      have small : propLenU32 sessionExpiry ≤ Codec.MAX_PACKET_SIZE := by
        cases sessionExpiry with
        | none => exact Nat.zero_le _
        | some se => exact show 5 ≤ Codec.MAX_PACKET_SIZE by decide
      have block : propBlock .v5 (connectProps sessionExpiry) =
          Codec.varInt (propLenU32 sessionExpiry) ++ connectProps sessionExpiry := by
        rw [← length_connectProps]
        rfl
      rw [block]
      refine (writes_putRemainingLength small).bind (Writes.forSome fun se _ => ?_)
      exact (Writes.putU8 _).bind (Writes.putU32 se)

/-- The bytes of a will. -/
def Will.bytes (version : Version) (w : Will) : Bytes :=
  emptyProps version ++ (Codec.image w.topic ++ Codec.image w.payload)

/-- The body of a CONNECT. -/
def Connect.bytes (version : Version) (c : Connect) : Bytes :=
  Codec.image ("MQTT" : ByteString) ++ (version.level :: c.flags :: (be16 c.keepalive ++
    (propBlock version (connectProps c.sessionExpiry) ++ (Codec.image c.clientId ++
      ((c.will.map (Will.bytes version)).getD [] ++
        ((c.sentUsername.map Codec.image).getD [] ++ (c.password.map Codec.image).getD []))))))

theorem writes_encodeConnect {c : Connect} (short : ByteString.len c.clientId ≤ 65535)
    (version : Version) : Writes (encodeConnect version c) (c.bytes version) := by
  have props := writes_putConnectProps version c.sessionExpiry
  have order : c.bytes version = Codec.image ("MQTT" : ByteString) ++ ([version.level] ++
      ([c.flags] ++ (be16 c.keepalive ++ (propBlock version (connectProps c.sessionExpiry) ++
        (Codec.image c.clientId ++ ((c.will.map (Will.bytes version)).getD [] ++
          ((c.sentUsername.map Codec.image).getD [] ++
            (c.password.map Codec.image).getD []))))))) := rfl
  rw [encodeConnect, if_neg (by omega), order]
  refine (writes_putString "MQTT").bind ((Writes.putU8 _).bind ((Writes.putU8 _).bind ?_))
  refine (Writes.putU16 _).bind (props.bind ((writes_putString c.clientId).bind ?_))
  refine Writes.bind (Writes.forSome fun w _ => ?_) ?_
  · exact (writes_putEmptyProps version).bind ((writes_putString w.topic).bind (writes_putBinary _))
  · exact Writes.bind (Writes.forSome fun u _ => writes_putString u)
      (Writes.forSome fun b _ => writes_putBinary b)

/-- The body of a PUBLISH. -/
def Publish.bytes (version : Version) (p : Publish) : Bytes :=
  Codec.image p.topic ++ ((p.pid.map be16).getD [] ++ (emptyProps version ++ p.payload))

/-- The id of a PUBLISH that the encoder accepts: there is one exactly above QoS 0, and it is not
zero. -/
def Publish.HasId (p : Publish) : Prop :=
  (p.pid.isSome = true ↔ p.qos ≠ .atMostOnce) ∧ p.pid ≠ some 0

theorem writes_encodePublish {p : Publish} (id : p.HasId) (version : Version) :
    Writes (encodePublish version p) (p.bytes version) := by
  have some := id.1
  have missing : ¬(p.qos ≠ .atMostOnce ∧ p.pid = none) := by
    intro bad
    rw [bad.2] at some
    exact absurd (some.mpr bad.1) (by decide)
  have stray : ¬(p.qos = .atMostOnce ∧ p.pid ≠ none) := by
    intro bad
    exact some.mp (Option.isSome_iff_ne_none.mpr bad.2) bad.1
  have nonzero : Writes (forSome p.pid fun pid =>
      if pid = 0 then fail CodecError.invalidPacketId else putU16 pid)
        ((p.pid.map be16).getD []) := by
    refine Writes.forSome fun pid hpid => ?_
    have above : ¬pid = 0 := by
      intro zero
      rw [zero] at hpid
      exact id.2 hpid
    rw [if_neg above]
    exact Writes.putU16 pid
  rw [encodePublish, if_neg missing, if_neg stray]
  exact (writes_putString p.topic).bind (nonzero.bind ((writes_putEmptyProps version).bind
    (Writes.putSlice _)))

/-- A reason and no properties, which are written together or not at all. -/
def reasonBytes (version : Version) (reason : UInt8) : Bytes :=
  if version = .v5 ∧ reason ≠ 0 then [reason, EMPTY_PROPS] else []

theorem writes_reason (version : Version) (reason : UInt8) :
    Writes (if version = .v5 ∧ reason ≠ 0 then putSlice [reason, EMPTY_PROPS] else pure () :
      ByteWriter CodecError Unit) (reasonBytes version reason) := by
  unfold reasonBytes
  split
  · exact Writes.putSlice _
  · exact Writes.pure

theorem writes_encodeAck {pid : UInt16} (nonzero : pid ≠ 0) (version : Version) (reason : UInt8) :
    Writes (encodeAck version pid reason) (be16 pid ++ reasonBytes version reason) := by
  rw [encodeAck, if_neg nonzero]
  exact (Writes.putU16 pid).bind (writes_reason version reason)

/-- The bytes of a topic filter with its QoS. -/
def filterBytes (f : ByteString × SubOpts) : Bytes := Codec.image f.1 ++ [f.2.qos.asU8]

theorem writes_encodeSubscribe (version : Version) (pid : UInt16)
    (filters : List (ByteString × SubOpts)) :
    Writes (encodeSubscribe version pid filters)
      (be16 pid ++ (emptyProps version ++ filters.flatMap filterBytes)) :=
  (Writes.putU16 pid).bind ((writes_putEmptyProps version).bind (Writes.forEach filters fun f _ =>
    (writes_putString f.1).bind (Writes.putU8 _)))

theorem writes_encodeUnsubscribe (version : Version) (pid : UInt16) (filters : List ByteString) :
    Writes (encodeUnsubscribe version pid filters)
      (be16 pid ++ (emptyProps version ++ filters.flatMap Codec.image)) :=
  (Writes.putU16 pid).bind ((writes_putEmptyProps version).bind (Writes.forEach filters fun f _ =>
    writes_putString f))

theorem writes_subackBody (version : Version) (pid : UInt16) (reasons : List UInt8) :
    Writes (subackBody version pid reasons) (be16 pid ++ (emptyProps version ++ reasons)) :=
  (Writes.putU16 pid).bind ((writes_putEmptyProps version).bind (Writes.putSlice reasons))

theorem writes_encodeUnsubAck (version : Version) (pid : UInt16) (reasons : List UInt8) :
    Writes (encodeUnsubAck version pid reasons)
      (be16 pid ++ (emptyProps version ++ if version = .v5 then reasons else [])) := by
  refine (Writes.putU16 pid).bind ((writes_putEmptyProps version).bind ?_)
  cases version with
  | v3 => exact Writes.pure
  | v5 => exact Writes.putSlice reasons

/-! ## Packets -/

namespace Packet

/-- The fixed header byte of a packet. -/
def header : Packet → UInt8
  | connect _ => 0x10
  | connAck _ _ _ => 0x20
  | publish p => publishFlags p
  | pubAck _ _ => 0x40
  | pubRec _ _ => 0x50
  | pubRel _ _ => 0x62
  | pubComp _ _ => 0x70
  | subscribe _ _ => 0x82
  | subAck _ _ => 0x90
  | unsubscribe _ _ => 0xA2
  | unsubAck _ _ => 0xB0
  | pingReq => 0xC0
  | pingResp => 0xD0
  | disconnect _ => 0xE0

/-- The body of a packet. -/
def body (version : Version) : Packet → Bytes
  | connect c => c.bytes version
  | publish p => p.bytes version
  | pubAck pid reason | pubRec pid reason | pubRel pid reason | pubComp pid reason =>
      be16 pid ++ reasonBytes version reason
  | subscribe pid filters => be16 pid ++ (emptyProps version ++ filters.flatMap filterBytes)
  | subAck pid reasons => be16 pid ++ (emptyProps version ++ reasons)
  | unsubscribe pid filters => be16 pid ++ (emptyProps version ++ filters.flatMap Codec.image)
  | unsubAck pid reasons =>
      be16 pid ++ (emptyProps version ++ if version = .v5 then reasons else [])
  | disconnect reason => reasonBytes version reason
  | connAck _ _ _ | pingReq | pingResp => []

/-- The packets that the encoder does not refuse. -/
def Encodable : Packet → Prop
  | connect c => ByteString.len c.clientId ≤ 65535
  | connAck _ _ _ => False
  | publish p => p.HasId
  | pubAck pid _ | pubRec pid _ | pubRel pid _ | pubComp pid _ => pid ≠ 0
  | _ => True

theorem encodeBody_eq {p : Packet} (h : p.Encodable) (version : Version) :
    encodeBody version p [] = (.ok p.header, p.body version) := by
  have returning : ∀ {w : ByteWriter CodecError Unit} {bs : Bytes} (b : UInt8), Writes w bs →
      (w >>= fun _ => (pure b : ByteWriter CodecError UInt8)) [] = (.ok b, bs) := by
    intro w bs b writes
    rw [bind_of_ok (writes []), List.nil_append]
    rfl
  cases p with
  | connect c => exact returning _ (writes_encodeConnect h version)
  | connAck reason present max => exact h.elim
  | publish p => exact returning _ (writes_encodePublish h version)
  | pubAck pid reason => exact returning _ (writes_encodeAck h version reason)
  | pubRec pid reason => exact returning _ (writes_encodeAck h version reason)
  | pubRel pid reason => exact returning _ (writes_encodeAck h version reason)
  | pubComp pid reason => exact returning _ (writes_encodeAck h version reason)
  | subscribe pid filters => exact returning _ (writes_encodeSubscribe version pid filters)
  | subAck pid reasons => exact returning _ (writes_subackBody version pid reasons)
  | unsubscribe pid filters => exact returning _ (writes_encodeUnsubscribe version pid filters)
  | unsubAck pid reasons => exact returning _ (writes_encodeUnsubAck version pid reasons)
  | pingReq => rfl
  | pingResp => rfl
  | disconnect reason => exact returning _ (writes_reason version reason)

/-- The bytes of a packet on the wire. -/
def frame (version : Version) (p : Packet) : Bytes :=
  p.header :: (Codec.varInt (p.body version).length ++ p.body version)

theorem writes_encode {p : Packet} (h : p.Encodable) {version : Version}
    (small : (p.body version).length ≤ Codec.MAX_PACKET_SIZE) :
    Writes (encode version p) (p.frame version) := by
  intro dst
  unfold encode
  rw [encodeBody_eq h version]
  exact ((Writes.putU8 _).bind ((writes_putRemainingLength small).bind (Writes.putSlice _))) dst

/-- A body that is too long for its length to be announced is written all the same. -/
theorem encode_long {p : Packet} (h : p.Encodable) {version : Version}
    (long : Codec.MAX_PACKET_SIZE < (p.body version).length) :
    ∃ i j k l more, i < 128 ∧ j < 128 ∧ k < 128 ∧ l < 128 ∧
      Writes (encode version p) (p.header :: UInt8.ofNat (i + 128) :: UInt8.ofNat (j + 128) ::
        UInt8.ofNat (k + 128) :: UInt8.ofNat (l + 128) :: more) := by
  rcases writes_putRemainingLength_long long with ⟨i, j, k, l, more, hi, hj, hk, hl, length⟩
  refine ⟨i, j, k, l, more ++ p.body version, hi, hj, hk, hl, fun dst => ?_⟩
  unfold encode
  rw [encodeBody_eq h version]
  exact ((Writes.putU8 _).bind (length.bind (Writes.putSlice _))) dst

/-- The encoder refuses the others. -/
theorem encodable_of_encode {version : Version} {p : Packet} {dst dst' : Bytes}
    (h : encode version p dst = (.ok (), dst')) : p.Encodable := by
  have ack : ∀ {pid : UInt16} {reason b flags : UInt8} {bs : Bytes},
      (encodeAck version pid reason >>= fun _ => (pure b : ByteWriter CodecError UInt8)) [] =
        (.ok flags, bs) → pid ≠ 0 := by
    intro pid reason b flags bs run zero
    rw [encodeAck, if_pos zero] at run
    cases run
  rcases run : encodeBody version p [] with ⟨flags | e | x, bytes⟩
  · cases p with
    | connect c =>
        apply Nat.le_of_not_lt
        intro long
        rw [encodeBody, encodeConnect, if_pos long] at run
        cases run
    | connAck reason present max => cases run
    | publish p =>
        rw [encodeBody, encodePublish] at run
        by_cases missing : p.qos ≠ .atMostOnce ∧ p.pid = none
        · rw [if_pos missing] at run
          cases run
        · by_cases stray : p.qos = .atMostOnce ∧ p.pid ≠ none
          · rw [if_neg missing, if_pos stray] at run
            cases run
          · refine ⟨?_, fun zero => ?_⟩
            · rw [Option.isSome_iff_ne_none]
              exact ⟨fun some low => stray ⟨low, some⟩, fun above none => missing ⟨above, none⟩⟩
            · rw [if_neg missing, if_neg stray, zero] at run
              cases run
    | pubAck pid reason => exact ack run
    | pubRec pid reason => exact ack run
    | pubRel pid reason => exact ack run
    | pubComp pid reason => exact ack run
    | _ => trivial
  · unfold encode at h
    rw [run] at h
    cases h
  · unfold encode at h
    rw [run] at h
    cases h

end Packet

end OxiMqtt.Bench

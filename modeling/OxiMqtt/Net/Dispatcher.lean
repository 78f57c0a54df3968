import OxiMqtt.Codec.Stream
import OxiMqtt.Codec.V3.Encode
import OxiMqtt.Codec.VersionAgreement

/-!
# From the first byte of a connection to its packets

`MqttCodec` of `codec/mod.rs`, and `Dispatcher::mqtt` with the two `MqttStream` of `net/stream.rs`.
A connection begins with the codec that detects the version.  The codec of the version takes its
place on the same buffer, and the detection has taken nothing from that.

`Framed`, which owns the buffer, appends what it reads to it and calls `decode` until that asks for
more.

* `decode_append`: bytes behind the buffer do not change what a codec has found.
* `dispatcher_receives`: however the bytes arrive, a connection receives what the codec of its
  version makes of all of them.
* `client_packets_received`: the packets that a client sends are received.
-/

namespace OxiMqtt.Net

open Wire Wire.Outcome OxiMqtt.Codec

/-- `MqttCodec` -/
inductive MqttCodec : Type
  | v3 (codec : V3.Codec)
  | v5 (codec : V5.Codec)
  | version
  deriving DecidableEq, Repr

/-- `MqttPacket` -/
inductive MqttPacket : Type
  | v3 (packet : V3.Packet)
  | v5 (packet : V5.Packet)
  | version (version : ProtocolVersion)
  deriving DecidableEq, Repr

namespace MqttCodec

/-- `Decoder for MqttCodec` -/
def decode (codec : MqttCodec) (src : Bytes) :
    Outcome DecodeError (Option (MqttPacket × Nat)) × MqttCodec × Bytes :=
  match codec with
  | .v3 codec =>
      let (r, codec, src) := codec.decode src
      (Incremental.lift (fun a => (.v3 a.1, a.2)) id r, .v3 codec, src)
  | .v5 codec =>
      let (r, codec, src) := codec.decode src
      (Incremental.lift (fun a => (.v5 a.1, a.2)) id r, .v5 codec, src)
  | .version =>
      (Incremental.lift (fun v => (.version v, 0)) id (VersionCodec.decode src), .version, src)

/-- `Encoder for MqttCodec` -/
def encode (codec : MqttCodec) (item : MqttPacket) : ByteWriter EncodeError Unit :=
  match codec, item with
  | .v3 codec, .v3 p => codec.encode p
  | .v5 codec, .v5 p => codec.encode p
  | .version, _ => ByteWriter.fail .unsupportedVersion
  | _, _ => ByteWriter.fail .malformedPacket

/-- What the frame loop of the codec adds to the measure of progress. -/
def pending : MqttCodec → Nat
  | .v3 codec => codec.state.pending
  | .v5 codec => codec.state.pending
  | .version => 0

/-- Bytes behind the buffer do not change what a codec has found. -/
theorem decode_append (codec : MqttCodec) (src more : Bytes) :
    match codec.decode src with
    | (ok (some a), codec', rest) =>
        codec.decode (src ++ more) = (ok (some a), codec', rest ++ more)
    | (ok none, codec', rest) => codec.decode (src ++ more) = codec'.decode (rest ++ more)
    | (err e, _, _) => (codec.decode (src ++ more)).1 = err e
    | (fault f, _, _) => (codec.decode (src ++ more)).1 = fault f := by
  cases codec with
  | v3 codec =>
      have law := V3.Codec.framed.incremental.append codec src more
      simp only [decode, show V3.Codec.decode = V3.Codec.framed.incremental.decode from rfl]
      rcases run : V3.Codec.framed.incremental.decode codec src with ⟨(_ | a) | e | f, codec', rest⟩
      all_goals
        rw [run] at law
        dsimp only at law
        simp only [Incremental.lift, law, id]
  | v5 codec =>
      have law := V5.Codec.framed.incremental.append codec src more
      simp only [decode, show V5.Codec.decode = V5.Codec.framed.incremental.decode from rfl]
      rcases run : V5.Codec.framed.incremental.decode codec src with ⟨(_ | a) | e | f, codec', rest⟩
      all_goals
        rw [run] at law
        dsimp only at law
        simp only [Incremental.lift, law, id]
  | version =>
      simp only [decode]
      rcases run : VersionCodec.decode src with (_ | v) | e | f
      · rfl
      all_goals
        rw [VersionCodec.decode_append (by rw [run]; simp) more, run]
        rfl

/-- An item makes progress, but for the version, which takes nothing. -/
theorem decode_progress {codec codec' : MqttCodec} {src rest : Bytes} {a : MqttPacket × Nat}
    (h : codec.decode src = (ok (some a), codec', rest)) :
    (∃ v, a.1 = .version v) ∨
      2 * rest.length + codec'.pending < 2 * src.length + codec.pending := by
  cases codec with
  | v3 codec =>
      simp only [decode, show V3.Codec.decode = V3.Codec.framed.incremental.decode from rfl] at h
      rcases run : V3.Codec.framed.incremental.decode codec src with ⟨(_ | b) | e | f, inner, rest'⟩
      all_goals
        rw [run] at h
        cases h
      exact .inr (V3.Codec.framed.incremental.progress run)
  | v5 codec =>
      simp only [decode, show V5.Codec.decode = V5.Codec.framed.incremental.decode from rfl] at h
      rcases run : V5.Codec.framed.incremental.decode codec src with ⟨(_ | b) | e | f, inner, rest'⟩
      all_goals
        rw [run] at h
        cases h
      exact .inr (V5.Codec.framed.incremental.progress run)
  | version =>
      simp only [decode] at h
      rcases run : VersionCodec.decode src with (_ | v) | e | f
      all_goals
        rw [run] at h
        cases h
      exact .inl ⟨v, rfl⟩

end MqttCodec

/-! ## A connection -/

/-- A `Dispatcher`, or the `MqttStream` of a version that it has become, with its codec. -/
inductive Connection : Type
  | dispatcher
  | stream (ver : ProtocolVersion) (io : MqttCodec)
  deriving DecidableEq, Repr

/-- The codec that `probe_version` puts in the place of the first one. -/
def newCodec (maxPacketSize : UInt32) : ProtocolVersion → MqttCodec
  | .MQTT3 => .v3 (V3.Codec.new maxPacketSize)
  | .MQTT5 => .v5 (V5.Codec.new maxPacketSize maxPacketSize)

/-- The packets that the `MqttStream` of a version hands out. -/
def MqttPacket.isOf : MqttPacket → ProtocolVersion → Bool
  | .v3 _, .MQTT3 => true
  | .v5 _, .MQTT5 => true
  | _, _ => false

namespace Connection

/-- A call of `probe_version`, or of `poll_next` of the stream that it leads to, on the bytes that
are in the buffer. -/
def next (maxPacketSize : UInt32) (conn : Connection) (src : Bytes) :
    Outcome DecodeError (Option (MqttPacket × Nat)) × Connection × Bytes :=
  match conn with
  | .dispatcher =>
      match MqttCodec.version.decode src with
      | (ok (some (.version ver, n)), _, src) =>
          (ok (some (.version ver, n)), .stream ver (newCodec maxPacketSize ver), src)
      | (ok none, _, src) => (ok none, .dispatcher, src)
      | (fault f, _, src) => (fault f, .dispatcher, src)
      | (_, _, src) => (err .invalidProtocol, .dispatcher, src)
  | .stream ver io =>
      match io.decode src with
      | (ok (some (packet, n)), io, src) =>
          if packet.isOf ver then (ok (some (packet, n)), .stream ver io, src)
          else (err .malformedPacket, .stream ver io, src)
      | (r, io, src) => (r, .stream ver io, src)

theorem next_dispatcher (maxPacketSize : UInt32) (src : Bytes) :
    next maxPacketSize .dispatcher src =
      match VersionCodec.decode src with
      | ok (some ver) =>
          (ok (some (.version ver, 0)), .stream ver (newCodec maxPacketSize ver), src)
      | ok none => (ok none, .dispatcher, src)
      | fault f => (fault f, .dispatcher, src)
      | err _ => (err .invalidProtocol, .dispatcher, src) := by
  simp only [next, MqttCodec.decode]
  rcases VersionCodec.decode src with (_ | v) | e | f <;> rfl

/-- What the phases add to the measure of progress. -/
def pending : Connection → Nat
  | .dispatcher => 1
  | .stream _ io => io.pending

theorem pending_newCodec (maxPacketSize : UInt32) (ver : ProtocolVersion) :
    (newCodec maxPacketSize ver).pending = 0 := by
  cases ver <;> rfl

/-- A connection as an incremental decoder, over the change of the codec. -/
def incremental (maxPacketSize : UInt32) :
    Incremental Connection DecodeError (MqttPacket × Nat) where
  decode := next maxPacketSize
  pending := pending
  progress := by
    intro conn src a conn' rest h
    cases conn with
    | dispatcher =>
        rw [next_dispatcher] at h
        rcases run : VersionCodec.decode src with (_ | v) | e | f
        all_goals
          rw [run] at h
          cases h
        simp only [pending, pending_newCodec]
        omega
    | stream ver io =>
        simp only [next] at h
        rcases run : io.decode src with ⟨(_ | ⟨packet, n⟩) | e | f, io', rest'⟩
        · rw [run] at h
          cases h
        · rw [run] at h
          by_cases right : packet.isOf ver
          · simp only [right, if_true] at h
            cases h
            rcases MqttCodec.decode_progress run with ⟨v, detected⟩ | less
            · dsimp only at detected
              subst detected
              cases right
            · exact less
          · simp only [right, Bool.false_eq_true, if_false] at h
            cases h
        · rw [run] at h
          cases h
        · rw [run] at h
          cases h
  append := by
    intro conn src more
    cases conn with
    | dispatcher =>
        rw [next_dispatcher, next_dispatcher]
        rcases run : VersionCodec.decode src with (_ | v) | e | f
        · exact (next_dispatcher maxPacketSize (src ++ more)).symm
        all_goals
          rw [VersionCodec.decode_append (by rw [run]; simp) more, run]
    | stream ver io =>
        have law := io.decode_append src more
        simp only [next]
        rcases run : io.decode src with ⟨(_ | ⟨packet, n⟩) | e | f, io', rest⟩
        · rw [run] at law
          dsimp only at law ⊢
          rw [law]
        · rw [run] at law
          dsimp only at law ⊢
          rw [law]
          by_cases right : packet.isOf ver
          · simp only [right, if_true]
          · simp only [right, Bool.false_eq_true, if_false]
        · rw [run] at law
          dsimp only at law ⊢
          rcases run' : io.decode (src ++ more) with ⟨r, io'', rest'⟩
          rw [run'] at law
          cases law
          rfl
        · rw [run] at law
          dsimp only at law ⊢
          rcases run' : io.decode (src ++ more) with ⟨r, io'', rest'⟩
          rw [run'] at law
          cases law
          rfl

/-- What is received on a connection whose bytes arrive in these chunks: the version and the
packets, and how it ends. -/
def receive (maxPacketSize : UInt32) (chunks : List Bytes) :
    List (MqttPacket × Nat) × Outcome DecodeError Unit :=
  (incremental maxPacketSize).feed .dispatcher [] chunks

end Connection

/-! ## The version comes first -/

/-- The detection reads no byte that is not there. -/
theorem version_ne_fault (src : Bytes) (f : Fault) : VersionCodec.decode src ≠ .fault f := by
  rcases src with _ | ⟨firstByte, _ | ⟨b, rest⟩⟩
  · simp [VersionCodec.decode]
  · simp [VersionCodec.decode]
  · have law := decodeVariableLength_append (b :: rest) []
    rcases header : decodeVariableLength (b :: rest) with (_ | ⟨n, consumed⟩) | e | f'
    · simp [VersionCodec.decode, header]
    · rw [header] at law
      rw [VersionCodec.decode_of_header header]
      split
      · obtain ⟨pre, content, whole, length⟩ : ∃ pre content,
            firstByte :: b :: rest = pre ++ content ∧ consumed + 1 = pre.length :=
          ⟨(firstByte :: b :: rest).take (consumed + 1),
            (firstByte :: b :: rest).drop (consumed + 1),
            (List.take_append_drop _ _).symm, by
              have bound := law.1
              rw [List.length_take, List.length_cons]
              omega⟩
        rw [whole, length]
        rcases content with _ | ⟨b₁, _ | ⟨b₀, s⟩⟩
        · rw [VersionCodec.connectVersion_short (by simp)]
          simp
        · rw [VersionCodec.connectVersion_short (by simp)]
          simp
        · by_cases long : 5 ≤ s.length
          · rw [VersionCodec.connectVersion_eq pre b₁ b₀ long]
            unfold VersionCodec.namedVersion VersionCodec.levelVersion
            split_ifs <;> simp
          · rw [VersionCodec.connectVersion_short (by simp; omega)]
            simp
      · simp
    · simp [VersionCodec.decode, header]
    · rw [header] at law
      exact law.elim

namespace Connection

/-- The `v3::MqttStream` around a codec. -/
def asStream3 (codec : V3.Codec) : Connection := .stream .MQTT3 (.v3 codec)

/-- The `v5::MqttStream` around a codec. -/
def asStream5 (codec : V5.Codec) : Connection := .stream .MQTT5 (.v5 codec)

variable (maxPacketSize : UInt32)

/-- A call of the stream of an MQTT 3 connection is a call of its codec. -/
theorem call_v3 (codec : V3.Codec) (src : Bytes) :
    (incremental maxPacketSize).decode (asStream3 codec) src =
      (Incremental.lift (fun a => (.v3 a.1,
        a.2)) id (V3.Codec.framed.incremental.decode codec src).1,
        asStream3 (V3.Codec.framed.incremental.decode codec src).2.1,
        (V3.Codec.framed.incremental.decode codec src).2.2) := by
  change next maxPacketSize (.stream .MQTT3 (.v3 codec)) src = _
  simp only [next, MqttCodec.decode,
    show V3.Codec.decode = V3.Codec.framed.incremental.decode from rfl]
  rcases V3.Codec.framed.incremental.decode codec src with ⟨(_ | a) | e | f, codec', rest⟩ <;> rfl

/-- The stream of an MQTT 3 connection is its codec. -/
theorem drain_v3 (codec : V3.Codec) (src : Bytes) :
    (incremental maxPacketSize).drain (asStream3 codec) src =
      ((V3.Codec.framed.incremental.drain codec src).1.map fun a => (.v3 a.1, a.2),
        Incremental.liftEnd asStream3 id (V3.Codec.framed.incremental.drain codec src).2) :=
  Incremental.drain_embed (call_v3 maxPacketSize) codec src

/-- A call of the stream of an MQTT 5 connection is a call of its codec. -/
theorem call_v5 (codec : V5.Codec) (src : Bytes) :
    (incremental maxPacketSize).decode (asStream5 codec) src =
      (Incremental.lift (fun a => (.v5 a.1,
        a.2)) id (V5.Codec.framed.incremental.decode codec src).1,
        asStream5 (V5.Codec.framed.incremental.decode codec src).2.1,
        (V5.Codec.framed.incremental.decode codec src).2.2) := by
  change next maxPacketSize (.stream .MQTT5 (.v5 codec)) src = _
  simp only [next, MqttCodec.decode,
    show V5.Codec.decode = V5.Codec.framed.incremental.decode from rfl]
  rcases V5.Codec.framed.incremental.decode codec src with ⟨(_ | a) | e | f, codec', rest⟩ <;> rfl

/-- The stream of an MQTT 5 connection is its codec. -/
theorem drain_v5 (codec : V5.Codec) (src : Bytes) :
    (incremental maxPacketSize).drain (asStream5 codec) src =
      ((V5.Codec.framed.incremental.drain codec src).1.map fun a => (.v5 a.1, a.2),
        Incremental.liftEnd asStream5 id (V5.Codec.framed.incremental.drain codec src).2) :=
  Incremental.drain_embed (call_v5 maxPacketSize) codec src

/-- What a connection receives that is one chunk. -/
theorem receive_one (src : Bytes) :
    receive maxPacketSize [src] = match VersionCodec.decode src with
      | ok none => ([], ok ())
      | ok (some .MQTT3) =>
          ((.version .MQTT3, 0) :: ((V3.Codec.new maxPacketSize).receive [src]).1.map
              fun a => (.v3 a.1, a.2), ((V3.Codec.new maxPacketSize).receive [src]).2)
      | ok (some .MQTT5) =>
          ((.version .MQTT5, 0) ::
              ((V5.Codec.new maxPacketSize maxPacketSize).receive [src]).1.map
                fun a => (.v5 a.1, a.2),
            ((V5.Codec.new maxPacketSize maxPacketSize).receive [src]).2)
      | err _ => ([], err .invalidProtocol)
      | fault f => ([], fault f) := by
  have first := next_dispatcher maxPacketSize src
  unfold receive
  rw [Incremental.feed, List.nil_append]
  rcases run : VersionCodec.decode src with (_ | ver) | e | f
  · rw [run] at first
    rw [Incremental.drain_more _ first]
    rfl
  · rw [run] at first
    rw [Incremental.drain_item _ first]
    cases ver with
    | MQTT3 =>
        have stream := drain_v3 maxPacketSize (V3.Codec.new maxPacketSize) src
        dsimp only [newCodec]
        rw [show Connection.stream .MQTT3 (.v3 (V3.Codec.new maxPacketSize)) = asStream3 _ from rfl,
          stream, V3.Codec.receive, Incremental.feed, List.nil_append]
        rcases V3.Codec.framed.incremental.drain (V3.Codec.new maxPacketSize) src
          with ⟨as, ⟨codec, rest⟩ | e | f⟩
        · simp [Incremental.feed, Incremental.liftEnd]
        · rfl
        · rfl
    | MQTT5 =>
        have stream := drain_v5 maxPacketSize (V5.Codec.new maxPacketSize maxPacketSize) src
        dsimp only [newCodec]
        rw [show Connection.stream .MQTT5 (.v5 (V5.Codec.new maxPacketSize maxPacketSize)) =
            asStream5 _ from rfl, stream, V5.Codec.receive, Incremental.feed, List.nil_append]
        rcases V5.Codec.framed.incremental.drain (V5.Codec.new maxPacketSize maxPacketSize) src
          with ⟨as, ⟨codec, rest⟩ | e | f⟩
        · simp [Incremental.feed, Incremental.liftEnd]
        · rfl
        · rfl
  · rw [run] at first
    rw [Incremental.drain_err _ (congrArg Prod.fst first)]
  · rw [run] at first
    rw [Incremental.drain_fault _ (congrArg Prod.fst first)]

end Connection

/-- However the bytes of a connection arrive, nothing is received before the version is clear, and
then what the codec of that version reads in all of the bytes, those of the detection included.  A
connection that does not begin with a CONNECT of a known protocol ends without a packet. -/
theorem dispatcher_receives (maxPacketSize : UInt32) (chunks : List Bytes) :
    Connection.receive maxPacketSize chunks = match VersionCodec.decode chunks.flatten with
      | ok none => ([], ok ())
      | ok (some .MQTT3) =>
          let (packets, ends) := (V3.Codec.new maxPacketSize).receive chunks
          ((.version .MQTT3, 0) :: packets.map fun a => (.v3 a.1, a.2), ends)
      | ok (some .MQTT5) =>
          let (packets, ends) := (V5.Codec.new maxPacketSize maxPacketSize).receive chunks
          ((.version .MQTT5, 0) :: packets.map fun a => (.v5 a.1, a.2), ends)
      | err _ => ([], err .invalidProtocol)
      | fault _ => ([], err .invalidProtocol) := by
  have whole : Connection.receive maxPacketSize chunks =
      Connection.receive maxPacketSize [chunks.flatten] :=
    (Connection.incremental maxPacketSize).feed_eq_flatten rfl chunks
  have v3 : (V3.Codec.new maxPacketSize).receive chunks =
      (V3.Codec.new maxPacketSize).receive [chunks.flatten] :=
    V3.Codec.framed.incremental.feed_eq_flatten rfl chunks
  have v5 : (V5.Codec.new maxPacketSize maxPacketSize).receive chunks =
      (V5.Codec.new maxPacketSize maxPacketSize).receive [chunks.flatten] :=
    V5.Codec.framed.incremental.feed_eq_flatten rfl chunks
  rw [whole, Connection.receive_one, v3, v5]
  rcases run : VersionCodec.decode chunks.flatten with (_ | _ | _) | e | f
  · rfl
  · rfl
  · rfl
  · rfl
  · exact absurd run (version_ne_fault _ f)

/-! ## The packets of a client -/

namespace MqttPacket

/-- The packet is a CONNECT. -/
def isConnect : MqttPacket → Bool
  | .v3 (.connect _) => true
  | .v5 (.connect _) => true
  | _ => false

/-- The packet is well-formed in its version, and the broker does not refuse its size. -/
def Sendable (maxPacketSize : UInt32) : MqttPacket → Prop
  | .v3 p => p.WellFormed ∧ (maxPacketSize = 0 ∨ p.content.length ≤ maxPacketSize.toNat)
  | .v5 p => p.WellFormed ∧ (maxPacketSize = 0 ∨ p.content.length ≤ maxPacketSize.toNat)
  | .version _ => False

/-- The bytes of a packet on the wire. -/
def frame : MqttPacket → Bytes
  | .v3 p => p.frame
  | .v5 p => p.frame
  | .version _ => []

/-- What is received for a packet: a PUBLISH of version 5 without properties comes back with the
default ones. -/
def received : MqttPacket → MqttPacket × Nat
  | .v3 p => (.v3 p, p.content.length)
  | .v5 p => (.v5 p.normalized, p.content.length)
  | .version ver => (.version ver, 0)

variable {maxPacketSize : UInt32} {ver : ProtocolVersion} {p : MqttPacket}

/-- The codec of a client writes the frame of a packet of its version. -/
theorem writes (sendable : p.Sendable maxPacketSize) (right : p.isOf ver = true) :
    ByteWriter.Writes ((newCodec 0 ver).encode p) p.frame := by
  cases p with
  | v3 p =>
      cases ver with
      | MQTT3 => exact V3.Codec.writes (V3.Codec.new 0) sendable.1.fits sendable.1.small
      | MQTT5 => cases right
  | v5 p =>
      cases ver with
      | MQTT3 => cases right
      | MQTT5 =>
          have room := sendable.1.room
          have small : p.content.length ≤ MAX_PACKET_SIZE := by omega
          have whole : p.cut MAX_PACKET_SIZE = p := V5.Packet.cut_eq_self room
          have written := V5.Codec.encode_of_size (c := V5.Codec.new 0 0)
            (show (p.cut MAX_PACKET_SIZE).Fits from whole.symm ▸ sendable.1.fits)
            (V5.Packet.encodedSize_max sendable.1.fits small whole) small small
          change ByteWriter.Writes _ (p.cut MAX_PACKET_SIZE).frame at written
          rw [whole] at written
          exact written
  | version v => cases right

/-- The version that a content with the name of MQTT announces. -/
theorem detects {content : Bytes} (small : content.length ≤ MAX_PACKET_SIZE) {level : UInt8}
    {tail : Bytes} (head : content = 0 :: 4 :: (MQTT ++ level :: tail)) (rest : Bytes) :
    VersionCodec.decode (packetType.CONNECT :: (varInt content.length ++ content) ++ rest) =
      VersionCodec.levelVersion level := by
  have header := decodeVariableLength_varInt small (content ++ rest)
  rcases bytes : varInt content.length with _ | ⟨b, more⟩
  · exact (varInt_append_ne_nil content.length [] (by rw [bytes]; rfl)).elim
  · rw [bytes, List.cons_append] at header
    rw [List.cons_append, List.append_assoc, List.cons_append,
      VersionCodec.decode_of_header header, if_pos rfl, head]
    have split : packetType.CONNECT :: b :: (more ++ (0 :: 4 :: (MQTT ++ level :: tail) ++ rest)) =
        (packetType.CONNECT :: b :: more) ++ 0 :: 4 :: (MQTT ++ level :: (tail ++ rest)) := by simp
    have named : VersionCodec.namedVersion 4 (MQTT ++ level :: (tail ++ rest)) =
        VersionCodec.levelVersion level := rfl
    rw [split, ← named]
    exact VersionCodec.connectVersion_eq _ 0 4 (by simp [MQTT])

/-- The version of a client is detected in its CONNECT. -/
theorem detected (sendable : p.Sendable maxPacketSize) (right : p.isOf ver = true)
    (connect : p.isConnect = true) (rest : Bytes) :
    VersionCodec.decode (p.frame ++ rest) = ok (some ver) := by
  cases p with
  | v3 p =>
      cases ver with
      | MQTT5 => cases right
      | MQTT3 =>
          cases p with
          | connect p =>
              have small := V3.Packet.length_content sendable.1.fits ▸ sendable.1.small
              have level := sendable.1.level p rfl
              have name : V3.protocolName p.protocol = MQTT := by
                rw [level]
                rfl
              have head : ∃ tail, p.image = 0 :: 4 :: (MQTT ++ MQTT_LEVEL_311 :: tail) := by
                rw [V3.Connect.image, name]
                exact ⟨_, rfl⟩
              obtain ⟨tail, head⟩ := head
              exact detects small head rest
          | _ => cases connect
  | v5 p =>
      cases ver with
      | MQTT3 => cases right
      | MQTT5 =>
          cases p with
          | connect p =>
              have small : (V5.Packet.connect p).content.length ≤ MAX_PACKET_SIZE := by
                have := sendable.1.room
                omega
              have head : ∃ tail, p.image = 0 :: 4 :: (MQTT ++ MQTT_LEVEL_5 :: tail) := ⟨_, rfl⟩
              obtain ⟨tail, head⟩ := head
              exact detects small head rest
          | _ => cases connect
  | version v => cases right

end MqttPacket

namespace Connection

/-- The stream of a version, between two frames. -/
def Idle (maxPacketSize : UInt32) (ver : ProtocolVersion) : Connection → Prop
  | .stream ver' (.v3 codec) =>
      ver = .MQTT3 ∧ ver' = .MQTT3 ∧ codec.state = .frameHeader ∧ codec.maxSize = maxPacketSize
  | .stream ver' (.v5 codec) =>
      ver = .MQTT5 ∧ ver' = .MQTT5 ∧ codec.state = .frameHeader ∧ codec.maxInSize = maxPacketSize
  | _ => False

variable {maxPacketSize : UInt32} {ver : ProtocolVersion} {conn : Connection}

theorem idle_newCodec (maxPacketSize : UInt32) (ver : ProtocolVersion) :
    Idle maxPacketSize ver (.stream ver (newCodec maxPacketSize ver)) := by
  cases ver <;> exact ⟨rfl, rfl, rfl, rfl⟩

/-- The streams between two frames, by version. -/
theorem Idle.cases (idle : Idle maxPacketSize ver conn) :
    (ver = .MQTT3 ∧ ∃ codec : V3.Codec, conn = asStream3 codec ∧ codec.state = .frameHeader ∧
      codec.maxSize = maxPacketSize) ∨
    (ver = .MQTT5 ∧ ∃ codec : V5.Codec, conn = asStream5 codec ∧ codec.state = .frameHeader ∧
      codec.maxInSize = maxPacketSize) := by
  cases conn with
  | dispatcher => exact idle.elim
  | stream ver' io =>
      cases io with
      | v3 codec =>
          obtain ⟨rfl, rfl, state, limit⟩ := idle
          exact .inl ⟨rfl, codec, rfl, state, limit⟩
      | v5 codec =>
          obtain ⟨rfl, rfl, state, limit⟩ := idle
          exact .inr ⟨rfl, codec, rfl, state, limit⟩
      | version => exact idle.elim

theorem next_nil (idle : Idle maxPacketSize ver conn) :
    next maxPacketSize conn [] = (ok none, conn, []) := by
  rcases idle.cases with ⟨rfl, ⟨state, limit⟩, rfl, rfl, rfl⟩ | ⟨rfl, ⟨state, i, o, f⟩, rfl,
    rfl, rfl⟩
  · rfl
  · rfl

/-- The stream of a version reads the frame of a packet, and is between two frames again. -/
theorem next_frame (idle : Idle maxPacketSize ver conn) {p : MqttPacket}
    (sendable : p.Sendable maxPacketSize) (right : p.isOf ver = true) (rest : Bytes) :
    ∃ conn', Idle maxPacketSize ver conn' ∧
      next maxPacketSize conn (p.frame ++ rest) = (ok (some p.received), conn', rest) := by
  rcases idle.cases with ⟨rfl, codec, rfl, state, limit⟩ | ⟨rfl, codec, rfl, state, limit⟩
  · cases p with
    | v5 p => cases right
    | version v => cases right
    | v3 p =>
        obtain ⟨wf, within⟩ := sendable
        have run : decodeFrames V3.Codec.framed.decodePacket (V3.Codec.framed.maxSize codec)
            (V3.Codec.framed.state codec) (p.frame ++ rest) =
            (ok (some (p.reread, p.content.length)), .frameHeader, rest) := by
          change decodeFrames V3.decodePacket codec.maxSize.toNat codec.state _ = _
          rw [state, limit]
          refine decodeHeader_frame (V3.Packet.length_content wf.fits ▸ wf.small) (fun above => ?_)
            (V3.Packet.decodes wf.fits wf.acceptable) rest
          rcases within with unlimited | fine
          · exact above.1 (by rw [unlimited]; rfl)
          · omega
        have decoded := V3.Codec.framed.decode_of_run run
        refine ⟨asStream3 { codec with state := .frameHeader }, ⟨rfl, rfl, rfl, limit⟩, ?_⟩
        have call := call_v3 maxPacketSize codec (p.frame ++ rest)
        rw [show V3.Codec.framed.incremental.decode = V3.Codec.framed.decode from rfl,
          decoded] at call
        rw [wf.reread_eq] at call
        exact call
  · cases p with
    | v3 p => cases right
    | version v => cases right
    | v5 p =>
        obtain ⟨wf, within⟩ := sendable
        have small : p.content.length ≤ MAX_PACKET_SIZE := by
          have := wf.room
          omega
        have run : decodeFrames V5.Codec.framed.decodePacket (V5.Codec.framed.maxSize codec)
            (V5.Codec.framed.state codec) (p.frame ++ rest) =
            (ok (some (p.normalized, p.content.length)), .frameHeader, rest) := by
          change decodeFrames V5.decodePacket codec.maxInSize.toNat codec.state _ = _
          rw [state, limit]
          refine decodeHeader_frame small (fun above => ?_)
            (V5.Packet.decodes wf.fits wf.acceptable small) rest
          rcases within with unlimited | fine
          · exact above.1 (by rw [unlimited]; rfl)
          · omega
        have decoded := V5.Codec.framed.decode_of_run run
        refine ⟨asStream5 (V5.Codec.framed.update codec (ok (some (p.normalized, p.content.length)))
          .frameHeader), ⟨rfl, rfl, rfl, limit⟩, ?_⟩
        have call := call_v5 maxPacketSize codec (p.frame ++ rest)
        rw [show V5.Codec.framed.incremental.decode = V5.Codec.framed.decode from rfl,
          decoded] at call
        exact call

end Connection

/-- However the frames of these packets arrive, the connection receives the packets. -/
theorem Connection.receive_frames {maxPacketSize : UInt32} {ver : ProtocolVersion}
    {connect : MqttPacket} {packets : List MqttPacket} (first : connect.isConnect = true)
    (right : ∀ p ∈ connect :: packets, p.isOf ver = true)
    (sendable : ∀ p ∈ connect :: packets, p.Sendable maxPacketSize) {chunks : List Bytes}
    (whole : chunks.flatten = (connect :: packets).flatMap MqttPacket.frame) :
    receive maxPacketSize chunks =
      ((.version ver, 0) :: (connect :: packets).map MqttPacket.received, ok ()) := by
  have one : receive maxPacketSize chunks = receive maxPacketSize [chunks.flatten] :=
    (incremental maxPacketSize).feed_eq_flatten rfl chunks
  have found : VersionCodec.decode chunks.flatten = ok (some ver) := by
    rw [whole, List.flatMap_cons]
    exact MqttPacket.detected (sendable connect List.mem_cons_self)
      (right connect List.mem_cons_self) first _
  have start : (incremental maxPacketSize).decode .dispatcher chunks.flatten =
      (ok (some (.version ver, 0)), .stream ver (newCodec maxPacketSize ver), chunks.flatten) := by
    change next maxPacketSize .dispatcher chunks.flatten = _
    rw [next_dispatcher, found]
  obtain ⟨conn, -, rest⟩ := Incremental.drain_flatMap (incremental maxPacketSize)
    (fun conn idle => next_nil idle) (connect :: packets)
    (fun p hp conn idle => next_frame idle (sendable p hp) (right p hp))
    (idle_newCodec maxPacketSize ver)
  rw [one, receive, Incremental.feed, List.nil_append, Incremental.drain_item _ start, whole, rest]
  simp [Incremental.feed]

/-- What a client sends is received: the codec of its version writes a CONNECT and any packets
behind it, and however the bytes arrive, the connection receives the version, and then these packets
in the same order with the lengths that were written. -/
theorem client_packets_received {maxPacketSize : UInt32} {ver : ProtocolVersion}
    {connect : MqttPacket} {packets : List MqttPacket} (first : connect.isConnect = true)
    (right : ∀ p ∈ connect :: packets, p.isOf ver = true)
    (sendable : ∀ p ∈ connect :: packets, p.Sendable maxPacketSize) :
    ∃ bytes, ByteWriter.forEach (newCodec 0 ver).encode (connect :: packets) [] = (ok (), bytes) ∧
      ∀ chunks : List Bytes, chunks.flatten = bytes →
        Connection.receive maxPacketSize chunks =
          ((.version ver, 0) :: (connect :: packets).map MqttPacket.received, ok ()) :=
  ⟨(connect :: packets).flatMap MqttPacket.frame,
    ByteWriter.Writes.forEach (connect :: packets)
      (fun p hp => MqttPacket.writes (sendable p hp) (right p hp)) [],
    fun _ whole => Connection.receive_frames first right sendable whole⟩

/-- The CONNECT of a client that resumes its session, and a ping. -/
def resumed : List MqttPacket := [.v3 (.connect V3.resuming), .v3 .pingRequest]

theorem resumed_sendable : ∀ p ∈ resumed, p.isOf .MQTT3 = true ∧ p.Sendable 1024 := by
  have fits : (V3.Packet.connect V3.resuming).Fits := by
    refine ⟨?_, fun w hw => ?_, fun s hs => ?_, fun bs hbs => by cases hbs⟩
    · exact show ByteString.len "c" ≤ 65535 by decide
    · cases hw
      exact ⟨show ByteString.len "w" ≤ 65535 by decide, show [(1 : UInt8)].length ≤ 65535 by decide⟩
    · cases hs
      exact show ByteString.len "u" ≤ 65535 by decide
  have connect : (V3.Packet.connect V3.resuming).WellFormed :=
    ⟨fits, ⟨fun empty => absurd empty (by decide), rfl⟩, fun c hc => by cases hc; rfl, by decide⟩
  have ping : V3.Packet.pingRequest.WellFormed :=
    ⟨trivial, trivial, (fun c hc => nomatch hc), by decide⟩
  intro p hp
  rcases List.mem_pair.mp hp with rfl | rfl
  · exact ⟨rfl, connect, .inr (by decide)⟩
  · exact ⟨rfl, ping, .inr (by decide)⟩

/-- The packets of a client that resumes its session, under a limit. -/
theorem client_packets_received_resumed :
    ∃ bytes, ByteWriter.forEach (newCodec 0 .MQTT3).encode resumed [] = (ok (), bytes) ∧
      ∀ chunks : List Bytes, chunks.flatten = bytes →
        Connection.receive 1024 chunks =
          ((.version .MQTT3, 0) :: resumed.map MqttPacket.received, ok ()) :=
  client_packets_received rfl (fun p hp => (resumed_sendable p hp).1)
    fun p hp => (resumed_sendable p hp).2

end OxiMqtt.Net

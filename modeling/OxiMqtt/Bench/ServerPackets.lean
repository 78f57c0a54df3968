import OxiMqtt.Bench.Decode
import OxiMqtt.Codec.Failures

/-!
# The benchmark reads what the broker sends

The frames of the two codecs of the broker against the decoder of the benchmark, which skips the
property blocks of all packets but the v5 CONNACK.

* `fromV3`, `fromV5`: the packet of the benchmark that says what a packet of the broker says.
* `parse_v3_iff`, `parse_v5_iff`: a content is parsed as that packet, exactly unless it is the
  content of a PUBLISH without a topic or of a v5 CONNACK that says more than success.
* `server_frame_read`: so is a whole frame within the limit of the benchmark, and exactly its bytes
  are taken.
-/

namespace OxiMqtt.Bench

open Wire Wire.Reader Cur
open Wire.ByteWriter (be16)
open Codec (ByteString NonZeroU16 boolU8 toU8)

/-! ## What a packet of the broker says -/

/-- The QoS of the benchmark. -/
def QoS.ofBroker : Codec.QoS → QoS
  | .atMostOnce => .atMostOnce
  | .atLeastOnce => .atLeastOnce
  | .exactlyOnce => .exactlyOnce

/-- A PUBLISH without its properties. -/
def Publish.ofBroker (p : Codec.Publish) : Publish where
  topic := p.topic
  payload := p.payload
  qos := .ofBroker p.qos
  retain := p.retain
  dup := p.dup
  pid := p.packetId.map (·.val)

/-- What a packet of the v3 codec says; `none` for the packets of a client. -/
def fromV3 : Codec.V3.Packet → Option Packet
  | .connectAck ack => some (.connAck (toU8 ack.returnCode) ack.sessionPresent none)
  | .publish p => some (.publish (.ofBroker p))
  | .publishAck packetId => some (.pubAck packetId.val 0)
  | .publishReceived packetId => some (.pubRec packetId.val 0)
  | .publishRelease packetId => some (.pubRel packetId.val 0)
  | .publishComplete packetId => some (.pubComp packetId.val 0)
  | .subscribeAck packetId status => some (.subAck packetId.val (status.map Codec.V3.statusByte))
  | .unsubscribeAck packetId => some (.unsubAck packetId.val [])
  | .pingResponse => some .pingResp
  | .disconnect => some (.disconnect 0)
  | .connect _ | .subscribe _ _ | .unsubscribe _ _ | .pingRequest => none

/-- What a v5 CONNACK says; the default Receive Maximum is not sent. -/
def fromConnectAck (ack : Codec.V5.ConnectAck) : Packet :=
  .connAck (toU8 ack.reasonCode) ack.sessionPresent
    ((Codec.V5.elide ack.receiveMax Codec.RECEIVE_MAX_DEFAULT).map (·.val))

/-- What a packet of the v5 codec says; `none` for the packets of a client and for AUTH. -/
def fromV5 : Codec.V5.Packet → Option Packet
  | .connectAck ack => some (fromConnectAck ack)
  | .publish p => some (.publish (.ofBroker p))
  | .publishAck ack => some (.pubAck ack.packetId.val (toU8 ack.reasonCode))
  | .publishReceived ack => some (.pubRec ack.packetId.val (toU8 ack.reasonCode))
  | .publishRelease ack => some (.pubRel ack.packetId.val (toU8 ack.reasonCode))
  | .publishComplete ack => some (.pubComp ack.packetId.val (toU8 ack.reasonCode))
  | .subscribeAck ack => some (.subAck ack.packetId.val (ack.status.map toU8))
  | .unsubscribeAck ack => some (.unsubAck ack.packetId.val (ack.status.map toU8))
  | .pingResponse => some .pingResp
  | .disconnect p => some (.disconnect (toU8 p.reasonCode))
  | .connect _ | .subscribe _ | .unsubscribe _ | .pingRequest | .auth _ => none

/-- A v5 CONNACK that says success and nothing else that the benchmark wants to know. -/
def PlainSuccess (ack : Codec.V5.ConnectAck) : Prop :=
  ack.sessionPresent = false ∧ ack.reasonCode = .success ∧
    ack.receiveMax = Codec.RECEIVE_MAX_DEFAULT

/-- A v3 packet that the benchmark does not refuse. -/
def ReadableV3 : Codec.V3.Packet → Prop
  | .publish p => ByteString.isEmpty p.topic = false
  | _ => True

/-- A v5 packet that the benchmark neither refuses nor misreads. -/
def ReadableV5 : Codec.V5.Packet → Prop
  | .connectAck ack => PlainSuccess ack
  | .publish p => ByteString.isEmpty p.topic = false
  | _ => True

/-! ## Contents -/

section Kinds

variable (version : Version)

theorem parse_connack : parse version Codec.packetType.CONNACK = parseConnack version := rfl

theorem parse_puback : parse version Codec.packetType.PUBACK = parseAck version .pubAck := rfl

theorem parse_pubrec : parse version Codec.packetType.PUBREC = parseAck version .pubRec := rfl

theorem parse_pubrel : parse version Codec.packetType.PUBREL = parseAck version .pubRel := rfl

theorem parse_pubcomp : parse version Codec.packetType.PUBCOMP = parseAck version .pubComp := rfl

theorem parse_subackByte : parse version Codec.packetType.SUBACK = parseSuback version := rfl

theorem parse_unsubackByte : parse version Codec.packetType.UNSUBACK = parseUnsuback version := rfl

end Kinds

/-- What is behind the reason of a DISCONNECT is not looked at. -/
theorem parse_disconnect (reason : UInt8) (more : Bytes) :
    parse .v5 Codec.packetType.DISCONNECT (reason :: more) = .ok (.disconnect reason, more) := rfl

theorem parse_publishByte (p : Codec.Publish) (version : Version) :
    parse version p.firstByte = parsePublish version (p.firstByte &&& 0x0F) := by
  unfold Codec.Publish.firstByte
  cases p.qos <;> cases p.dup <;> cases p.retain <;> rfl

/-- The flags of a PUBLISH, as the decoder takes them apart. -/
theorem flags_publishByte (p : Codec.Publish) :
    ((p.firstByte &&& 0x0F) >>> 1 &&& 0x03 ≤ 2) ∧
      QoS.fromU8 ((p.firstByte &&& 0x0F) >>> 1 &&& 0x03) = .ofBroker p.qos ∧
      ((p.firstByte &&& 0x0F) &&& 0x01 != 0) = p.retain ∧
      ((p.firstByte &&& 0x0F) &&& 0x08 != 0) = p.dup := by
  unfold Codec.Publish.firstByte
  cases p.qos <;> cases p.dup <;> cases p.retain <;> decide

/-- The packet id of a PUBLISH is read exactly above QoS 0. -/
theorem decodes_publishId {p : Codec.Publish}
    (id : p.packetId.isSome = true ↔ p.qos ≠ .atMostOnce) :
    Decodes (readIf (QoS.ofBroker p.qos != .atMostOnce) readPid)
      ((p.packetId.map fun id => be16 id.val).getD []) (p.packetId.map (·.val)) := by
  have above : (QoS.ofBroker p.qos != .atMostOnce) = p.packetId.isSome := by
    have same : (QoS.ofBroker p.qos != .atMostOnce) = true ↔ p.qos ≠ .atMostOnce := by
      cases p.qos <;> decide
    exact Bool.eq_iff_iff.mpr (same.trans id.symm)
  rw [above]
  cases p.packetId with
  | none => exact Decodes.pure none
  | some id => exact (decodes_readPid id.property).map

/-- A PUBLISH with a topic is read over the property block of its version. -/
theorem parse_publish {version : Version} {p : Codec.Publish} {block : Bytes}
    (topic : Codec.Fits p.topic) (named : ByteString.isEmpty p.topic = false)
    (id : p.packetId.isSome = true ↔ p.qos ≠ .atMostOnce)
    (skipped : Decodes (skipV5 version) block ()) :
    DecodesAll (parse version p.firstByte)
      (Codec.image p.topic ++ ((p.packetId.map fun id => be16 id.val).getD [] ++
        (block ++ p.payload)))
      (.publish (.ofBroker p)) := by
  obtain ⟨low, qos, retain, dup⟩ := flags_publishByte p
  rw [parse_publishByte, parsePublish]
  dsimp only
  rw [qos, retain, dup]
  refine DecodesAll.bind_nil (Decodes.ensure (decide_eq_true low)) ?_
  refine DecodesAll.bind (decodes_string topic) ?_
  refine DecodesAll.bind_nil (Decodes.ensure (by rw [named]; rfl)) ?_
  refine DecodesAll.bind (decodes_publishId id) ?_
  refine DecodesAll.bind skipped ?_
  exact DecodesAll.bind_all (DecodesAll.takeRest _) (DecodesAll.pure _)

/-- A PUBLISH without a topic is refused. -/
theorem parse_unnamed {version : Version} {p : Codec.Publish}
    (unnamed : ByteString.isEmpty p.topic = true)
    (topic : Codec.Fits p.topic) (more : Bytes) :
    parse version p.firstByte (Codec.image p.topic ++ more) =
      .err (.malformed "empty topic name") := by
  obtain ⟨low, -⟩ := flags_publishByte p
  have range : (ensure (decide ((p.firstByte &&& 0x0F) >>> 1 &&& 0x03 ≤ 2))
      (.malformed "reserved QoS value") : Reader CodecError Unit) (Codec.image p.topic ++ more) =
      .ok ((), Codec.image p.topic ++ more) := Decodes.ensure (decide_eq_true low) _
  rw [parse_publishByte, parsePublish]
  dsimp only
  rw [bind_of_ok range, bind_of_ok (decodes_string topic more), unnamed]
  rfl

section Acks

variable {version : Version} {pid : NonZeroU16}

theorem parse_ack {build : UInt16 → UInt8 → Packet} {bytes : Bytes} {reason : UInt8}
    (h : DecodesAll (parseReason version) bytes reason) :
    DecodesAll (parseAck version build) (be16 pid.val ++ bytes) (build pid.val reason) := by
  refine DecodesAll.bind (decodes_readPid pid.property) ?_
  exact DecodesAll.bind_all h (DecodesAll.pure _)

/-- The reason of a v5 acknowledgment is read, and its properties are skipped. -/
theorem parseReason_v5 {reason : UInt8} {props : Bytes}
    (small : props.length ≤ Codec.MAX_PACKET_SIZE) :
    DecodesAll (parseReason .v5) ([reason] ++ (Codec.varInt props.length ++ props)) reason := by
  refine DecodesAll.ifRemaining (List.cons_ne_nil _ _) ?_
  refine DecodesAll.bind (decodes_byte reason) ?_
  refine DecodesAll.ifRemaining (Codec.varInt_append_ne_nil _ _) ?_
  exact (decodes_skipProperties small).map.all

theorem parse_suback {block reasons : Bytes} (skipped : Decodes (skipV5 version) block ()) :
    DecodesAll (parseSuback version) (be16 pid.val ++ (block ++ reasons))
      (.subAck pid.val reasons) := by
  refine DecodesAll.bind (decodes_readPid pid.property) ?_
  refine DecodesAll.bind skipped ?_
  exact DecodesAll.bind_all (DecodesAll.takeRest _) (DecodesAll.pure _)

theorem parse_unsuback {props reasons : Bytes} (small : props.length ≤ Codec.MAX_PACKET_SIZE) :
    DecodesAll (parseUnsuback .v5)
      (be16 pid.val ++ ((Codec.varInt props.length ++ props) ++ reasons))
      (.unsubAck pid.val reasons) := by
  refine DecodesAll.bind (decodes_readPid pid.property) ?_
  refine DecodesAll.bind (decodes_skipProperties small) ?_
  exact DecodesAll.bind_all (DecodesAll.takeRest _) (DecodesAll.pure _)

end Acks

/-- The v3 contents. -/
theorem parse_v3 {p : Codec.V3.Packet} {q : Packet} (fits : p.Fits) (said : fromV3 p = some q)
    (readable : ReadableV3 p) : DecodesAll (parse .v3 p.firstByte) p.content q := by
  have noBlock : Decodes (skipV5 .v3) [] () := Decodes.pure ()
  have ack : ∀ {header : UInt8} {build : UInt16 → UInt8 → Packet} (packetId : NonZeroU16),
      parse .v3 header = parseAck .v3 build →
      DecodesAll (parse .v3 header) (be16 packetId.val) (build packetId.val 0) := by
    intro header build packetId kind
    have none : DecodesAll (parseReason .v3) [] 0 := DecodesAll.pure 0
    rw [kind]
    exact parse_ack none
  cases p with
  | connectAck ack =>
      obtain rfl := Option.some.inj said
      rcases ack with ⟨code, present⟩
      have flag : (boolU8 present &&& 0x01 != 0) = present := by cases present <;> rfl
      change DecodesAll (parse .v3 Codec.packetType.CONNACK)
        ([boolU8 present] ++ ([toU8 code] ++ [])) _
      rw [parse_connack, parseConnack, if_pos rfl]
      refine DecodesAll.bind (decodes_byte _) (DecodesAll.bind (decodes_byte _) ?_)
      rw [flag]
      exact DecodesAll.pure _
  | publish p =>
      obtain rfl := Option.some.inj said
      exact parse_publish fits.1 readable fits.2 noBlock
  | publishAck packetId =>
      obtain rfl := Option.some.inj said
      exact ack packetId (parse_puback .v3)
  | publishReceived packetId =>
      obtain rfl := Option.some.inj said
      exact ack packetId (parse_pubrec .v3)
  | publishRelease packetId =>
      obtain rfl := Option.some.inj said
      exact ack packetId (parse_pubrel .v3)
  | publishComplete packetId =>
      obtain rfl := Option.some.inj said
      exact ack packetId (parse_pubcomp .v3)
  | subscribeAck packetId status =>
      obtain rfl := Option.some.inj said
      change DecodesAll (parse .v3 Codec.packetType.SUBACK) _ _
      rw [parse_subackByte]
      exact parse_suback noBlock
  | unsubscribeAck packetId =>
      obtain rfl := Option.some.inj said
      change DecodesAll (parse .v3 Codec.packetType.UNSUBACK) (be16 packetId.val ++ []) _
      rw [parse_unsubackByte]
      exact DecodesAll.bind (decodes_readPid packetId.property) (DecodesAll.pure _)
  | pingResponse => obtain rfl := Option.some.inj said; rfl
  | disconnect => obtain rfl := Option.some.inj said; rfl
  | connect _ => cases said
  | subscribe _ _ => cases said
  | unsubscribe _ _ => cases said
  | pingRequest => cases said

/-- A content is read as what its packet says exactly if it is no PUBLISH without a topic. -/
theorem parse_v3_iff {p : Codec.V3.Packet} {q : Packet} (fits : p.Fits) (said : fromV3 p = some q) :
    (∃ left, parse .v3 p.firstByte p.content = .ok (q, left)) ↔ ReadableV3 p := by
  refine ⟨fun h => ?_, fun readable => ⟨[], parse_v3 fits said readable⟩⟩
  cases p with
  | publish p =>
      rcases h with ⟨left, run⟩
      by_contra readable
      have empty := Bool.of_not_eq_false readable
      exact absurd (run.symm.trans (parse_unnamed empty fits.1 _)) (by simp)
  | _ => trivial

/-! ## The v5 CONNACK -/

/-- The header byte in front of the reason is taken for the reason. -/
theorem parseConnack_reason {flags : UInt8} {content left : Bytes} {q : Packet}
    (run : parse .v5 Codec.packetType.CONNACK (flags :: content) = .ok (q, left)) :
    ∃ receiveMax, q = .connAck flags false receiveMax := by
  have kind : parse .v5 Codec.packetType.CONNACK (flags :: content) =
      (parseConnackProperties >>= fun receiveMax =>
        (pure (.connAck flags false receiveMax) : Reader CodecError Packet)) content := rfl
  rw [kind, bind_apply] at run
  rcases Outcome.bind_eq_ok.mp run with ⟨⟨receiveMax, rest⟩, -, last⟩
  cases last
  exact ⟨receiveMax, rfl⟩

/-- With the flags and the reason zero, the reason is taken for an empty property block. -/
theorem parseConnack_success (content : Bytes) :
    parse .v5 Codec.packetType.CONNACK (0 :: 0 :: content) =
      .ok (.connAck 0 false none, content) := by
  have block : parseConnackProperties (0 :: content) = .ok (none, content) := by
    have empty : varint (0 :: content) = .ok (0, content) :=
      decodes_varint (n := 0) (Nat.zero_le _) _
    have room : (ensureRemaining 0 .incomplete : Reader CodecError Unit) content =
        .ok ((), content) := if_pos (Nat.zero_le _)
    have props : parseConnackProps 0 content = .ok (none, content) := by
      have stop : parseConnackBlock content.length 0 none content = .ok (none, content) :=
        if_neg (Nat.lt_irrefl _)
      unfold parseConnackProps
      simp only [Nat.sub_zero, stop, Nat.lt_irrefl, if_false]
    rw [parseConnackProperties, bind_of_ok empty, bind_of_ok room]
    exact props
  have kind : parse .v5 Codec.packetType.CONNACK (0 :: 0 :: content) =
      (parseConnackProperties >>= fun receiveMax =>
        (pure (.connAck 0 false receiveMax) : Reader CodecError Packet)) (0 :: content) := rfl
  rw [kind, bind_of_ok block]
  rfl

/-- The benchmark reads exactly the plain CONNACKs as what they say. -/
theorem parseConnack_iff (ack : Codec.V5.ConnectAck) :
    (∃ left, parse .v5 Codec.packetType.CONNACK ack.image = .ok (fromConnectAck ack, left)) ↔
      PlainSuccess ack := by
  have image : ∃ content, ack.image = boolU8 ack.sessionPresent :: toU8 ack.reasonCode :: content :=
    ⟨_, rfl⟩
  rcases image with ⟨content, image⟩
  rw [image]
  constructor
  · intro h
    rcases h with ⟨left, run⟩
    rcases parseConnack_reason run with ⟨receiveMax, same⟩
    obtain ⟨reason, present, -⟩ := Packet.connAck.inj same
    rw [present] at reason run
    have success : ack.reasonCode = .success := by
      cases code : ack.reasonCode <;> rw [code] at reason <;> first | rfl | cases reason
    rw [success] at run
    have read := run.symm.trans (parseConnack_success content)
    obtain ⟨-, -, none⟩ := Packet.connAck.inj (congrArg Prod.fst (Outcome.ok.inj read))
    refine ⟨present, success, ?_⟩
    unfold Codec.V5.elide at none
    split at none
    · assumption
    · cases none
  · intro h
    rcases h with ⟨present, success, plain⟩
    rw [present, success]
    refine ⟨content, (parseConnack_success content).trans ?_⟩
    unfold fromConnectAck Codec.V5.elide
    rw [present, success, if_pos plain]
    rfl

/-! ## The other v5 contents -/

/-- The v5 contents. -/
theorem parse_v5 {p : Codec.V5.Packet} {q : Packet} (fits : p.Fits) (said : fromV5 p = some q)
    (readable : ReadableV5 p) (small : p.content.length ≤ Codec.MAX_PACKET_SIZE) :
    ∃ left, parse .v5 p.firstByte p.content = .ok (q, left) := by
  have ack : ∀ {ρ : Type} [Codec.PrimEnum ρ] {header : UInt8} {build : UInt16 → UInt8 → Packet}
      (ack : Codec.V5.PublishAckOf ρ), ack.image.length ≤ Codec.MAX_PACKET_SIZE →
      parse .v5 header = parseAck .v5 build →
      ∃ left, parse .v5 header ack.image =
        .ok (build ack.packetId.val (toU8 ack.reasonCode), left) := by
    intro ρ _ header build ack small kind
    rw [Codec.V5.PublishAckOf.length_image] at small
    rw [kind]
    exact ⟨[], parse_ack (parseReason_v5 (by omega))⟩
  have props : ∀ {ρ : Type} [Codec.PrimEnum ρ] (ack : Codec.V5.StatusAckOf ρ),
      ack.image.length ≤ Codec.MAX_PACKET_SIZE →
      (Codec.V5.optPropsImage ack.properties ack.reasonString).length ≤ Codec.MAX_PACKET_SIZE := by
    intro ρ _ ack small
    rw [Codec.V5.StatusAckOf.length_image, Codec.V5.ackPropsImage, List.length_append] at small
    omega
  cases p with
  | connectAck a =>
      obtain rfl := Option.some.inj said
      exact (parseConnack_iff a).mpr readable
  | publish p =>
      obtain rfl := Option.some.inj said
      have block : (p.properties.getD Codec.PublishProperties.default).propsImage.length ≤
          Codec.MAX_PACKET_SIZE := by
        simp only [Codec.V5.Packet.content, Codec.Publish.image, Codec.PublishProperties.image,
          List.length_append] at small
        omega
      exact ⟨[], parse_publish fits.topic readable fits.packetId (decodes_skipV5 block)⟩
  | publishAck a => obtain rfl := Option.some.inj said; exact ack a small (parse_puback .v5)
  | publishReceived a => obtain rfl := Option.some.inj said; exact ack a small (parse_pubrec .v5)
  | publishRelease a => obtain rfl := Option.some.inj said; exact ack a small (parse_pubrel .v5)
  | publishComplete a => obtain rfl := Option.some.inj said; exact ack a small (parse_pubcomp .v5)
  | subscribeAck a =>
      obtain rfl := Option.some.inj said
      change ∃ left, parse .v5 Codec.packetType.SUBACK _ = _
      rw [parse_subackByte]
      exact ⟨[], parse_suback (decodes_skipV5 (props a small))⟩
  | unsubscribeAck a =>
      obtain rfl := Option.some.inj said
      change ∃ left, parse .v5 Codec.packetType.UNSUBACK _ = _
      rw [parse_unsubackByte]
      exact ⟨[], parse_unsuback (props a small)⟩
  | pingResponse => obtain rfl := Option.some.inj said; exact ⟨[], rfl⟩
  | disconnect p => obtain rfl := Option.some.inj said; exact ⟨_, parse_disconnect _ _⟩
  | connect _ => cases said
  | subscribe _ => cases said
  | unsubscribe _ => cases said
  | pingRequest => cases said
  | auth _ => cases said

/-- A content is read as what its packet says exactly if the packet is one that is read. -/
theorem parse_v5_iff {p : Codec.V5.Packet} {q : Packet} (fits : p.Fits) (said : fromV5 p = some q)
    (small : p.content.length ≤ Codec.MAX_PACKET_SIZE) :
    (∃ left, parse .v5 p.firstByte p.content = .ok (q, left)) ↔ ReadableV5 p := by
  refine ⟨fun h => ?_, fun readable => parse_v5 fits said readable small⟩
  cases p with
  | connectAck a =>
      obtain rfl := Option.some.inj said
      exact (parseConnack_iff a).mp h
  | publish p =>
      rcases h with ⟨left, run⟩
      by_contra readable
      have empty := Bool.of_not_eq_false readable
      exact absurd (run.symm.trans (parse_unnamed empty fits.topic _)) (by simp)
  | _ => trivial

/-! ## Whole frames -/

/-- What is cut or left out on the way is not what the benchmark looks at. -/
theorem fromV5_sent (codec : Codec.V5.Codec) (p : Codec.V5.Packet) :
    fromV5 ((codec.outgoing p).cut codec.maxSize) = fromV5 p ∧
      (ReadableV5 ((codec.outgoing p).cut codec.maxSize) ↔ ReadableV5 p) := by
  unfold Codec.V5.Codec.outgoing
  split <;> cases p <;> exact ⟨rfl, Iff.rfl⟩

/-- An encoder of v3 that returns has written a frame of fields that fit. -/
theorem frame_of_encode_v3 {codec : Codec.V3.Codec} {p : Codec.V3.Packet} {dst frame : Bytes}
    (encoded : codec.encode p dst = (.ok (), dst ++ frame))
    (small : p.content.length ≤ Codec.MAX_PACKET_SIZE) : p.Fits ∧ frame = p.frame := by
  have fits : p.Fits := by
    rcases Codec.V3.encode_cases codec p dst with ⟨-, run⟩ | ⟨-, ⟨-, run⟩ | ⟨-, -, verdict⟩⟩
    · rw [encoded] at run
      cases run
    · rw [encoded] at run
      cases run
    · rw [encoded] at verdict
      exact verdict.1
  have written := Codec.V3.Codec.writes codec fits (Codec.V3.Packet.length_content fits ▸ small) dst
  rw [encoded] at written
  exact ⟨fits, List.append_cancel_left (Prod.ext_iff.mp written).2⟩

/-- An encoder of v5 that returns has written the frame of what it has kept. -/
theorem frame_of_encode_v5 {codec : Codec.V5.Codec} {p : Codec.V5.Packet} {dst frame : Bytes}
    (encoded : codec.encode p dst = (.ok (), dst ++ frame)) :
    ((codec.outgoing p).cut codec.maxSize).Fits ∧
      frame = ((codec.outgoing p).cut codec.maxSize).frame ∧
      ((codec.outgoing p).cut codec.maxSize).content.length ≤ Codec.MAX_PACKET_SIZE := by
  rcases Codec.V5.Codec.encode_eq_ok encoded with ⟨n, size, within, small⟩
  have verdict := (Codec.V5.Packet.verdict size small dst).2
  rw [Codec.V5.Codec.encode_of_within size within] at encoded
  rw [encoded] at verdict
  have fits := verdict.1
  have agrees := Codec.V5.Packet.agrees fits size small
  have written := agrees.2 dst
  rw [encoded] at written
  exact ⟨fits, List.append_cancel_left (Prod.ext_iff.mp written).2, agrees.1 ▸ small⟩

/-- The benchmark and the broker agree on what a server sends.  A frame that an encoder of the
broker writes is read as what its packet says, if the packet is one that the benchmark reads and the
content is within its limit; exactly the frame is consumed. -/
theorem server_frame_read {c : FrameCodec} {dst frame : Bytes} {q : Packet} (rest : Bytes) :
    (c.version = .v3 → ∀ (codec : Codec.V3.Codec) (p : Codec.V3.Packet), fromV3 p = some q →
      ReadableV3 p → codec.encode p dst = (.ok (), dst ++ frame) →
      p.content.length ≤ Codec.MAX_PACKET_SIZE → p.content.length ≤ c.maxPacketSize →
      c.decode (frame ++ rest) = (.ok (some q), { c with want := 0 }, rest)) ∧
    (c.version = .v5 → ∀ (codec : Codec.V5.Codec) (p : Codec.V5.Packet), fromV5 p = some q →
      ReadableV5 p → codec.encode p dst = (.ok (), dst ++ frame) →
      ((codec.outgoing p).cut codec.maxSize).content.length ≤ c.maxPacketSize →
      c.decode (frame ++ rest) = (.ok (some q), { c with want := 0 }, rest)) := by
  constructor
  · intro version codec p said readable encoded small within
    rcases frame_of_encode_v3 encoded small with ⟨fits, rfl⟩
    have run : parse c.version p.firstByte p.content = .ok (q, []) :=
      version ▸ parse_v3 fits said readable
    rw [Codec.V3.Packet.frame, FrameCodec.decode_frame small within, run]
  · intro version codec p said readable encoded within
    rcases frame_of_encode_v5 encoded with ⟨fits, rfl, small⟩
    rcases fromV5_sent codec p with ⟨same, reads⟩
    rcases parse_v5 fits (same.trans said) (reads.mpr readable) small with ⟨left, run⟩
    rw [← version] at run
    rw [Codec.V5.Packet.frame, FrameCodec.decode_frame small within, run]

/-- A PUBACK with a user property and a reason string is read as its id and its reason. -/
theorem refusal_read :
    (FrameCodec.new .v5 64).decode
      ([0x40, 12, 0, 7, 135, 8, 0x26, 0, 0, 0, 0, 0x1F, 0, 0] ++ [0xD0]) =
        (.ok (some (.pubAck 7 135)), { FrameCodec.new .v5 64 with want := 0 }, [0xD0]) := by
  have encoded : (Codec.V5.Codec.new 0 0).encode (.publishAck Codec.V5.refusal) [] =
      (.ok (), [] ++ [0x40, 12, 0, 7, 135, 8, 0x26, 0, 0, 0, 0, 0x1F, 0, 0]) := by decide
  exact (server_frame_read [0xD0]).2 rfl (Codec.V5.Codec.new 0 0) (.publishAck Codec.V5.refusal) rfl
    trivial encoded (by decide)

/-- A CONNACK that says success. -/
def welcome : Codec.V5.ConnectAck where
  sessionPresent := false
  reasonCode := .success
  sessionExpiryIntervalSecs := none
  receiveMax := Codec.RECEIVE_MAX_DEFAULT
  maxQos := .exactlyOnce
  maxPacketSize := none
  assignedClientId := none
  topicAliasMax := 0
  retainAvailable := true
  wildcardSubscriptionAvailable := true
  subscriptionIdentifiersAvailable := true
  sharedSubscriptionAvailable := true
  serverKeepaliveSec := none
  responseInfo := none
  serverReference := none
  authMethod := none
  authData := none
  reasonString := none
  userProperties := []

/-- A PUBLISH without a topic. -/
def unnamed : Codec.Publish := { Codec.zeros 0 with topic := "" }

/-- What the benchmark makes of a frame. -/
def benchDecode (version : Version) (frame : Bytes) : Outcome CodecError (Option Packet) :=
  ((FrameCodec.new version transportMaxPacketSize).decode frame).1

/-- A session that is present is read as another reason, a refusal as an incomplete packet, and a
Receive Maximum is not seen; there is no place for a Maximum Packet Size; a PUBLISH without a topic
and a frame above the limit are refused. -/
theorem server_frames_misread :
    ((Codec.V5.Codec.new 0 0).encode (.connectAck { welcome with sessionPresent := true }) [] =
        (.ok (), [0x20, 3, 1, 0, 0]) ∧
      benchDecode .v5 [0x20, 3, 1, 0, 0] = .ok (some (.connAck 1 false none))) ∧
    ((Codec.V5.Codec.new 0 0).encode
        (.connectAck { welcome with reasonCode := .notAuthorized }) [] =
        (.ok (), [0x20, 3, 0, 135, 0]) ∧
      benchDecode .v5 [0x20, 3, 0, 135, 0] = .err .incomplete) ∧
    ((Codec.V5.Codec.new 0 0).encode
        (.connectAck { welcome with receiveMax := ⟨10, by decide⟩ }) [] =
        (.ok (), [0x20, 6, 0, 0, 3, 0x21, 0, 10]) ∧
      benchDecode .v5 [0x20, 6, 0, 0, 3, 0x21, 0, 10] = .ok (some (.connAck 0 false none))) ∧
    ((Codec.V5.Codec.new 0 0).encode (.connectAck { welcome with maxPacketSize := some 9 }) [] =
        (.ok (), [0x20, 8, 0, 0, 5, 0x27, 0, 0, 0, 9]) ∧
      benchDecode .v5 [0x20, 8, 0, 0, 5, 0x27, 0, 0, 0, 9] = .ok (some (.connAck 0 false none))) ∧
    ((Codec.V3.Codec.new 0).encode (.publish unnamed) [] = (.ok (), [0x30, 2, 0, 0]) ∧
      benchDecode .v3 [0x30, 2, 0, 0] = .err (.malformed "empty topic name")) ∧
    ∃ frame, (Codec.V3.Codec.new 0).encode (.publish (Codec.zeros (2 ^ 22))) [] = (.ok (), frame) ∧
      benchDecode .v3 frame = .err (.packetTooLarge 4194307 4194304) := by
  refine ⟨⟨by decide, by decide⟩, ⟨by decide, by decide⟩, ⟨by decide, by decide⟩,
    ⟨by decide, by decide⟩, ⟨by decide, by decide⟩, ?_⟩
  have fits : (Codec.V3.Packet.publish (Codec.zeros (2 ^ 22))).Fits := by
    have short : ByteString.len "t" ≤ 65535 := by decide
    exact ⟨short, by decide⟩
  have size := Codec.V3.Packet.length_content fits
  rw [Codec.size_zeros] at size
  have announced : Codec.V3.getEncodedSize (.publish (Codec.zeros (2 ^ 22))) ≤
      Codec.MAX_PACKET_SIZE := by
    rw [Codec.size_zeros]
    decide
  have small : (Codec.V3.Packet.publish (Codec.zeros (2 ^ 22))).content.length ≤
      Codec.MAX_PACKET_SIZE := by
    rw [size]
    decide
  refine ⟨_, Codec.V3.Codec.writes (Codec.V3.Codec.new 0) fits announced [], ?_⟩
  have peek :=
    peekRemainingLength_varInt small (Codec.V3.Packet.publish (Codec.zeros (2 ^ 22))).content
  rw [size] at peek
  rw [List.nil_append, Codec.V3.Packet.frame, size, benchDecode,
    FrameCodec.decode_large peek (by decide)]
  rfl

end OxiMqtt.Bench

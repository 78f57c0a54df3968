import OxiMqtt.Lib.Errors
import OxiMqtt.Codec.Version
import OxiMqtt.Codec.V3.Encode
import OxiMqtt.Codec.V5.Codec

/-!
# Version detection and the CONNECT decoders

The three parsers of the head of a CONNECT are brought to the same form: the length of the protocol
name, the name, and the level.  Behind the level, neither decoder has an error about the protocol
(`NotProtocol`).

* `agrees_with_decoders_iff`: the detection agrees with the CONNECT decoders of both versions except
  on a frame that announces the name of MQTT 3.1 with the level of MQTT 5.
-/

namespace OxiMqtt.Codec

open Wire Wire.Reader

/-! ## Errors that are not about the protocol -/

/-- Neither `InvalidProtocol` nor `UnsupportedProtocolLevel`. -/
def NotProtocol (e : DecodeError) : Prop := e ≠ .invalidProtocol ∧ e ≠ .unsupportedProtocolLevel

/-- A type whose decoder has no error about the protocol. -/
class PlainErrors (α : Type) [Decode α] : Prop where
  errors : Errors (decode : Reader DecodeError α) NotProtocol

theorem notProtocol_invalidLength : NotProtocol .invalidLength := by simp [NotProtocol]

theorem notProtocol_malformedPacket : NotProtocol .malformedPacket := by simp [NotProtocol]

instance : PlainErrors Bool where
  errors := (Errors.ensureRemaining 1 notProtocol_invalidLength).bind fun _ =>
    Errors.getU8.bind fun _ => (Errors.ensure _ notProtocol_malformedPacket).bind fun _ =>
      Errors.pure _

instance : PlainErrors UInt16 where
  errors := (Errors.ensureRemaining 2 notProtocol_invalidLength).bind fun _ => Errors.getU16

instance : PlainErrors UInt32 where
  errors := (Errors.ensureRemaining 4 notProtocol_invalidLength).bind fun _ => Errors.getU32

instance : PlainErrors NonZeroU16 where
  errors := PlainErrors.errors.bind fun _ => Errors.okOr _ notProtocol_malformedPacket

instance : PlainErrors NonZeroU32 where
  errors := PlainErrors.errors.bind fun _ => Errors.okOr _ notProtocol_malformedPacket

instance : PlainErrors Bytes where
  errors := PlainErrors.errors.bind fun len =>
    (Errors.ensureRemaining len.toNat notProtocol_invalidLength).bind fun _ => Errors.splitTo _

instance : PlainErrors ByteString where
  errors := PlainErrors.errors.bind fun _ => Errors.okOr _ (by simp [NotProtocol])

instance : PlainErrors UserProperty where
  errors := PlainErrors.errors.bind fun _ => PlainErrors.errors.bind fun _ => Errors.pure _

theorem errors_readValue {α : Type} [Decode α] [PlainErrors α] (cur : Option α) :
    Errors (readValue cur) NotProtocol :=
  (Errors.ensure _ notProtocol_malformedPacket).bind fun _ => PlainErrors.errors.map

theorem errors_variableLengthLoop (shift len : Nat) :
    Errors (variableLengthLoop shift len) NotProtocol := by
  intro s
  induction s generalizing shift len with
  | nil =>
      intro e failed
      cases failed
      exact notProtocol_malformedPacket
  | cons val s ih =>
      intro e failed
      rw [variableLengthLoop] at failed
      split at failed
      · cases failed
      · split at failed
        · exact ih _ _ e failed
        · cases failed
          exact notProtocol_invalidLength

theorem errors_readProperties {σ : Type} {read : σ → UInt8 → Reader DecodeError σ}
    (h : ∀ acc tag, Errors (read acc tag) NotProtocol) (init : σ) :
    Errors (readProperties read init) NotProtocol := by
  have taken : Errors takeProperties NotProtocol := (errors_variableLengthLoop 0 0).bind fun n =>
    (Errors.ensureRemaining n notProtocol_invalidLength).bind fun _ => Errors.splitTo n
  exact taken.bind fun bs => Errors.within bs
    (Errors.whileRemaining (fun acc => Errors.getU8.bind (h acc)) init)

theorem errors_tryFrom {α : Type} [PrimEnum α] (v : UInt8) :
    Errors (fromOutcome (PrimEnum.tryFrom v) : Reader DecodeError α) NotProtocol := by
  refine Errors.fromOutcome fun e failed => ?_
  unfold PrimEnum.tryFrom at failed
  split at failed
  · cases failed
  · cases failed
    exact notProtocol_malformedPacket

/-! ## Behind the level -/

namespace V3

theorem errors_decodeLastWill (flags : UInt8) : Errors (decodeLastWill flags) NotProtocol :=
  PlainErrors.errors.bind fun _ => PlainErrors.errors.bind fun _ =>
    (errors_tryFrom _).bind fun _ => Errors.pure _

/-- What `decode_connect_packet` reads behind the level. -/
def connectBody (level : UInt8) : Reader DecodeError Packet := do
  let flags ← okOr (fromBits ConnectFlags.ALL (← getU8)) .connectReservedFlagSet
  let keepAlive : UInt16 ← decode
  let clientId : ByteString ← decode
  ensure (!ByteString.isEmpty clientId || contains flags ConnectFlags.CLEAN_START) .invalidClientId
  let lastWill ← readIf (contains flags ConnectFlags.WILL) (decodeLastWill flags)
  let username ← readIf (contains flags ConnectFlags.USERNAME) (decode : Reader _ ByteString)
  let password ← readIf (contains flags ConnectFlags.PASSWORD) (decode : Reader _ Bytes)
  return .connect {
    protocol := level
    cleanSession := contains flags ConnectFlags.CLEAN_START
    keepAlive
    clientId
    lastWill
    username
    password
    cert := none }

theorem errors_connectBody (level : UInt8) : Errors (connectBody level) NotProtocol := by
  refine Errors.getU8.bind fun _ => (Errors.okOr _ (by simp [NotProtocol])).bind fun flags =>
    PlainErrors.errors.bind fun _ => PlainErrors.errors.bind fun _ =>
    (Errors.ensure _ (by simp [NotProtocol])).bind fun _ =>
    (Errors.readIf _ (errors_decodeLastWill flags)).bind fun _ =>
    (Errors.readIf _ PlainErrors.errors).bind fun _ =>
    (Errors.readIf _ PlainErrors.errors).bind fun _ => Errors.pure _

end V3

namespace V5

theorem LastWill.errors_read (acc : LastWill.Props) (tag : UInt8) :
    Errors (acc.read tag) NotProtocol := by
  unfold LastWill.Props.read
  split
  all_goals first
    | exact (errors_readValue _).bind fun _ => Errors.pure _
    | exact PlainErrors.errors.bind fun _ => Errors.pure _
    | exact Errors.fail notProtocol_malformedPacket

theorem Connect.errors_read (acc : Connect.Props) (tag : UInt8) :
    Errors (acc.read tag) NotProtocol := by
  unfold Connect.Props.read
  split
  all_goals first
    | exact (errors_readValue _).bind fun _ => Errors.pure _
    | exact PlainErrors.errors.bind fun _ => Errors.pure _
    | exact Errors.fail notProtocol_malformedPacket

theorem LastWill.errors_decode (flags : UInt8) : Errors (LastWill.decode flags) NotProtocol :=
  (errors_readProperties LastWill.errors_read {}).bind fun _ => PlainErrors.errors.bind fun _ =>
    PlainErrors.errors.bind fun _ => (errors_tryFrom _).bind fun _ => Errors.pure _

/-- What `Connect::decode` reads behind the level. -/
def Connect.body : Reader DecodeError Connect := do
  let flags ← okOr (fromBits ConnectFlags.ALL (← getU8)) .connectReservedFlagSet
  let keepAlive ← getU16
  let props ← readProperties Connect.Props.read {}
  let clientId : ByteString ← Decode.decode
  ensure (!ByteString.isEmpty clientId || contains flags ConnectFlags.CLEAN_START) .invalidClientId
  let lastWill ← readIf (contains flags ConnectFlags.WILL) (LastWill.decode flags)
  let username ← readIf (contains flags ConnectFlags.USERNAME) (Decode.decode : Reader _ ByteString)
  let password ← readIf (contains flags ConnectFlags.PASSWORD) (Decode.decode : Reader _ Bytes)
  return {
    cleanStart := contains flags ConnectFlags.CLEAN_START
    keepAlive
    sessionExpiryIntervalSecs := props.sessionExpiryIntervalSecs.getD 0
    authMethod := props.authMethod
    authData := props.authData
    requestProblemInfo := props.requestProblemInfo.getD true
    requestResponseInfo := props.requestResponseInfo.getD false
    receiveMax := props.receiveMax
    topicAliasMax := props.topicAliasMax.getD 0
    userProperties := props.userProperties
    maxPacketSize := props.maxPacketSize
    lastWill
    clientId
    username
    password
    cert := none }

theorem Connect.errors_body : Errors Connect.body NotProtocol := by
  refine Errors.getU8.bind fun _ => (Errors.okOr _ (by simp [NotProtocol])).bind fun flags =>
    Errors.getU16.bind fun _ => (errors_readProperties Connect.errors_read {}).bind fun _ =>
    PlainErrors.errors.bind fun _ => (Errors.ensure _ (by simp [NotProtocol])).bind fun _ =>
    (Errors.readIf _ (LastWill.errors_decode flags)).bind fun _ =>
    (Errors.readIf _ PlainErrors.errors).bind fun _ =>
    (Errors.readIf _ PlainErrors.errors).bind fun _ => Errors.pure _

end V5

/-! ## The head of a CONNECT -/

/-- The bytes of a name that is compared where there are enough of them. -/
theorem protocolIs_eq {len : UInt16} {n : Nat} {name s : Bytes} (long : n ≤ s.length) :
    protocolIs len n name s = .ok (decide (len.toNat = n ∧ s.take n = name), s) := by
  unfold protocolIs
  by_cases announced : len.toNat = n
  · have looked : Reader.peek n s = (.ok (s.take n, s) : Outcome DecodeError (Bytes × Bytes)) :=
      if_pos long
    rw [if_pos announced]
    refine (Reader.bind_of_ok looked).trans ?_
    change Outcome.ok (s.take n == name, s) = _
    simp [announced, beq_eq_decide]
  · rw [if_neg announced]
    change Outcome.ok (_, s) = _
    simp [announced]

theorem getU8_drop {s : Bytes} {k : Nat} (h : k < s.length) :
    (getU8 : Reader DecodeError UInt8) (s.drop k) = .ok (s.getD k 0, s.drop (k + 1)) := by
  rw [List.drop_eq_getElem_cons h, List.getD_eq_getElem?_getD, List.getElem?_eq_getElem h]
  rfl

/-- The length of the protocol name. -/
theorem getU16_cons (b₁ b₀ : UInt8) (s : Bytes) :
    ∃ len : UInt16, (getU16 : Reader DecodeError UInt16) (b₁ :: b₀ :: s) = .ok (len, s) ∧
      len.toNat = b₁.toNat * 256 + b₀.toNat := by
  have h₁ := b₁.toNat_lt
  have h₀ := b₀.toNat_lt
  refine ⟨_, rfl, ?_⟩
  rw [UInt16.toNat_ofNat', Nat.mod_eq_of_lt (by omega)]

section Head

variable {b₁ b₀ : UInt8} {s : Bytes} (long : 8 ≤ s.length)

include long

variable (b₁ b₀) in
theorem V3.decodeConnectPacket_eq :
    V3.decodeConnectPacket (b₁ :: b₀ :: s) =
      if b₁.toNat * 256 + b₀.toNat = 4 ∧ s.take 4 = MQTT then
        (ensure (s.getD 4 0 == MQTT_LEVEL_311 || s.getD 4 0 == MQTT_LEVEL_31)
          .unsupportedProtocolLevel >>= fun _ => V3.connectBody (s.getD 4 0)) (s.drop 5)
      else if b₁.toNat * 256 + b₀.toNat = 6 ∧ s.take 6 = MQISDP then
        (ensure (s.getD 6 0 == MQTT_LEVEL_311 || s.getD 6 0 == MQTT_LEVEL_31)
          .unsupportedProtocolLevel >>= fun _ => V3.connectBody (s.getD 6 0)) (s.drop 7)
      else .err .invalidProtocol := by
  have remaining : ensureRemaining 10 DecodeError.invalidLength (b₁ :: b₀ :: s) =
      .ok ((), b₁ :: b₀ :: s) := if_pos (by simp; omega)
  have skip : ∀ k, k ≤ s.length → (Reader.advance k : Reader DecodeError Unit) s =
      .ok ((), s.drop k) := fun k hk => if_pos hk
  rcases getU16_cons b₁ b₀ s with ⟨len, read, value⟩
  refine (Reader.bind_of_ok remaining).trans ((Reader.bind_of_ok read).trans ?_)
  rw [← value]
  by_cases four : len.toNat = 4 ∧ s.take 4 = MQTT
  · have name : V3.readProtocolName len s = .ok ((), s.drop 4) := by
      refine (Reader.bind_of_ok (protocolIs_eq (by omega))).trans ?_
      rw [decide_eq_true four, if_pos rfl]
      exact skip 4 (by omega)
    rw [if_pos four]
    exact (Reader.bind_of_ok name).trans (Reader.bind_of_ok (getU8_drop (by omega)))
  · rw [if_neg four]
    by_cases six : len.toNat = 6 ∧ s.take 6 = MQISDP
    · have name : V3.readProtocolName len s = .ok ((), s.drop 6) := by
        refine (Reader.bind_of_ok (protocolIs_eq (by omega))).trans ?_
        rw [decide_eq_false four, if_neg Bool.false_ne_true]
        refine (Reader.bind_of_ok (protocolIs_eq (by omega))).trans ?_
        rw [decide_eq_true six, if_pos rfl]
        exact skip 6 (by omega)
      rw [if_pos six]
      exact (Reader.bind_of_ok name).trans (Reader.bind_of_ok (getU8_drop (by omega)))
    · have name : V3.readProtocolName len s = .err .invalidProtocol := by
        refine (Reader.bind_of_ok (protocolIs_eq (by omega))).trans ?_
        rw [decide_eq_false four, if_neg Bool.false_ne_true]
        refine (Reader.bind_of_ok (protocolIs_eq (by omega))).trans ?_
        rw [decide_eq_false six, if_neg Bool.false_ne_true]
        rfl
      rw [if_neg six, bind_apply, name]
      rfl

variable (b₁ b₀) in
theorem V5.Connect.decode_eq :
    V5.Connect.decode (b₁ :: b₀ :: s) =
      if b₁.toNat * 256 + b₀.toNat = 4 ∧ s.take 4 = MQTT then
        (ensure (s.getD 4 0 == MQTT_LEVEL_5) .unsupportedProtocolLevel >>= fun _ =>
          V5.Connect.body) (s.drop 5)
      else .err .invalidProtocol := by
  have remaining : ensureRemaining 10 DecodeError.invalidLength (b₁ :: b₀ :: s) =
      .ok ((), b₁ :: b₀ :: s) := if_pos (by simp; omega)
  have skip : (Reader.advance 4 : Reader DecodeError Unit) s = .ok ((), s.drop 4) :=
    if_pos (by omega)
  rcases getU16_cons b₁ b₀ s with ⟨len, read, value⟩
  refine (Reader.bind_of_ok remaining).trans ((Reader.bind_of_ok read).trans ?_)
  rw [← value]
  refine (Reader.bind_of_ok (protocolIs_eq (by omega))).trans ?_
  by_cases four : len.toNat = 4 ∧ s.take 4 = MQTT
  · have level := getU8_drop (show 4 < s.length by omega)
    rw [if_pos four, decide_eq_true four]
    exact (Reader.bind_of_ok skip).trans (Reader.bind_of_ok level)
  · rw [if_neg four, decide_eq_false four]
    rfl

end Head

/-! ## Frames -/

/-- The complete frame at the head of a buffer: its first byte and its content. -/
def frameOf : Bytes → Option (UInt8 × Bytes)
  | firstByte :: b :: rest =>
      match decodeVariableLength (b :: rest) with
      | .ok (some (remainingLength, consumed)) =>
          let src := (b :: rest).drop consumed
          if src.length < remainingLength then none else some (firstByte, src.take remainingLength)
      | _ => none
  | _ => none

theorem frameOf_eq_some {src content : Bytes} {firstByte : UInt8}
    (h : frameOf src = some (firstByte, content)) :
    ∃ pre extra, src = pre ++ (content ++ extra) ∧
      VersionCodec.decode src =
        if firstByte = packetType.CONNECT then VersionCodec.connectVersion src pre.length
        else .err .unsupportedPacketType := by
  match src with
  | [] | [_] => cases h
  | first :: b :: rest =>
      rcases header : decodeVariableLength (b :: rest) with ⟨_ | ⟨n, consumed⟩⟩ | e | x
      · simp [frameOf, header] at h
      · have law := decodeVariableLength_append (b :: rest) []
        rw [header] at law
        have bound : consumed ≤ (b :: rest).length := law.1
        have size : ((first :: b :: rest).take (consumed + 1)).length = consumed + 1 := by
          rw [List.length_take, List.length_cons]
          omega
        simp only [frameOf, header] at h
        split at h
        · cases h
        · cases h
          refine ⟨(firstByte :: b :: rest).take (consumed + 1), ((b :: rest).drop consumed).drop n,
            ?_, ?_⟩
          · rw [List.take_append_drop]
            exact (List.take_append_drop (consumed + 1) (firstByte :: b :: rest)).symm
          · rw [size]
            exact VersionCodec.decode_of_header header
      · simp [frameOf, header] at h
      · simp [frameOf, header] at h

namespace VersionCodec

theorem namedVersion_ne_none {protocolLen : Nat} {s : Bytes} (long : 7 ≤ s.length) :
    namedVersion protocolLen s ≠ .ok none := by
  have level := levelVersion_ne_none
  unfold namedVersion
  split_ifs
  · simp
  · exact level _
  · omega
  · simp
  · exact level _
  · simp

/-- On a complete CONNECT that is not too short, the detection looks at the content only. -/
theorem decode_of_frame {src s : Bytes} {b₁ b₀ : UInt8}
    (h : frameOf src = some (packetType.CONNECT, b₁ :: b₀ :: s)) (long : 8 ≤ s.length) :
    decode src = namedVersion (b₁.toNat * 256 + b₀.toNat) s := by
  rcases frameOf_eq_some h with ⟨pre, extra, rfl, run⟩
  have found : namedVersion (b₁.toNat * 256 + b₀.toNat) s ≠ .ok none :=
    namedVersion_ne_none (by omega)
  rw [run, if_pos rfl, List.cons_append, List.cons_append,
    connectVersion_eq pre b₁ b₀ (by rw [List.length_append]; omega),
    namedVersion_append (by omega) found]

/-! ## Agreement -/

/-- What the detection finds in a buffer is final, and agrees with the CONNECT decoders: the decoder
of a version that it has found has no objection to the protocol, and a complete CONNECT that it
refuses is refused by both decoders. -/
structure AgreesOn (src : Bytes) : Prop where
  stable : decode src ≠ .ok none → ∀ more, decode (src ++ more) = decode src
  v3 : ∀ firstByte content, frameOf src = some (firstByte, content) →
    decode src = .ok (some .MQTT3) →
    ∀ e, V3.decodeConnectPacket content = .err e → NotProtocol e
  v5 : ∀ firstByte content, frameOf src = some (firstByte, content) →
    decode src = .ok (some .MQTT5) →
    ∀ e, V5.Connect.decode content = .err e → NotProtocol e
  rejects : ∀ content, frameOf src = some (packetType.CONNECT, content) →
    ∀ e, decode src = .err e →
    (∃ e', V3.decodeConnectPacket content = .err e') ∧ ∃ e', V5.Connect.decode content = .err e'

/-- A complete CONNECT, long enough to be decoded, announces the name of MQTT 3.1 with the level of
MQTT 5. -/
def AnnouncesMqisdp5 (src : Bytes) : Prop :=
  ∃ content, frameOf src = some (packetType.CONNECT, content) ∧ 10 ≤ content.length ∧
    [0, 6] ++ MQISDP ++ [MQTT_LEVEL_5] <+: content

theorem prefix_iff {b₁ b₀ : UInt8} {s : Bytes} (long : 8 ≤ s.length) :
    [0, 6] ++ MQISDP ++ [MQTT_LEVEL_5] <+: b₁ :: b₀ :: s ↔
      (b₁.toNat * 256 + b₀.toNat = 6 ∧ s.take 6 = MQISDP) ∧ s.getD 6 0 = MQTT_LEVEL_5 := by
  have number : b₁.toNat * 256 + b₀.toNat = 6 ↔ 0 = b₁ ∧ 6 = b₀ := by
    constructor
    · intro h
      exact ⟨UInt8.toNat_inj.mp (show (0 : UInt8).toNat = _ by simp; omega),
        UInt8.toNat_inj.mp (show (6 : UInt8).toNat = _ by simp; omega)⟩
    · intro h
      rcases h with ⟨rfl, rfl⟩
      rfl
  rw [number]
  match s, long with
  | x₀ :: x₁ :: x₂ :: x₃ :: x₄ :: x₅ :: x₆ :: rest, _ =>
      simp [MQISDP, List.cons_prefix_cons, and_assoc, eq_comm]

theorem levelVersion_cases (level : UInt8) :
    ((level == MQTT_LEVEL_311 || level == MQTT_LEVEL_31) = true ∧ level ≠ MQTT_LEVEL_5 ∧
        levelVersion level = .ok (some .MQTT3)) ∨
      (level = MQTT_LEVEL_5 ∧ levelVersion level = .ok (some .MQTT5)) ∨
      ((level == MQTT_LEVEL_311 || level == MQTT_LEVEL_31) = false ∧ level ≠ MQTT_LEVEL_5 ∧
        levelVersion level = .err .invalidProtocol) := by
  unfold levelVersion
  by_cases three : level = MQTT_LEVEL_31
  · subst three
    exact .inl ⟨rfl, by decide, rfl⟩
  · by_cases four : level = MQTT_LEVEL_311
    · subst four
      exact .inl ⟨rfl, by decide, rfl⟩
    · rw [if_neg (not_or.mpr ⟨three, four⟩)]
      by_cases five : level = MQTT_LEVEL_5
      · rw [if_pos five]
        exact .inr (.inl ⟨five, rfl⟩)
      · rw [if_neg five]
        exact .inr (.inr ⟨by simp [three, four], five, rfl⟩)

section Buffer

variable {src content : Bytes} (h : frameOf src = some (packetType.CONNECT, content))

include h

/-- On a complete CONNECT with content `content` it is enough to look at that. -/
theorem agreesOn_of_content
    (v3 : decode src = .ok (some .MQTT3) →
      ∀ e, V3.decodeConnectPacket content = .err e → NotProtocol e)
    (v5 : decode src = .ok (some .MQTT5) →
      ∀ e, V5.Connect.decode content = .err e → NotProtocol e)
    (rejects : ∀ e, decode src = .err e → (∃ e', V3.decodeConnectPacket content = .err e') ∧
      ∃ e', V5.Connect.decode content = .err e') : AgreesOn src := by
  refine ⟨decode_append, fun firstByte c hc => ?_, fun firstByte c hc => ?_, fun c hc => ?_⟩
  · cases h.symm.trans hc
    exact v3
  · cases h.symm.trans hc
    exact v5
  · cases h.symm.trans hc
    exact rejects

/-- A content that is too short is an error of both decoders, but not about the protocol. -/
theorem agreesOn_of_short (short : content.length < 10) : AgreesOn src := by
  have first : V3.decodeConnectPacket content = .err .invalidLength := by
    rw [V3.decodeConnectPacket, bind_apply, Reader.ensureRemaining, if_neg (by omega)]
    rfl
  have second : V5.Connect.decode content = .err .invalidLength := by
    rw [V5.Connect.decode, bind_apply, Reader.ensureRemaining, if_neg (by omega)]
    rfl
  refine agreesOn_of_content h (fun _ e failed => ?_) (fun _ e failed => ?_) fun _ _ => ?_
  · cases first.symm.trans failed
    exact notProtocol_invalidLength
  · cases second.symm.trans failed
    exact notProtocol_invalidLength
  · exact ⟨⟨_, first⟩, _, second⟩

end Buffer

section Named

variable {src s : Bytes} {b₁ b₀ : UInt8}
  (h : frameOf src = some (packetType.CONNECT, b₁ :: b₀ :: s)) (long : 8 ≤ s.length)

include h long

/-- With the name of MQTT 3.1.1 and MQTT 5, all three parsers look at the level. -/
theorem agreesOn_of_mqtt (four : b₁.toNat * 256 + b₀.toNat = 4 ∧ s.take 4 = MQTT) :
    AgreesOn src := by
  have run : decode src = levelVersion (s.getD 4 0) := by
    rw [decode_of_frame h long, namedVersion, if_pos four.1, if_neg (not_not_intro four.2)]
  have first := V3.decodeConnectPacket_eq b₁ b₀ long
  have second := V5.Connect.decode_eq b₁ b₀ long
  rw [if_pos four] at first second
  refine agreesOn_of_content h ?_ ?_ ?_
  · intro found e failed
    rcases levelVersion_cases (s.getD 4 0) with ⟨low, -, -⟩ | ⟨-, five⟩ | ⟨-, -, none⟩
    · rw [first, low] at failed
      exact V3.errors_connectBody _ _ e failed
    · cases five.symm.trans (run.symm.trans found)
    · cases none.symm.trans (run.symm.trans found)
  · intro found e failed
    rcases levelVersion_cases (s.getD 4 0) with ⟨-, -, low⟩ | ⟨five, -⟩ | ⟨-, -, none⟩
    · cases low.symm.trans (run.symm.trans found)
    · rw [second, five] at failed
      exact V5.Connect.errors_body _ e failed
    · cases none.symm.trans (run.symm.trans found)
  · intro e refused
    rcases levelVersion_cases (s.getD 4 0) with ⟨-, -, low⟩ | ⟨-, five⟩ | ⟨other, notFive, -⟩
    · cases low.symm.trans (run.symm.trans refused)
    · cases five.symm.trans (run.symm.trans refused)
    · refine ⟨⟨.unsupportedProtocolLevel, ?_⟩, .unsupportedProtocolLevel, ?_⟩
      · rw [first, other]
        rfl
      · rw [second, beq_eq_false_iff_ne.mpr notFive]
        rfl

/-- With the name of MQTT 3.1, the detection takes any level that it knows, and the decoder of MQTT 5
none. -/
theorem agreesOn_mqisdp_iff (six : b₁.toNat * 256 + b₀.toNat = 6 ∧ s.take 6 = MQISDP) :
    AgreesOn src ↔ s.getD 6 0 ≠ MQTT_LEVEL_5 := by
  have notFour : ¬(b₁.toNat * 256 + b₀.toNat = 4 ∧ s.take 4 = MQTT) := by
    rw [six.1]
    simp
  have run : decode src = levelVersion (s.getD 6 0) := by
    rw [decode_of_frame h long, namedVersion, six.1, if_neg (by decide), if_pos rfl,
      if_neg (by omega), if_neg (not_not_intro six.2)]
  have first := V3.decodeConnectPacket_eq b₁ b₀ long
  have second := V5.Connect.decode_eq b₁ b₀ long
  rw [if_neg notFour, if_pos six] at first
  rw [if_neg notFour] at second
  rcases levelVersion_cases (s.getD 6 0) with ⟨low, notFive, three⟩ | ⟨five, found⟩ |
    ⟨other, notFive, none⟩
  · refine iff_of_true (agreesOn_of_content h ?_ ?_ ?_) notFive
    · intro _ e failed
      rw [first, low] at failed
      exact V3.errors_connectBody _ _ e failed
    · intro found
      cases three.symm.trans (run.symm.trans found)
    · intro e refused
      cases three.symm.trans (run.symm.trans refused)
  · refine iff_of_false (fun agrees => ?_) (not_not_intro five)
    exact (agrees.v5 _ _ h (run.trans found) _ second).1 rfl
  · refine iff_of_true (agreesOn_of_content h ?_ ?_ ?_) notFive
    · intro found
      cases none.symm.trans (run.symm.trans found)
    · intro found
      cases none.symm.trans (run.symm.trans found)
    · intro _ _
      refine ⟨⟨.unsupportedProtocolLevel, ?_⟩, _, second⟩
      rw [first, other]
      rfl

/-- Any other name is refused by all three. -/
theorem agreesOn_of_other (notFour : ¬(b₁.toNat * 256 + b₀.toNat = 4 ∧ s.take 4 = MQTT))
    (notSix : ¬(b₁.toNat * 256 + b₀.toNat = 6 ∧ s.take 6 = MQISDP)) : AgreesOn src := by
  have run : decode src = .err .invalidProtocol := by
    rw [decode_of_frame h long, namedVersion]
    split_ifs with four name six short name
    · rfl
    · exact absurd ⟨four, Classical.not_not.mp name⟩ notFour
    · omega
    · rfl
    · exact absurd ⟨six, Classical.not_not.mp name⟩ notSix
    · rfl
  have first := V3.decodeConnectPacket_eq b₁ b₀ long
  have second := V5.Connect.decode_eq b₁ b₀ long
  rw [if_neg notFour, if_neg notSix] at first
  rw [if_neg notFour] at second
  refine agreesOn_of_content h ?_ ?_ fun _ _ => ⟨⟨_, first⟩, _, second⟩
  · intro found
    cases run.symm.trans found
  · intro found
    cases run.symm.trans found

end Named

/-- The detection is final and agrees with the CONNECT decoders on every buffer, but for those that
start with a complete CONNECT with the name of MQTT 3.1 and the level of MQTT 5. -/
theorem agrees_with_decoders_iff (src : Bytes) : AgreesOn src ↔ ¬AnnouncesMqisdp5 src := by
  cases h : frameOf src with
  | none =>
      refine iff_of_true ⟨decode_append, ?_, ?_, ?_⟩ ?_
      · intro firstByte content hc
        cases h.symm.trans hc
      · intro firstByte content hc
        cases h.symm.trans hc
      · intro content hc
        cases h.symm.trans hc
      · intro announces
        rcases announces with ⟨content, hc, -⟩
        cases h.symm.trans hc
  | some frame =>
      rcases frame with ⟨firstByte, content⟩
      by_cases connect : firstByte = packetType.CONNECT
      · subst connect
        by_cases short : content.length < 10
        · refine iff_of_true (agreesOn_of_short h short) fun announces => ?_
          rcases announces with ⟨c, hc, long, -⟩
          cases h.symm.trans hc
          omega
        · match content, h, short with
          | [], _, short | [_], _, short => exact absurd (by simp) short
          | b₁ :: b₀ :: s, h, short =>
              have long : 8 ≤ s.length := by
                simp only [List.length_cons] at short
                omega
              have announces : AnnouncesMqisdp5 src ↔
                  (b₁.toNat * 256 + b₀.toNat = 6 ∧ s.take 6 = MQISDP) ∧
                    s.getD 6 0 = MQTT_LEVEL_5 := by
                rw [← prefix_iff long]
                constructor
                · intro some
                  rcases some with ⟨c, hc, -, starts⟩
                  cases h.symm.trans hc
                  exact starts
                · intro starts
                  exact ⟨_, h, Nat.le_of_not_lt short, starts⟩
              rw [announces]
              by_cases six : b₁.toNat * 256 + b₀.toNat = 6 ∧ s.take 6 = MQISDP
              · rw [agreesOn_mqisdp_iff h long six, not_and]
                exact ⟨fun level _ => level, fun level => level six⟩
              · refine iff_of_true ?_ fun both => six both.1
                by_cases four : b₁.toNat * 256 + b₀.toNat = 4 ∧ s.take 4 = MQTT
                · exact agreesOn_of_mqtt h long four
                · exact agreesOn_of_other h long four six
      · have run : decode src = .err .unsupportedPacketType := by
          rcases frameOf_eq_some h with ⟨pre, extra, -, run⟩
          rw [run, if_neg connect]
        refine iff_of_true ⟨decode_append, ?_, ?_, ?_⟩ ?_
        · intro _ _ _ found
          cases run.symm.trans found
        · intro _ _ _ found
          cases run.symm.trans found
        · intro c hc
          cases h.symm.trans hc
          exact absurd rfl connect
        · intro announces
          rcases announces with ⟨c, hc, -⟩
          cases h.symm.trans hc
          exact connect rfl

/-- A CONNECT with the name `MQIsdp` and the level 5 is taken for MQTT 5, whose decoder then finds
the protocol invalid. -/
theorem mqisdp5_disagrees :
    decode [0x10, 10, 0, 6, 77, 81, 73, 115, 100, 112, 5, 2] = .ok (some .MQTT5) ∧
      frameOf [0x10, 10, 0, 6, 77, 81, 73, 115, 100, 112, 5, 2] =
        some (0x10, [0, 6, 77, 81, 73, 115, 100, 112, 5, 2]) ∧
      V5.Connect.decode [0, 6, 77, 81, 73, 115, 100, 112, 5, 2] = .err .invalidProtocol := by
  refine ⟨by decide, by decide, ?_⟩
  rw [V5.Connect.decode_eq _ _ (by decide), if_neg (by decide)]

end VersionCodec

end OxiMqtt.Codec

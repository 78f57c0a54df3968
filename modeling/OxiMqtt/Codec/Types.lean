import OxiMqtt.Lib.Writer

/-!
# Codec data types

The types of `codec/types.rs`, `codec/error.rs` and `codec/cert.rs` that both
protocol versions share, and the macro `prim_enum!` of `codec/utils.rs`.

Text on the wire is UTF-8: a `ByteString` is a `String`, `ByteString.asBytes` its
bytes and `ByteString.tryFrom` the checked conversion back.
-/

namespace OxiMqtt.Codec

open Wire

/-- `DecodeError` -/
inductive DecodeError : Type
  | invalidProtocol
  | invalidLength
  | malformedPacket
  | unsupportedProtocolLevel
  | connectReservedFlagSet
  | connAckReservedFlagSet
  | invalidClientId
  | unsupportedPacketType
  | packetIdRequired
  | maxSizeExceeded (size max : Nat)
  | utf8Error
  | io (msg : String)
  deriving DecidableEq, Repr

/-- `EncodeError` -/
inductive EncodeError : Type
  | overMaxPacketSize (size max : Nat)
  | invalidLength
  | malformedPacket
  | packetIdRequired
  | unsupportedVersion
  | io (msg : String)
  deriving DecidableEq, Repr

/-! ## Text and words -/

abbrev ByteString : Type := String

namespace ByteString

/-- `ByteString::as_bytes` -/
def asBytes (s : ByteString) : Bytes := s.toUTF8.data.toList

/-- `ByteString::try_from(Bytes)`; `none` is its error. -/
def tryFrom (bs : Bytes) : Option ByteString := String.fromUTF8? ⟨bs.toArray⟩

/-- `ByteString::len` -/
def len (s : ByteString) : Nat := (asBytes s).length

/-- `ByteString::is_empty` -/
def isEmpty (s : ByteString) : Bool := (asBytes s).isEmpty

theorem tryFrom_asBytes (s : ByteString) : tryFrom (asBytes s) = some s := by
  unfold tryFrom asBytes
  rw [Array.toArray_toList]
  change String.fromUTF8? s.toUTF8 = some s
  rw [String.fromUTF8?, dif_pos (show s.toUTF8.IsValidUTF8 from s.isValidUTF8)]
  rfl

end ByteString

/-- `NonZeroU16` -/
abbrev NonZeroU16 : Type := { n : UInt16 // n ≠ 0 }

/-- `NonZeroU32` -/
abbrev NonZeroU32 : Type := { n : UInt32 // n ≠ 0 }

/-- `NonZeroU16::new` -/
def NonZeroU16.new (n : UInt16) : Option NonZeroU16 := if h : n ≠ 0 then some ⟨n, h⟩ else none

/-- `NonZeroU32::new` -/
def NonZeroU32.new (n : UInt32) : Option NonZeroU32 := if h : n ≠ 0 then some ⟨n, h⟩ else none

theorem NonZeroU16.new_val (n : NonZeroU16) : NonZeroU16.new n.val = some n := dif_pos n.property

theorem NonZeroU32.new_val (n : NonZeroU32) : NonZeroU32.new n.val = some n := dif_pos n.property

/-! ## Enumerations with a wire byte -/

/-- What `prim_enum!` generates: the variants with their bytes, and the byte of
every variant, which the table leads back to the variant. -/
class PrimEnum (α : Type) where
  table : List (UInt8 × α)
  toU8 : α → UInt8
  lookup_toU8 : ∀ a, table.lookup (toU8 a) = some a

export PrimEnum (toU8)

/-- `TryFrom<u8>` of a primitive enumeration. -/
def PrimEnum.tryFrom {α : Type} [PrimEnum α] (v : UInt8) : Outcome DecodeError α :=
  match (PrimEnum.table : List (UInt8 × α)).lookup v with
  | some a => .ok a
  | none => .err .malformedPacket

theorem PrimEnum.tryFrom_toU8 {α : Type} [PrimEnum α] (a : α) :
    PrimEnum.tryFrom (toU8 a) = (.ok a : Outcome DecodeError α) := by
  rw [PrimEnum.tryFrom, PrimEnum.lookup_toU8]

theorem PrimEnum.tryFrom_ne_fault {α : Type} [PrimEnum α] (v : UInt8) (x : Fault) :
    (PrimEnum.tryFrom v : Outcome DecodeError α) ≠ .fault x := by
  unfold PrimEnum.tryFrom
  split <;> simp

/-- `QoS` -/
inductive QoS : Type
  | atMostOnce
  | atLeastOnce
  | exactlyOnce
  deriving DecidableEq, Repr

namespace QoS

/-- `QoS::value` -/
def value : QoS → UInt8
  | atMostOnce => 0
  | atLeastOnce => 1
  | exactlyOnce => 2

/-- `QoS::less_value` -/
def lessValue (q q' : QoS) : QoS := if q.value < q'.value then q else q'

instance : PrimEnum QoS where
  table := [(0, atMostOnce), (1, atLeastOnce), (2, exactlyOnce)]
  toU8 := value
  lookup_toU8 := by intro q; cases q <;> rfl

end QoS

/-! ## Flag bytes -/

/-- `u8::from(bool)` -/
def boolU8 (b : Bool) : UInt8 := if b then 1 else 0

/-- `bitflags`: `flags.contains(mask)` -/
def contains (bits mask : UInt8) : Bool := bits &&& mask == mask

/-- `bitflags`: `from_bits`, with the mask of all known bits. -/
def fromBits (known bits : UInt8) : Option UInt8 :=
  if bits &&& ~~~known = 0 then some bits else none

def WILL_QOS_SHIFT : UInt8 := 3

namespace ConnectFlags

def USERNAME : UInt8 := 0x80
def PASSWORD : UInt8 := 0x40
def WILL_RETAIN : UInt8 := 0x20
def WILL_QOS : UInt8 := 0x18
def WILL : UInt8 := 0x04
def CLEAN_START : UInt8 := 0x02
def ALL : UInt8 := 0xFE

/-- The flag byte both encoders build: which optional parts are present, the
retain bit and the QoS of the will, and the clean start bit. -/
def build (username password : Bool) (will : Option (Bool × QoS)) (cleanStart : Bool) : UInt8 :=
  let flags : UInt8 := 0
  let flags := if username then flags ||| USERNAME else flags
  let flags := if password then flags ||| PASSWORD else flags
  let flags :=
    match will with
    | some (retain, qos) =>
        let flags := flags ||| WILL
        let flags := if retain then flags ||| WILL_RETAIN else flags
        flags ||| ((toU8 qos <<< WILL_QOS_SHIFT) &&& ALL)
    | none => flags
  if cleanStart then flags ||| CLEAN_START else flags

/-- What the decoders read from a flag byte. -/
structure Announces (flags : UInt8) (username password : Bool) (will : Option (Bool × QoS))
    (cleanStart : Bool) : Prop where
  known : fromBits ALL flags = some flags
  hasUsername : contains flags USERNAME = username
  hasPassword : contains flags PASSWORD = password
  hasWill : contains flags WILL = will.isSome
  willRetain : ∀ w ∈ will, contains flags WILL_RETAIN = w.1
  willQos : ∀ w ∈ will,
    PrimEnum.tryFrom ((flags &&& WILL_QOS) >>> WILL_QOS_SHIFT) = (.ok w.2 : Outcome DecodeError QoS)
  isCleanStart : contains flags CLEAN_START = cleanStart

/-- The flag byte announces what it was built from. -/
theorem announces_build (username password : Bool) (will : Option (Bool × QoS)) (cleanStart : Bool) :
    Announces (build username password will cleanStart) username password will cleanStart := by
  cases will with
  | none =>
      refine ⟨?_, ?_, ?_, ?_, (fun _ hw => by cases hw), (fun _ hw => by cases hw), ?_⟩
      all_goals cases username <;> cases password <;> cases cleanStart <;> rfl
  | some w =>
      obtain ⟨retain, qos⟩ := w
      refine ⟨?_, ?_, ?_, ?_, fun _ hw => ?_, fun _ hw => ?_, ?_⟩
      case refine_5 | refine_6 =>
        cases hw
        cases username <;> cases password <;> cases retain <;> cases qos <;> cases cleanStart <;> rfl
      all_goals
        cases username <;> cases password <;> cases retain <;> cases qos <;> cases cleanStart <;> rfl

end ConnectFlags

namespace ConnectAckFlags

def SESSION_PRESENT : UInt8 := 0x01
def ALL : UInt8 := 0x01

end ConnectAckFlags

/-! ## Constants -/

/-- `MQTT`, the protocol name of 3.1.1 and 5.0. -/
def MQTT : Bytes := [0x4D, 0x51, 0x54, 0x54]

/-- `MQISDP`, the protocol name of 3.1. -/
def MQISDP : Bytes := [0x4D, 0x51, 0x49, 0x73, 0x64, 0x70]

def MQTT_LEVEL_31 : UInt8 := 3
def MQTT_LEVEL_311 : UInt8 := 4
def MQTT_LEVEL_5 : UInt8 := 5

/-- `MAX_PACKET_SIZE` -/
def MAX_PACKET_SIZE : Nat := 0xFFFFFFF

/-- `RECEIVE_MAX_DEFAULT` -/
def RECEIVE_MAX_DEFAULT : NonZeroU16 := ⟨65535, by decide⟩

/-! ## Packet types -/

namespace packetType

@[match_pattern] def CONNECT : UInt8 := 0x10
@[match_pattern] def CONNACK : UInt8 := 0x20
@[match_pattern] def PUBLISH_START : UInt8 := 0x30
@[match_pattern] def PUBLISH_END : UInt8 := 0x3F
@[match_pattern] def PUBACK : UInt8 := 0x40
@[match_pattern] def PUBREC : UInt8 := 0x50
@[match_pattern] def PUBREL : UInt8 := 0x62
@[match_pattern] def PUBCOMP : UInt8 := 0x70
@[match_pattern] def SUBSCRIBE : UInt8 := 0x82
@[match_pattern] def SUBACK : UInt8 := 0x90
@[match_pattern] def UNSUBSCRIBE : UInt8 := 0xA2
@[match_pattern] def UNSUBACK : UInt8 := 0xB0
@[match_pattern] def PINGREQ : UInt8 := 0xC0
@[match_pattern] def PINGRESP : UInt8 := 0xD0
@[match_pattern] def DISCONNECT : UInt8 := 0xE0
@[match_pattern] def AUTH : UInt8 := 0xF0

end packetType

/-! ## Records -/

/-- `FixedHeader` -/
structure FixedHeader : Type where
  firstByte : UInt8
  remainingLength : Nat
  deriving DecidableEq, Repr

/-- `CertInfo`; it is attached to a connect packet after decoding and is not
part of the wire format. -/
structure CertInfo : Type where
  commonName : Option String
  subject : String
  serial : Option String
  organization : Option String
  deriving DecidableEq, Repr

abbrev UserProperty : Type := ByteString × ByteString

abbrev UserProperties : Type := List UserProperty

/-- `PublishProperties` -/
structure PublishProperties : Type where
  topicAlias : Option NonZeroU16 := none
  correlationData : Option Bytes := none
  messageExpiryInterval : Option NonZeroU32 := none
  contentType : Option ByteString := none
  userProperties : UserProperties := []
  isUtf8Payload : Bool := false
  responseTopic : Option ByteString := none
  subscriptionIds : List NonZeroU32 := []
  deriving DecidableEq, Repr

/-- `PublishProperties::default()` -/
def PublishProperties.default : PublishProperties := {}

/-- `Publish`, shared by both protocol versions. -/
structure Publish : Type where
  dup : Bool
  retain : Bool
  qos : QoS
  topic : ByteString
  packetId : Option NonZeroU16
  payload : Bytes
  properties : Option PublishProperties
  deriving DecidableEq, Repr

end OxiMqtt.Codec

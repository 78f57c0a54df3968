import OxiMqtt.Bench.Encode
import OxiMqtt.Bench.Options

/-!
# The packets of a client

`oximqtt-bench/src/packets.rs`: the packets that a client makes from the options, and its view of
those that it reads.  What a client shares with the others, the statistics apart, is `Ctx`.
-/

namespace OxiMqtt.Bench

open Wire Wire.ByteWriter
open Codec (ByteString)

/-- `Ctx`, less the statistics and the flags. -/
structure Ctx : Type where
  args : Opts
  proto : Version
  peers : List String
  processId : Nat
  deriving DecidableEq, Repr

namespace Ctx

/-- `Ctx::payload` -/
def payload (ctx : Ctx) : PayloadBuilder := PayloadBuilder.new ctx.args

/-- `Ctx::qos` -/
def qos (ctx : Ctx) : QoS := QoS.fromU8 ctx.args.qos

/-- `Ctx::client_id` -/
def clientId (ctx : Ctx) (no : Nat) : String :=
  (expand ctx.processId ctx.args.idPattern no ("bench-" ++ toString no)
    (Rng.new (UInt64.ofNat no + 1))).1

/-- `Ctx::endpoints`, the address of the broker. -/
def endpoint (ctx : Ctx) (no : Nat) : String := ctx.peers.getD (no % ctx.peers.length) ""

end Ctx

/-- `remaining_length_len` -/
def remainingLengthLen (len : Nat) : Nat :=
  if len ≤ 127 then 1 else if len ≤ 16383 then 2 else if len ≤ 2097151 then 3 else 4

/-- `string_len` -/
def stringLen (s : String) : Nat := 2 + ByteString.len s

/-- `publish_wire_size` -/
def publishWireSize (version : Version) (topic : String) (payloadLen : Nat) (qos : UInt8) : Nat :=
  let body := stringLen topic + (if qos > 0 then 2 else 0) + payloadLen
  let props := if version = .v5 then 1 else 0
  1 + remainingLengthLen (body + props) + body + props

namespace Packets

/-- `will` -/
def will (args : Opts) : Option Will :=
  args.lwTopic.map fun topic =>
    { topic
      payload := ByteString.asBytes (args.lwMsg.getD "")
      qos := QoS.fromU8 args.lwQos
      retain := args.lwRetain }

/-- `connect` -/
def connect (ctx : Ctx) (clientId : String) : Packet :=
  let args := ctx.args
  .connect { Connect.new clientId args.keepalive args.clean with
    username := args.username
    password := args.password.map ByteString.asBytes
    will := will args
    sessionExpiry := if ctx.proto = .v5 ∧ args.clean = false then some 7200 else none }

/-- `subscribe` -/
def subscribe (ctx : Ctx) (filter : String) (pid : UInt16) : Packet :=
  .subscribe pid [(filter, ⟨ctx.qos⟩)]

/-- `publish` -/
def publish (ctx : Ctx) (topic : String) (payload : Bytes) (pid : Option UInt16) : Packet :=
  .publish
    { topic
      payload
      qos := ctx.qos
      retain := ctx.args.retain
      dup := false
      pid }

/-- `Ack` -/
inductive Ack : Type
  | pubAck
  | pubRec
  | pubRel
  | pubComp
  deriving DecidableEq, Repr

/-- `ack` -/
def ack (ctx : Ctx) (kind : Ack) (pid : UInt16) : Packet :=
  match kind with
  | .pubAck => .pubAck pid 0
  | .pubRec => .pubRec pid 0
  | .pubRel => .pubRel pid ctx.args.v5PubrelReason
  | .pubComp => .pubComp pid 0

/-- `reply_for` -/
def replyFor (qos : UInt8) (packetId : Option UInt16) : Option (Ack × UInt16) :=
  if qos = 1 then packetId.map fun pid => (.pubAck, pid)
  else if qos = 2 then packetId.map fun pid => (.pubRec, pid)
  else none

/-- `ping_req` -/
def pingReq : Packet := .pingReq

/-- `disconnect` -/
def disconnect : Packet := .disconnect 0

/-- `connack_name` -/
def connackName (code : UInt8) : String :=
  if code = 0 then "Accepted"
  else if code = 1 then "UnacceptableProtocolVersion"
  else if code = 2 then "IdentifierRejected"
  else if code = 3 then "ServerUnavailable"
  else if code = 4 then "BadUserNameOrPassword"
  else if code = 5 then "NotAuthorized"
  else if code ≤ 0x7F then "ReservedSuccess"
  else if code = 0x80 then "UnspecifiedError"
  else if code = 0x81 then "MalformedPacket"
  else if code = 0x82 then "ProtocolError"
  else if code = 0x83 then "ImplementationSpecificError"
  else if code = 0x84 then "UnsupportedProtocolVersion"
  else if code = 0x85 then "ClientIdentifierNotValid"
  else if code = 0x86 then "BadAuthenticationMethod"
  else if code = 0x87 then "NotAuthorized"
  else if code = 0x88 then "ServerUnavailable"
  else if code = 0x89 then "ServerBusy"
  else if code = 0x8A then "Banned"
  else if code = 0x8C then "BadUserNameOrPassword"
  else if code = 0x90 then "TopicNameInvalid"
  else if code = 0x95 then "QuotaExceeded"
  else if code = 0x97 then "PayloadFormatInvalid"
  else if code = 0x99 then "TopicFilterInvalid"
  else "Unknown"

/-- `Incoming` -/
inductive Incoming : Type
  | connAck (accepted : Bool) (reason : String) (receiveMax : Option UInt16)
  | subAck (granted : List (Option UInt8))
  | publish (topic : String) (payload : Bytes) (qos : UInt8) (retain : Bool)
      (packetId : Option UInt16)
  | pubAck (pid : UInt16)
  | pubRec (pid : UInt16)
  | pubRel (pid : UInt16)
  | pubComp (pid : UInt16)
  | pingResp
  | serverDisconnect (reason : String)
  | ignored
  deriving DecidableEq, Repr

/-- `classify` -/
def classify : Packet → Incoming
  | .connAck reason _ receiveMax => .connAck (reason = 0) (connackName reason) receiveMax
  | .subAck _ reasons => .subAck (reasons.map fun r => if r < 0x80 then some r else none)
  | .publish p => .publish p.topic p.payload p.qos.asU8 p.retain p.pid
  | .pubAck pid _ => .pubAck pid
  | .pubRec pid _ => .pubRec pid
  | .pubRel pid _ => .pubRel pid
  | .pubComp pid _ => .pubComp pid
  | .pingResp => .pingResp
  | .disconnect reason => .serverDisconnect (connackName reason)
  | .unsubAck .. | .connect _ | .subscribe .. | .unsubscribe .. | .pingReq => .ignored

end Packets

end OxiMqtt.Bench

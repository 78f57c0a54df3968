import OxiMqtt.Codec.Types

/-!
# The packets of the benchmark

`oximqtt-bench/src/mqtt/types.rs`.  The load generator has packets and a codec of its own, written
from the specification and not from the broker, with the protocol version as a flag.
-/

namespace OxiMqtt.Bench

open Wire
open Codec (ByteString)

/-- `Version` -/
inductive Version : Type
  | v3
  | v5
  deriving DecidableEq, Repr

/-- `Version::level` -/
def Version.level : Version → UInt8
  | v3 => 4
  | v5 => 5

/-- `QoS` -/
inductive QoS : Type
  | atMostOnce
  | atLeastOnce
  | exactlyOnce
  deriving DecidableEq, Repr

namespace QoS

/-- `QoS::from_u8`: anything unknown becomes QoS 2. -/
def fromU8 (v : UInt8) : QoS :=
  if v = 0 then atMostOnce else if v = 1 then atLeastOnce else exactlyOnce

/-- `QoS::as_u8` -/
def asU8 : QoS → UInt8
  | atMostOnce => 0
  | atLeastOnce => 1
  | exactlyOnce => 2

end QoS

/-- `SubOpts` -/
structure SubOpts : Type where
  qos : QoS
  deriving DecidableEq, Repr

/-- `Will` -/
structure Will : Type where
  topic : ByteString
  payload : Bytes
  qos : QoS
  retain : Bool
  deriving DecidableEq, Repr

/-- `Connect` -/
structure Connect : Type where
  clean : Bool
  keepalive : UInt16
  clientId : ByteString
  username : Option ByteString
  password : Option Bytes
  will : Option Will
  sessionExpiry : Option UInt32
  deriving DecidableEq, Repr

/-- `Connect::new` -/
def Connect.new (clientId : ByteString) (keepalive : UInt16) (clean : Bool) : Connect where
  clean
  keepalive
  clientId
  username := none
  password := none
  will := none
  sessionExpiry := none

/-- `Publish` -/
structure Publish : Type where
  topic : ByteString
  payload : Bytes
  qos : QoS
  retain : Bool
  dup : Bool
  pid : Option UInt16
  deriving DecidableEq, Repr

/-- `Packet` -/
inductive Packet : Type
  | connect (c : Connect)
  | connAck (reason : UInt8) (sessionPresent : Bool) (receiveMax : Option UInt16)
  | publish (p : Publish)
  | pubAck (pid : UInt16) (reason : UInt8)
  | pubRec (pid : UInt16) (reason : UInt8)
  | pubRel (pid : UInt16) (reason : UInt8)
  | pubComp (pid : UInt16) (reason : UInt8)
  | subscribe (pid : UInt16) (filters : List (ByteString × SubOpts))
  | subAck (pid : UInt16) (reasons : List UInt8)
  | unsubscribe (pid : UInt16) (filters : List ByteString)
  | unsubAck (pid : UInt16) (reasons : List UInt8)
  | pingReq
  | pingResp
  | disconnect (reason : UInt8)
  deriving DecidableEq, Repr

/-- `CodecError` -/
inductive CodecError : Type
  | packetTooLarge (size limit : Nat)
  | invalidPacketId
  | malformed (what : String)
  | incomplete
  | unsupported (what : String)
  deriving DecidableEq, Repr

end OxiMqtt.Bench

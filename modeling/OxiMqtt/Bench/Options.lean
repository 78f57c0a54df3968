import OxiMqtt.Bench.Types
import OxiMqtt.Lib.Writer

/-!
# The options of the benchmark

`oximqtt-bench/src/options.rs`: the options that a client goes by, their check, the patterns of ids
and topics with the generator of their random parts, and the payloads.
-/

namespace OxiMqtt.Bench

open Wire Wire.ByteWriter
open Codec (ByteString)

/-- `Opts`, as far as a client reads them. -/
structure Opts : Type where
  addrs : List String
  conns : Nat
  idPattern : String := "bench-{pid}-{no}"
  username : Option String := none
  password : Option String := none
  handshakeTimeout : UInt64 := 30
  keepalive : UInt16 := 60
  clean : Bool := true
  sub : Bool := false
  pubSwitch : Bool := false
  topicPattern : String := "{cid}"
  qos : UInt8 := 1
  retain : Bool := false
  reconnInterval : UInt64 := 5000
  pubInterval : UInt64 := 1000
  size : Nat := 256
  message : Option String := none
  maxLimit : UInt64 := 0
  topicNoRange : List Nat := [0, 0]
  maxInflight : Nat := 100
  ackTimeout : UInt64 := 30
  drain : UInt64 := 0
  v5PubrelReason : UInt8 := 2
  lwTopic : Option String := none
  lwMsg : Option String := none
  lwQos : UInt8 := 0
  lwRetain : Bool := false
  deriving DecidableEq, Repr

/-- `LATENCY_HEADER_LEN` -/
def LATENCY_HEADER_LEN : Nat := 10

/-- `LATENCY_MAGIC` -/
def LATENCY_MAGIC : Bytes := [0xB5, 0x4C]

namespace Opts

/-- `Opts::validate`; what it does with the options of the reporter and of the churn controller is
left out. -/
def validate (args : Opts) : Except String Unit :=
  if args.conns = 0 then .error "-c/--conns must be greater than 0"
  else if args.qos > 2 then .error "-q/--qos must be 0, 1 or 2"
  else if args.addrs.isEmpty then .error "--addrs must not be empty"
  else if args.size < LATENCY_HEADER_LEN ∧ args.message.isNone = true then
    .error ("-s/--size must be at least " ++ toString LATENCY_HEADER_LEN ++
      " bytes to carry the latency stamp")
  else if args.topicNoRange.length ≠ 2 then
    .error "-R/--topic-no-range takes exactly two values: FROM TO"
  else if args.topicNoRange.getD 0 0 > args.topicNoRange.getD 1 0 then
    .error "-R FROM must be <= TO"
  else if args.v5PubrelReason ≠ 0 ∧ args.v5PubrelReason ≠ 2 then
    .error "--v5-pubrel-reason must be 0 or 2 (Send Onward)"
  else if args.maxInflight = 0 ∨ args.maxInflight > 65535 then
    .error "--max-inflight must be within 1..=65535"
  else .ok ()

/-- `Opts::topic_range` -/
def topicRange (args : Opts) : Nat × Nat :=
  (args.topicNoRange.getD 0 0, args.topicNoRange.getD 1 0)

/-- A check that succeeds. -/
theorem of_ite_error {p : Prop} [Decidable p] {e : String} {rest : Except String Unit}
    (h : (if p then .error e else rest) = .ok ()) : ¬ p ∧ rest = .ok () := by
  split at h
  · cases h
  · exact ⟨‹¬ p›, h⟩

/-- What the check promises the clients. -/
theorem validate_ok {args : Opts} (h : args.validate = .ok ()) :
    args.qos ≤ 2 ∧ 1 ≤ args.maxInflight ∧ args.maxInflight ≤ 65535 := by
  unfold validate at h
  obtain ⟨-, h⟩ := of_ite_error h
  obtain ⟨qos, h⟩ := of_ite_error h
  obtain ⟨-, h⟩ := of_ite_error h
  obtain ⟨-, h⟩ := of_ite_error h
  obtain ⟨-, h⟩ := of_ite_error h
  obtain ⟨-, h⟩ := of_ite_error h
  obtain ⟨-, h⟩ := of_ite_error h
  obtain ⟨window, -⟩ := of_ite_error h
  obtain ⟨some, few⟩ := not_or.mp window
  exact ⟨UInt8.not_lt.mp qos, Nat.one_le_iff_ne_zero.mpr some, Nat.not_lt.mp few⟩

end Opts

/-! ## Random numbers -/

/-- `Rng` -/
structure Rng : Type where
  state : UInt64
  deriving DecidableEq, Repr

namespace Rng

/-- `Rng::new` -/
def new (seed : UInt64) : Rng := ⟨seed * 0x9E3779B97F4A7C15 ||| 1⟩

/-- `Rng::next_u64` -/
def nextU64 (r : Rng) : UInt64 × Rng :=
  let s := r.state ^^^ (r.state >>> 12)
  let s := s ^^^ (s <<< 25)
  let s := s ^^^ (s >>> 27)
  (s * 0x2545F4914F6CDD1D, ⟨s⟩)

/-- `Rng::next_in` -/
def nextIn (r : Rng) (range : Nat × Nat) : Nat × Rng :=
  let span := range.2 - range.1 + 1
  let (n, r) := r.nextU64
  (range.1 + n.toNat % span, r)

/-- `Rng::token` -/
def token (r : Rng) : List Char × Rng :=
  let (n, r) := r.nextU64
  ((Nat.toDigits 16 (n >>> 32).toNat).leftpad 8 '0', r)

end Rng

/-! ## Patterns -/

/-- The turns of the loop of `expand` that are left; a turn ends behind a brace. -/
def expandLoop (processId no : Nat) (cid : List Char) :
    Nat → List Char → List Char → Rng → List Char × Rng
  | 0, rest, out, rnd => (out ++ rest, rnd)
  | turns + 1, rest, out, rnd =>
      match rest.span (· ≠ '\x7b') with
      | (_, []) => (out ++ rest, rnd)
      | (before, _ :: tail) =>
          match tail.span (· ≠ '\x7d') with
          | (_, []) => expandLoop processId no cid turns tail (out ++ before ++ ['\x7b']) rnd
          | (name, _ :: rest) =>
              let (text, rnd) :=
                if name = "no".toList then ((toString no).toList, rnd)
                else if name = "cid".toList then (cid, rnd)
                else if name = "random".toList then rnd.token
                else if name = "pid".toList then ((toString processId).toList, rnd)
                else ('\x7b' :: name ++ ['\x7d'], rnd)
              expandLoop processId no cid turns rest (out ++ before ++ text) rnd

/-- `expand` -/
def expand (processId : Nat) (pattern : String) (no : Nat) (cid : String) (rnd : Rng) :
    String × Rng :=
  if '\x7b' ∉ pattern.toList then (pattern, rnd)
  else
    let (out, rnd) :=
      expandLoop processId no cid.toList pattern.length pattern.toList [] rnd
    (String.ofList out, rnd)

/-! ## Payloads -/

/-- `u64::to_be_bytes` -/
def be64 (n : UInt64) : Bytes := be32 (n >>> 32).toUInt32 ++ be32 n.toUInt32

/-- `PayloadBuilder` -/
structure PayloadBuilder : Type where
  template : Bytes
  stamped : Bool
  deriving DecidableEq, Repr

namespace PayloadBuilder

/-- A template begins with the marker where it has room for a stamp. -/
def mark (template : Bytes) : PayloadBuilder :=
  let stamped := decide (template.length ≥ LATENCY_HEADER_LEN)
  ⟨if stamped then LATENCY_MAGIC ++ template.drop 2 else template, stamped⟩

/-- `PayloadBuilder::new` -/
def new (args : Opts) : PayloadBuilder :=
  match args.message with
  | some m => mark (ByteString.asBytes m)
  | none => mark (List.replicate args.size 120)

/-- `PayloadBuilder::build` -/
def build (b : PayloadBuilder) (tsUs : UInt64) : Bytes :=
  if !b.stamped then b.template
  else b.template.take 2 ++ be64 tsUs ++ b.template.drop LATENCY_HEADER_LEN

/-- `PayloadBuilder::parse` -/
def parse (payload : Bytes) : Option UInt64 :=
  if payload.length < LATENCY_HEADER_LEN ∨ payload.take 2 ≠ LATENCY_MAGIC then none
  else
    let raw := (payload.drop 2).take 8
    let ts := UInt64.ofNat (raw.foldl (fun acc b => acc * 256 + b.toNat) 0)
    if ts = 0 ∨ ts > 3600000000000 then none else some ts

end PayloadBuilder

end OxiMqtt.Bench

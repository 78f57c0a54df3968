import OxiMqtt.Codec.V3.Reencode
import OxiMqtt.Codec.V5.Accepts
import OxiMqtt.Codec.V5.Codec

/-!
# Encoding again what was decoded

For both protocol versions: a packet that the decoder has accepted is encoded by a default codec
and decoded again, and it is asked when it is the same packet.

* MQTT 3.1.1: unless it is a CONNECT of level 3, which is written with level 4.
* MQTT 5: unless it is an acknowledgment a few bytes short of the largest packet.  The size pass
  of an acknowledgment sets four bytes aside for the length of its properties twice, and drops
  properties that would have fitted (`Packet.DiagnosticsFit`).
-/

namespace OxiMqtt.Codec.V5

set_option linter.dupNamespace false

open Wire Wire.Reader Wire.ByteWriter

/-- What user properties and a reason string take on the wire. -/
def diagSize (ups : UserProperties) (reason : Option ByteString) : Nat :=
  encodedSize ups + encodedPropertySize reason

namespace PublishAckOf

theorem cut_eq_self_iff {ρ : Type} (p : PublishAckOf ρ) :
    p.cut MAX_PACKET_SIZE = p ↔ diagSize p.properties p.reasonString + 11 ≤ MAX_PACKET_SIZE := by
  have kept : p.cut MAX_PACKET_SIZE = p ↔
      keepAckProps p.properties p.reasonString (MAX_PACKET_SIZE - 7) =
        (p.properties, p.reasonString) := by
    constructor
    · exact fun whole => Prod.ext (congrArg properties whole) (congrArg reasonString whole)
    · intro all
      rw [cut, all]
  rw [kept, keepAckProps_eq_self_iff, length_optPropsImage, diagSize]
  constructor
  · intro room
    rcases room with ⟨none, none'⟩ | room
    · rw [none, none']
      decide
    · unfold MAX_PACKET_SIZE at room ⊢
      omega
  · intro room
    exact .inr (by unfold MAX_PACKET_SIZE at room ⊢; omega)

end PublishAckOf

/-- There is nothing to drop from the acknowledgment, or there is room for it and four bytes
more. -/
def StatusAckOf.DiagnosticsFit {ρ : Type} (p : StatusAckOf ρ) : Prop :=
  (p.properties = [] ∧ p.reasonString = none) ∨
    diagSize p.properties p.reasonString + p.status.length + 6 ≤ MAX_PACKET_SIZE

theorem StatusAckOf.cut_eq_self_iff {ρ : Type} (p : StatusAckOf ρ) :
    p.cut MAX_PACKET_SIZE = p ↔ p.DiagnosticsFit := by
  have kept : p.cut MAX_PACKET_SIZE = p ↔
      keepAckProps p.properties p.reasonString (MAX_PACKET_SIZE - (2 + p.status.length)) =
        (p.properties, p.reasonString) := by
    constructor
    · exact fun whole => Prod.ext (congrArg properties whole) (congrArg reasonString whole)
    · intro all
      rw [cut, cutTo, all]
  rw [kept, keepAckProps_eq_self_iff, length_optPropsImage, DiagnosticsFit, diagSize]
  refine or_congr Iff.rfl ?_
  unfold MAX_PACKET_SIZE
  omega

namespace Packet

/-- A packet that a codec, with any limits and flags and at the start of a frame, has read from
some bytes. -/
def Accepted (p : Packet) : Prop :=
  ∃ (codec codec' : Codec) (src rest : Bytes) (n : Nat), codec.state = .frameHeader ∧
    codec.decode src = (.ok (some (p, n)), codec', rest)

/-- A default codec encodes the packet, and decodes the result to the packet again. -/
def Reencodes (p : Packet) : Prop :=
  ∃ bytes, (Codec.new 0 0).encode p [] = (.ok (), bytes) ∧
    ∃ n codec, (Codec.new 0 0).decode bytes = (.ok (some (p, n)), codec, [])

/-- The diagnostic properties of an acknowledgment leave the room that the size pass sets aside. -/
def DiagnosticsFit : Packet → Prop
  | publishAck p => diagSize p.properties p.reasonString + 11 ≤ MAX_PACKET_SIZE
  | publishReceived p => diagSize p.properties p.reasonString + 11 ≤ MAX_PACKET_SIZE
  | publishRelease p => diagSize p.properties p.reasonString + 11 ≤ MAX_PACKET_SIZE
  | publishComplete p => diagSize p.properties p.reasonString + 11 ≤ MAX_PACKET_SIZE
  | subscribeAck p => p.DiagnosticsFit
  | unsubscribeAck p => p.DiagnosticsFit
  | _ => True

theorem Accepted.readFrom {p : Packet} (accepted : p.Accepted) :
    ∃ n, n ≤ MAX_PACKET_SIZE ∧ p.ReadFrom n := by
  rcases accepted with ⟨codec, codec', src, rest, n, fresh, run⟩
  rcases Codec.framed.decode_accepts fresh run with ⟨firstByte, content, left, short, packet⟩
  rcases yields_decodePacket firstByte content p left packet with ⟨k, size, read⟩
  exact ⟨k, by omega, read⟩

theorem ReadFrom.small_content {p : Packet} {n : Nat} (read : p.ReadFrom n)
    (short : n ≤ MAX_PACKET_SIZE) : p.content.length ≤ MAX_PACKET_SIZE :=
  Nat.le_trans read.small (Nat.max_le.mpr ⟨short, by decide⟩)

/-- Nothing is cut from an accepted packet exactly when its diagnostic properties fit. -/
theorem cut_eq_self_iff {p : Packet} (small : p.content.length ≤ MAX_PACKET_SIZE) :
    p.cut MAX_PACKET_SIZE = p ↔ p.DiagnosticsFit := by
  have same : ∀ {α : Type} {kind : α → Packet} (h : ∀ x y, kind x = kind y → x = y) (x y : α),
      kind x = kind y ↔ x = y := fun h x y => ⟨h x y, congrArg _⟩
  cases p with
  | connectAck p =>
      exact ⟨fun _ => trivial, fun _ => congrArg connectAck (ConnectAck.cut_eq_self small)⟩
  | publishAck p => exact (same (fun _ _ => publishAck.inj) _ _).trans p.cut_eq_self_iff
  | publishReceived p => exact (same (fun _ _ => publishReceived.inj) _ _).trans p.cut_eq_self_iff
  | publishRelease p => exact (same (fun _ _ => publishRelease.inj) _ _).trans p.cut_eq_self_iff
  | publishComplete p => exact (same (fun _ _ => publishComplete.inj) _ _).trans p.cut_eq_self_iff
  | subscribeAck p => exact (same (fun _ _ => subscribeAck.inj) _ _).trans p.cut_eq_self_iff
  | unsubscribeAck p => exact (same (fun _ _ => unsubscribeAck.inj) _ _).trans p.cut_eq_self_iff
  | disconnect p =>
      exact ⟨fun _ => trivial, fun _ => congrArg disconnect (Disconnect.cut_eq_self small)⟩
  | auth p => exact ⟨fun _ => trivial, fun _ => congrArg auth (Auth.cut_eq_self small)⟩
  | _ => exact ⟨fun _ => trivial, fun _ => rfl⟩

/-- What can be asked of a packet again after it has been cut. -/
theorem ReadFrom.cut {p : Packet} {n : Nat} (read : p.ReadFrom n) (limit : Nat) :
    (p.cut limit).Fits ∧ (p.cut limit).Acceptable ∧ (p.cut limit).normalized = p.cut limit := by
  refine ⟨read.fits.cut limit, ?_, ?_⟩
  · cases p <;> first | exact trivial | exact read.acceptable
  · cases p <;> first | rfl | exact read.normal

/-- An accepted packet survives being encoded and decoded exactly when its diagnostic properties
fit. -/
theorem reencodes_iff {p : Packet} (accepted : p.Accepted) : p.Reencodes ↔ p.DiagnosticsFit := by
  rcases accepted.readFrom with ⟨n, short, read⟩
  have small := read.small_content short
  rw [← cut_eq_self_iff small]
  constructor
  · rintro ⟨bytes, encoded, m, codec, decoded⟩
    rcases Codec.encode_eq_ok encoded with ⟨k, size, within, announced⟩
    rcases read.cut MAX_PACKET_SIZE with ⟨fits, acceptable, normal⟩
    have length := (agrees fits size announced).1
    have written := Codec.encode_of_size (c := Codec.new 0 0) fits size within announced []
    rcases Codec.decode_frame fits acceptable (length ▸ announced) [] with ⟨codec', again⟩
    rw [encoded] at written
    obtain rfl : bytes = (p.cut MAX_PACKET_SIZE).frame := congrArg Prod.snd written
    rw [List.append_nil, normal, decoded] at again
    exact (congrArg Prod.fst (Option.some.inj (Outcome.ok.inj (congrArg Prod.fst again)))).symm
  · intro whole
    have size := encodedSize_max read.fits small whole
    have written := Codec.encode_of_size (c := Codec.new 0 0) (read.cut MAX_PACKET_SIZE).1 size small
      small []
    change _ = (_, [] ++ (p.cut MAX_PACKET_SIZE).frame) at written
    rw [whole, List.nil_append] at written
    rcases Codec.decode_frame read.fits read.acceptable small [] with ⟨codec, decoded⟩
    rw [List.append_nil, read.normal] at decoded
    exact ⟨p.frame, written, _, codec, decoded⟩

end Packet

end OxiMqtt.Codec.V5

namespace OxiMqtt.Codec

open Wire

/-- Which packets come back as they were when what a decoder has accepted is encoded by a default
codec and decoded again: of MQTT 3.1.1 all but a CONNECT of another level than 4, of MQTT 5 all
whose diagnostic properties leave the room that the size pass sets aside. -/
theorem accepted_reencodes_iff (p : V3.Packet) (q : V5.Packet) :
    (p.Accepted → (p.Reencodes ↔ p.HasLevel311)) ∧
      (q.Accepted → (q.Reencodes ↔ q.DiagnosticsFit)) :=
  ⟨V3.Packet.reencodes_iff, V5.Packet.reencodes_iff⟩

/-- A PUBACK in its short form is read with the reason and the properties that it leaves out. -/
def shortAck : V5.PublishAck where
  packetId := ⟨21, by decide⟩
  reasonCode := .success
  properties := []
  reasonString := none

/-- A PINGREQ of MQTT 3.1.1 and the short PUBACK come back as they were. -/
theorem accepted_reencodes_iff_short :
    (V3.Codec.new 0).decode [0xC0, 0] = (.ok (some (.pingRequest, 0)), V3.Codec.new 0, []) ∧
      V3.Packet.pingRequest.Reencodes ∧
      (V5.Codec.new 0 0).decode [0x40, 2, 0, 21] =
        (.ok (some (.publishAck shortAck, 2)), V5.Codec.new 0 0, []) ∧
      (V5.Packet.publishAck shortAck).Reencodes := by
  have ping : (V3.Codec.new 0).decode [0xC0, 0] =
      (.ok (some (.pingRequest, 0)), V3.Codec.new 0, []) := by decide
  have ack : (V5.Codec.new 0 0).decode [0x40, 2, 0, 21] =
      (.ok (some (.publishAck shortAck, 2)), V5.Codec.new 0 0, []) := by decide
  have both := accepted_reencodes_iff .pingRequest (.publishAck shortAck)
  refine ⟨ping, ?_, ack, ?_⟩
  · exact (both.1 ⟨_, _, _, _, _, rfl, ping⟩).mpr fun _ h => by cases h
  · exact (both.2 ⟨_, _, _, _, _, rfl, ack⟩).mpr
      (show V5.diagSize [] none + 11 ≤ MAX_PACKET_SIZE by decide)

/-- The CONNECT of an MQTT 3.1 client without a client id. -/
def legacyConnect : V3.Connect where
  protocol := MQTT_LEVEL_31
  cleanSession := true
  keepAlive := 60
  lastWill := none
  clientId := ""
  username := none
  password := none
  cert := none

/-- The frame that it sends. -/
def legacyFrame : Bytes :=
  [0x10, 14, 0, 6, 0x4D, 0x51, 0x49, 0x73, 0x64, 0x70, 3, 2, 0, 60, 0, 0]

theorem decode_legacyFrame : (V3.Codec.new 0).decode legacyFrame =
    (.ok (some (.connect legacyConnect, 14)), V3.Codec.new 0, []) := by decide

/-- It is accepted, encoded with the name of MQTT 3.1 and the level of MQTT 3.1.1, and read back
as another packet. -/
theorem legacyConnect_not_reencoded :
    (V3.Codec.new 0).decode legacyFrame =
        (.ok (some (.connect legacyConnect, 14)), V3.Codec.new 0, []) ∧
      ¬ (V3.Packet.connect legacyConnect).Reencodes := by
  refine ⟨decode_legacyFrame, fun reencodes => ?_⟩
  have accepted : (V3.Packet.connect legacyConnect).Accepted :=
    ⟨_, _, legacyFrame, [], 14, rfl, decode_legacyFrame⟩
  have level := (V3.Packet.reencodes_iff accepted).mp reencodes legacyConnect rfl
  exact absurd level (by decide)

end OxiMqtt.Codec

import OxiMqtt.Codec.V5.Acks
import OxiMqtt.Lib.AtMostOnce
import OxiMqtt.Lib.Machine
import OxiMqtt.Session.DeliverQueue
import OxiMqtt.Session.Inflight

/-!
# Outbound publishes of a session and the client that receives them

The outbound side of `session.rs` on one connection: the session channel, the
deliver queue, the window, and the select arms that move messages between them
(`deliver`, the timeout pop with `reforward`, `send_rerelease`, PUBACK, PUBREC and
PUBCOMP), over reliable first-in-first-out links to a conformant receiver.

A message is numbered when it is handed to the session; the number stands for its
`From`, which the session only carries.

* `copies`: the QoS 2 publishes the session may still send, each with the packet
  id it was sent under.  A timeout moves a copy from the window to the channel.
* `outbound_at_most_once`: as long as no PUBREL is sent for a packet id that a
  waiting copy carries, no QoS 2 message reaches the application twice.
* `late_pubrec_repeats`: a PUBREC that arrives after the timeout releases the id
  of the copy in the queue, and the message is delivered twice.
-/

namespace OxiMqtt.Session.Outbound

open OxiMqtt.Codec (QoS NonZeroU16 Publish)
open OxiMqtt.Codec.V5 (PublishAck2Reason)
open AtMostOnce (Receiver Sound)

abbrev MsgId : Type := Nat

inductive Version : Type
  | v3
  | v5
  deriving DecidableEq, Repr

/-- The packets the session sends. -/
inductive Packet : Type
  | publish (msg : MsgId) (publish : Publish)
  | publishRelease (packetId : NonZeroU16) (reason : Option PublishAck2Reason)
  deriving DecidableEq, Repr

/-- The acknowledgments the client sends. -/
inductive Ack : Type
  | publishAck (packetId : NonZeroU16)
  | publishReceived (packetId : NonZeroU16)
  | publishComplete (packetId : NonZeroU16)
  deriving DecidableEq, Repr

/-- The messages of the session channel. -/
inductive Message : Type
  | forward (msg : MsgId) (publish : Publish)
  | sendRerelease (m : OutInflightMessage MsgId)
  deriving DecidableEq, Repr

/-- The session, the two links and the client. -/
structure State : Type where
  version : Version
  outInflight : OutInflight MsgId
  channel : List Message
  queue : List (MsgId × Publish)
  queueCap : Nat
  clock : TimestampMillis
  toClient : List Packet
  toServer : List Ack
  client : Receiver MsgId NonZeroU16
  handed : Nat

/-! ## The client -/

/-- What the client does with a packet: the QoS 2 messages it hands to its
application, and its answer. -/
def clientReceive (r : Receiver MsgId NonZeroU16) : Packet → Receiver MsgId NonZeroU16 × List Ack
  | .publish msg p =>
      match p.qos, p.packetId with
      | .exactlyOnce, some packetId => (r.publish packetId msg, [.publishReceived packetId])
      | .atLeastOnce, some packetId => (r, [.publishAck packetId])
      | _, _ => (r, [])
  | .publishRelease packetId _ => (r.release packetId, [.publishComplete packetId])

/-! ## The session -/

/-- The policy of the deliver queue when it is full. -/
def deliverPolicy (item : MsgId × Publish) : DeliverQueue.Policy :=
  if item.2.qos = .atMostOnce then .current else .early

/-- `SessionState::reforward`; `expired` is the answer of the expiry check. -/
def reforward (s : State) (m : OutInflightMessage MsgId) (expired : Bool) : State :=
  match m.status with
  | .unComplete =>
      if expired then s else { s with channel := s.channel ++ [.sendRerelease m] }
  | _ => { s with channel := s.channel ++ [.forward m.origin { m.publish with dup := true }] }

/-- `SessionState::send_rerelease`; a message without a packet id ends the
connection. -/
def sendRerelease (s : State) (m : OutInflightMessage MsgId) : Option State :=
  match m.publish.packetId with
  | none => none
  | some packetId =>
      let r := s.outInflight.pushBack { m with status := .unComplete, updateTime := s.clock }
      let reason := match s.version with
        | .v3 => none
        | .v5 => some (if r.2.isSome then PublishAck2Reason.sendOnward else .packetIdNotFound)
      some { s with
        outInflight := r.1
        toClient := s.toClient ++ [.publishRelease packetId reason] }

/-- The packet id of a publish that is about to be sent; `next_id` may find none. -/
def assignPacketId (w : OutInflight MsgId) (p : Publish) : Option (Publish × OutInflight MsgId) :=
  if p.qos ≠ .atMostOnce && (!p.dup || p.packetId.isNone) then
    match w.nextId with
    | (none, _) => none
    | (some packetId, w) => some ({ p with packetId := NonZeroU16.new packetId }, w)
  else some (p, w)

/-- `SessionState::deliver`; `expired` is the answer of the expiry check. -/
def deliver (s : State) (msg : MsgId) (p : Publish) (expired : Bool) : Option State :=
  if expired then some s
  else
    (assignPacketId s.outInflight p).map fun (p, w) =>
      let toClient := s.toClient ++ [.publish msg p]
      match p.qos with
      | .atLeastOnce =>
          { s with toClient, outInflight := (w.pushBack ⟨p, msg, .unAck, s.clock⟩).1 }
      | .exactlyOnce =>
          { s with toClient, outInflight := (w.pushBack ⟨p, msg, .unReceived, s.clock⟩).1 }
      | .atMostOnce => { s with toClient, outInflight := w }

/-- `process_message` on the messages of the outbound side. -/
def processMessage (s : State) : Message → Option State
  | .forward msg p =>
      some { s with queue := (DeliverQueue.send s.queueCap deliverPolicy s.queue (msg, p)).1 }
  | .sendRerelease m => sendRerelease s m

/-- `process_mqtt_message` on the acknowledgments of outbound publishes. -/
def processAck (s : State) : Ack → State
  | .publishAck packetId => { s with outInflight := (s.outInflight.remove packetId.val).2 }
  | .publishReceived packetId =>
      { s with
        outInflight := s.outInflight.updateStatus s.clock packetId.val .unComplete
        toClient := s.toClient ++ [.publishRelease packetId
          (match s.version with
            | .v3 => none
            | .v5 => some .sendOnward)] }
  | .publishComplete packetId => { s with outInflight := (s.outInflight.remove packetId.val).2 }

/-! ## The steps -/

inductive Step : Type
  /-- A publisher's copy is sent into the session channel (`forwards_to`). -/
  | forward (publish : Publish)
  | tick (elapsed : TimestampMillis)
  /-- One turn of the timeout arm. -/
  | timeout (expired : Bool)
  /-- The deliver arm, when the window has credit. -/
  | deliver (expired : Bool)
  /-- The session channel arm. -/
  | message
  /-- The packet arm. -/
  | packet
  /-- The client processes a packet. -/
  | client

def step (s : State) : Step → Option State
  | .forward p =>
      some { s with
        channel := s.channel ++ [.forward s.handed { p with dup := false, packetId := none }]
        handed := s.handed + 1 }
  | .tick elapsed => some { s with clock := s.clock + elapsed }
  | .timeout expired =>
      (s.outInflight.popFrontTimeout s.clock).map fun (m, w) =>
        reforward { s with outInflight := w } m expired
  | .deliver expired =>
      match s.queue with
      | [] => none
      | (msg, p) :: queue =>
          if s.outInflight.hasCredit then deliver { s with queue } msg p expired else none
  | .message =>
      match s.channel with
      | [] => none
      | m :: channel => processMessage { s with channel } m
  | .packet =>
      match s.toServer with
      | [] => none
      | ack :: toServer => some (processAck { s with toServer } ack)
  | .client =>
      match s.toClient with
      | [] => none
      | packet :: toClient =>
          let r := clientReceive s.client packet
          some { s with toClient, client := r.1, toServer := s.toServer ++ r.2 }

/-- A connection at its start. -/
def initial (version : Version) (cap : Nat) (retryInterval expiryInterval : TimestampMillis)
    (toBack : Bool) (queueCap : Nat) : State where
  version
  outInflight := .new cap retryInterval expiryInterval toBack
  channel := []
  queue := []
  queueCap
  clock := 0
  toClient := []
  toServer := []
  client := ⟨[], []⟩
  handed := 0

/-! ## The condition -/

/-- The publish a message of the channel carries to the deliver queue. -/
def Message.forwarded : Message → Option (MsgId × Publish)
  | .forward msg p => some (msg, p)
  | .sendRerelease _ => none

/-- The publishes in the session channel and in the deliver queue. -/
def waiting (s : State) : List (MsgId × Publish) := s.channel.filterMap Message.forwarded ++ s.queue

/-- A QoS 2 publish that was sent under the packet id waits to be sent again. -/
def Waits (s : State) (packetId : NonZeroU16) : Prop :=
  ∃ item ∈ waiting s, item.2.qos = .exactlyOnce ∧ item.2.packetId = some packetId

instance (s : State) (packetId : NonZeroU16) : Decidable (Waits s packetId) :=
  inferInstanceAs (Decidable (∃ item ∈ waiting s,
    item.2.qos = .exactlyOnce ∧ item.2.packetId = some packetId))

/-- The packet id the step sends a PUBREL for. -/
def releases (s : State) : Step → Option NonZeroU16
  | .packet =>
      match s.toServer with
      | .publishReceived packetId :: _ => some packetId
      | _ => none
  | .message =>
      match s.channel with
      | .sendRerelease m :: _ => m.publish.packetId
      | _ => none
  | _ => none

/-- No PUBREL is sent for the packet id of a publish that waits to be sent again. -/
def ReleasesIdle (s : State) (a : Step) : Prop :=
  ∀ packetId, releases s a = some packetId → ¬ Waits s packetId

instance (s : State) (a : Step) : Decidable (ReleasesIdle s a) :=
  match h : releases s a with
  | none => isTrue fun packetId hp => by rw [h] at hp; cases hp
  | some packetId =>
      decidable_of_iff (¬ Waits s packetId)
        ⟨fun idle p hp => by rw [h] at hp; cases hp; exact idle, fun idle => idle packetId h⟩

/-! ## The copies of a message -/

/-- The copy a window entry stands for: a QoS 2 publish without its PUBREC. -/
def entryCopy (m : OutInflightMessage MsgId) : Option (MsgId × Option NonZeroU16) :=
  if m.status = .unReceived then some (m.origin, m.publish.packetId) else none

/-- The copy a waiting publish is. -/
def itemCopy (item : MsgId × Publish) : Option (MsgId × Option NonZeroU16) :=
  if item.2.qos = .exactlyOnce then some (item.1, item.2.packetId) else none

def windowCopies (queues : List (PacketId × OutInflightMessage MsgId)) :
    List (MsgId × Option NonZeroU16) :=
  queues.filterMap fun e => entryCopy e.2

/-- The QoS 2 publishes the session may still send. -/
def copies (s : State) : List (MsgId × Option NonZeroU16) :=
  windowCopies s.outInflight.queues ++ (waiting s).filterMap itemCopy

/-- The client once it has processed what is on the way to it. -/
def settled (s : State) : Receiver MsgId NonZeroU16 :=
  s.toClient.foldl (fun r packet => (clientReceive r packet).1) s.client

/-- What holds in every state of a run that releases no waiting id. -/
structure Inv (s : State) : Prop where
  keyed : s.outInflight.WellKeyed
  numbered : ∀ item ∈ waiting s, item.2.packetId.isSome = true → item.2.dup = true
  sound : Sound (copies s) (settled s)
  known : ∀ c ∈ copies s, c.1 < s.handed
  logged : ∀ m ∈ (settled s).delivered, m < s.handed

theorem inv_initial (version : Version) (cap : Nat) (retryInterval expiryInterval : TimestampMillis)
    (toBack : Bool) (queueCap : Nat) :
    Inv (initial version cap retryInterval expiryInterval toBack queueCap) := by
  refine ⟨OutInflight.wellKeyed_new _ _ _ _, fun item h => (by cases h), ⟨List.nodup_nil,
    List.nodup_nil, fun m p h => (by cases h), fun m h => (by cases h)⟩, fun c h => (by cases h),
    fun m h => (by cases h)⟩

/-- A step that only loses and moves copies, and sends nothing the receiver acts
on, keeps the invariant. -/
theorem Inv.lose {s s' : State} (h : Inv s) (keyed : s'.outInflight.WellKeyed)
    (numbered : ∀ item ∈ waiting s', item.2.packetId.isSome = true → item.2.dup = true)
    (le : (copies s').Subperm (copies s)) (same : settled s' = settled s)
    (handed : s'.handed = s.handed) : Inv s' where
  keyed := keyed
  numbered := numbered
  sound := same ▸ h.sound.subperm le
  known c hc := handed ▸ h.known c (le.subset hc)
  logged m hm := by
    rw [same] at hm
    exact handed ▸ h.logged m hm

/-! ## The window's copies -/

theorem windowCopies_sublist {queues queues' : List (PacketId × OutInflightMessage MsgId)}
    (h : queues.Sublist queues') : (windowCopies queues).Sublist (windowCopies queues') :=
  h.filterMap _

/-- Putting a message in the window gives at most its copy besides those there
were. -/
theorem windowCopies_pushBack_subperm {w : OutInflight MsgId} (h : w.WellKeyed)
    (m : OutInflightMessage MsgId) :
    (windowCopies (w.pushBack m).1.queues).Subperm
      ((entryCopy m).toList ++ windowCopies w.queues) := by
  unfold OutInflight.pushBack
  split
  · exact (List.sublist_append_right _ _).subperm
  · rename_i packetId _
    have perm := (OutInflight.insertEntry_perm h.keys packetId.val m).filterMap fun e => entryCopy e.2
    rw [List.filterMap_append, List.filterMap_cons] at perm
    refine (List.sublist_append_right _ _).subperm.trans (perm.subperm.trans ?_)
    cases entryCopy m <;> exact .refl _

/-- An acknowledged entry is no copy any more. -/
theorem windowCopies_updateStatus_sublist (w : OutInflight MsgId) (now : TimestampMillis)
    (packetId : PacketId) :
    (windowCopies (w.updateStatus now packetId .unComplete).queues).Sublist
      (windowCopies w.queues) := by
  unfold OutInflight.updateStatus
  simp only
  induction w.queues with
  | nil => exact .refl _
  | cons e rest ih =>
      simp only [windowCopies, List.map_cons, List.filterMap_cons] at ih ⊢
      by_cases he : e.1 = packetId
      · -- The entry of the key has lost its copy.
        have gone : entryCopy (e.2.updateStatus now .unComplete) = none := rfl
        rw [if_pos he, gone]
        cases entryCopy e.2 with
        | none => exact ih
        | some c => exact ih.cons c
      · rw [if_neg he]
        cases entryCopy e.2 with
        | none => exact ih
        | some c => exact ih.cons_cons c

theorem mem_windowCopies {queues : List (PacketId × OutInflightMessage MsgId)} {m : MsgId}
    {o : Option NonZeroU16} (h : (m, o) ∈ windowCopies queues) :
    ∃ e ∈ queues, e.2.status = .unReceived ∧ e.2.publish.packetId = o := by
  obtain ⟨e, he, hcopy⟩ := List.mem_filterMap.mp h
  unfold entryCopy at hcopy
  split at hcopy
  · cases hcopy
    exact ⟨e, he, ‹_›, rfl⟩
  · cases hcopy

/-- In a well-keyed window whose entry of the packet id is acknowledged, no copy
carries the id. -/
theorem not_mem_windowCopies {w : OutInflight MsgId} (h : w.WellKeyed) {packetId : NonZeroU16}
    (acked : ∀ e ∈ w.queues, e.1 = packetId.val → e.2.status = .unComplete) (m : MsgId) :
    (m, some packetId) ∉ windowCopies w.queues := by
  intro hmem
  obtain ⟨e, he, hstatus, hid⟩ := mem_windowCopies hmem
  have hkey := h.packetId e he
  rw [hid] at hkey
  have hcomplete := acked e he (Option.some.inj hkey).symm
  rw [hstatus] at hcomplete
  cases hcomplete

theorem not_mem_waiting {s : State} {packetId : NonZeroU16} (idle : ¬ Waits s packetId) (m : MsgId) :
    (m, some packetId) ∉ (waiting s).filterMap itemCopy := by
  intro hmem
  obtain ⟨item, hitem, hcopy⟩ := List.mem_filterMap.mp hmem
  unfold itemCopy at hcopy
  split at hcopy
  · rename_i hqos
    rw [Option.some.injEq, Prod.mk.injEq] at hcopy
    exact idle ⟨item, hitem, hqos, hcopy.2⟩
  · cases hcopy

/-! ## The steps keep the invariant -/

theorem settled_send (s : State) (packet : Packet) :
    settled { s with toClient := s.toClient ++ [packet] } = (clientReceive (settled s) packet).1 := by
  simp only [settled, List.foldl_append, List.foldl_cons, List.foldl_nil]

theorem inv_forward {s : State} (h : Inv s) (p : Publish) :
    Inv { s with
      channel := s.channel ++ [.forward s.handed { p with dup := false, packetId := none }]
      handed := s.handed + 1 } := by
  have waiting_perm : (waiting { s with
      channel := s.channel ++ [.forward s.handed { p with dup := false, packetId := none }]
      handed := s.handed + 1 }).Perm
        ((s.handed, { p with dup := false, packetId := none }) :: waiting s) := by
    simp only [waiting, List.filterMap_append, List.append_assoc]
    exact List.perm_middle
  have fresh : ∀ o, (s.handed, o) ∉ copies s := fun o hmem => Nat.lt_irrefl _ (h.known _ hmem)
  have unlogged : s.handed ∉ (settled s).delivered := fun hmem => Nat.lt_irrefl _ (h.logged _ hmem)
  have le : (copies { s with
      channel := s.channel ++ [.forward s.handed { p with dup := false, packetId := none }]
      handed := s.handed + 1 }).Subperm ((s.handed, none) :: copies s) := by
    refine ((waiting_perm.filterMap itemCopy).append_left _).subperm.trans ?_
    rw [List.filterMap_cons]
    split
    · exact List.Subperm.cons_self
    · rename_i c hcopy
      unfold itemCopy at hcopy
      split at hcopy
      · cases hcopy
        exact List.perm_middle.subperm
      · cases hcopy
  have sound := (h.sound.add fresh unlogged).subperm le
  refine ⟨h.keyed, fun item hitem hsome => ?_, sound, fun c hc => ?_, fun m hm => ?_⟩
  · cases waiting_perm.subset hitem with
    | head => cases hsome
    | tail _ hitem => exact h.numbered item hitem hsome
  · cases le.subset hc with
    | head => exact Nat.lt_succ_self _
    | tail _ hc => exact Nat.lt_succ_of_lt (h.known c hc)
  · exact Nat.lt_succ_of_lt (h.logged m hm)

/-- A timeout moves the copy of the entry, if it has one, to the channel. -/
theorem inv_timeout {s : State} (h : Inv s) {m : OutInflightMessage MsgId} {w : OutInflight MsgId}
    (hpop : s.outInflight.popFrontTimeout s.clock = some (m, w)) (expired : Bool) :
    Inv (reforward { s with outInflight := w } m expired) := by
  obtain ⟨packetId, hqueues⟩ := OutInflight.popFrontTimeout_eq hpop
  have keyed : w.WellKeyed := h.keyed.sublist (by rw [hqueues]; exact List.sublist_cons_self _ _)
  have window : windowCopies s.outInflight.queues = (entryCopy m).toList ++ windowCopies w.queues := by
    rw [hqueues]
    simp only [windowCopies, List.filterMap_cons]
    cases entryCopy m <;> rfl
  have forwarded : m.status ≠ .unComplete →
      Inv { s with
        outInflight := w
        channel := s.channel ++ [.forward m.origin { m.publish with dup := true }] } := by
    intro hstatus
    have waiting_perm : (waiting { s with
        outInflight := w
        channel := s.channel ++ [.forward m.origin { m.publish with dup := true }] }).Perm
          ((m.origin, { m.publish with dup := true }) :: waiting s) := by
      simp only [waiting, List.filterMap_append, List.append_assoc]
      exact List.perm_middle
    -- An entry that waits for a PUBACK is no QoS 2 publish and has no copy to move.
    have moved : itemCopy (m.origin, { m.publish with dup := true }) = none ∨
        itemCopy (m.origin, { m.publish with dup := true }) = entryCopy m := by
      unfold itemCopy entryCopy
      cases hm : m.status with
      | unComplete => exact absurd hm hstatus
      | unReceived =>
          by_cases hqos : m.publish.qos = .exactlyOnce
          · exact .inr (by simp [hqos])
          · exact .inl (by simp [hqos])
      | unAck =>
          have hqos := h.keyed.unAck _ (by rw [hqueues]; exact List.mem_cons_self) hm
          exact .inl (by simp [hqos])
    refine h.lose keyed (fun item hitem hsome => ?_) ?_ rfl rfl
    · cases waiting_perm.subset hitem with
      | head => rfl
      | tail _ hitem => exact h.numbered item hitem hsome
    · refine ((waiting_perm.filterMap itemCopy).append_left _).subperm.trans ?_
      rw [List.filterMap_cons, copies, window, List.append_assoc]
      obtain hnone | hentry := moved
      · rw [hnone]
        exact (List.sublist_append_right _ _).subperm
      · rw [hentry]
        cases entryCopy m with
        | none => exact .refl _
        | some c => exact List.perm_middle.subperm
  unfold reforward
  split
  · rename_i hstatus
    have none_ : entryCopy m = none := by rw [entryCopy, if_neg (by rw [hstatus]; decide)]
    rw [none_] at window
    split
    · exact h.lose keyed h.numbered (by rw [copies, copies, window]; exact .refl _) rfl rfl
    · have same : waiting { s with
          outInflight := w, channel := s.channel ++ [.sendRerelease m] } = waiting s := by
        simp [waiting, Message.forwarded]
      refine h.lose keyed (by rw [same]; exact h.numbered) ?_ rfl rfl
      rw [copies, same, copies, window]
      exact .refl _
  · rename_i hstatus
    exact forwarded hstatus

theorem assignPacketId_same {w w' : OutInflight MsgId} {p p' : Publish}
    (h : assignPacketId w p = some (p', w')) : w'.queues = w.queues ∧ p'.qos = p.qos := by
  unfold assignPacketId at h
  split at h
  · split at h
    · cases h
    · rename_i packetId w hnext
      cases h
      obtain ⟨-, rfl⟩ := Prod.mk.inj hnext
      exact ⟨rfl, rfl⟩
  · cases h
    exact ⟨rfl, rfl⟩

/-- The packet id a publish is sent under: its own if it has one. -/
theorem assignPacketId_number {w w' : OutInflight MsgId} {p p' : Publish}
    (h : assignPacketId w p = some (p', w')) (qos : p.qos ≠ .atMostOnce)
    (numbered : p.packetId.isSome = true → p.dup = true) :
    ∃ packetId, p'.packetId = some packetId ∧ ∀ q, p.packetId = some q → q = packetId := by
  unfold assignPacketId at h
  split at h
  · rename_i hnew
    split at h
    · cases h
    · rename_i packetId w hnext
      cases h
      obtain ⟨hid, -⟩ := Prod.mk.inj hnext
      obtain ⟨hne, -⟩ := OutInflight.nextIdLoop_sound (Prod.ext hid rfl)
      refine ⟨⟨packetId, hne⟩, dif_pos hne, fun q hq => ?_⟩
      -- A publish with a packet id is a duplicate and keeps it.
      rw [numbered (by rw [hq]; rfl), hq] at hnew
      simp at hnew
  · rename_i hkeep
    cases h
    cases hid : p.packetId with
    | none => simp [qos, hid] at hkeep
    | some packetId => exact ⟨packetId, rfl, fun q hq => by cases hq; rfl⟩

theorem copies_deliver {s : State} {msg : MsgId} {p : Publish} {queue : List (MsgId × Publish)}
    (hqueue : s.queue = (msg, p) :: queue) :
    (copies s).Perm ((itemCopy (msg, p)).toList ++ copies { s with queue }) := by
  have hwaiting : (waiting s).Perm ((msg, p) :: waiting { s with queue }) := by
    rw [waiting, hqueue]
    exact List.perm_middle
  refine ((hwaiting.filterMap itemCopy).append_left _).trans ?_
  rw [List.filterMap_cons]
  cases itemCopy (msg, p) with
  | none => exact .refl _
  | some c => exact List.perm_middle

theorem waiting_deliver_subset {s : State} {item : MsgId × Publish}
    {queue : List (MsgId × Publish)} (hqueue : s.queue = item :: queue) {item' : MsgId × Publish}
    (h : item' ∈ waiting { s with queue }) : item' ∈ waiting s := by
  rw [waiting, hqueue]
  rw [waiting] at h
  rw [List.mem_append] at h ⊢
  exact h.imp_right (List.mem_cons_of_mem _)

/-- Taking a publish from the queue and dropping it. -/
theorem inv_dequeue {s : State} (h : Inv s) {item : MsgId × Publish}
    {queue : List (MsgId × Publish)} (hqueue : s.queue = item :: queue) : Inv { s with queue } :=
  h.lose h.keyed (fun _ hitem => h.numbered _ (waiting_deliver_subset hqueue hitem))
    ((List.sublist_append_right _ _).subperm.trans (copies_deliver hqueue).symm.subperm) rfl rfl

/-- Sending a publish that is no copy and putting it in the window. -/
theorem inv_send_other {s : State} (h : Inv s) {msg : MsgId} {p : Publish}
    (other : p.qos ≠ .exactlyOnce) {w : OutInflight MsgId} (keyed : w.WellKeyed)
    (le : (windowCopies w.queues).Subperm (windowCopies s.outInflight.queues)) :
    Inv { s with outInflight := w, toClient := s.toClient ++ [.publish msg p] } := by
  refine h.lose keyed h.numbered ((List.subperm_append_right _).mpr le) ?_ rfl
  refine (settled_send s (.publish msg p)).trans ?_
  rw [clientReceive]
  split <;> first | contradiction | rfl

/-- Sending a copy and putting it in the window. -/
theorem inv_send_copy {s : State} {msg : MsgId} {p : Publish} {packetId : NonZeroU16}
    (keyed : s.outInflight.WellKeyed)
    (numbered : ∀ item ∈ waiting s, item.2.packetId.isSome = true → item.2.dup = true)
    (qos : p.qos = .exactlyOnce) (id : p.packetId = some packetId) {o : Option NonZeroU16}
    (number : ∀ q, o = some q → q = packetId) (sound : Sound ((msg, o) :: copies s) (settled s))
    (known : ∀ c ∈ (msg, o) :: copies s, c.1 < s.handed)
    (logged : ∀ m ∈ (settled s).delivered, m < s.handed) :
    Inv { s with
      outInflight := (s.outInflight.pushBack ⟨p, msg, .unReceived, s.clock⟩).1
      toClient := s.toClient ++ [.publish msg p] } := by
  have sent : settled { s with
      outInflight := (s.outInflight.pushBack ⟨p, msg, .unReceived, s.clock⟩).1
      toClient := s.toClient ++ [.publish msg p] } = (settled s).publish packetId msg := by
    refine (settled_send s (.publish msg p)).trans ?_
    simp only [clientReceive, qos, id]
  have le : (copies { s with
      outInflight := (s.outInflight.pushBack ⟨p, msg, .unReceived, s.clock⟩).1
      toClient := s.toClient ++ [.publish msg p] }).Subperm ((msg, some packetId) :: copies s) := by
    have window := windowCopies_pushBack_subperm keyed ⟨p, msg, .unReceived, s.clock⟩
    rw [entryCopy, if_pos rfl, id] at window
    exact (List.subperm_append_right _).mpr window
  refine ⟨keyed.pushBack fun hstatus => (by cases hstatus), numbered, ?_, fun c hc => ?_,
    fun m hm => ?_⟩
  · rw [sent]
    exact (sound.publish number).subperm le
  · cases le.subset hc with
    | head => exact known (msg, o) List.mem_cons_self
    | tail _ hc => exact known c (List.mem_cons_of_mem _ hc)
  · rw [sent] at hm
    obtain hm | rfl := Receiver.mem_delivered_publish hm
    · exact logged m hm
    · exact known (m, o) List.mem_cons_self

theorem inv_deliver {s s' : State} (h : Inv s) {msg : MsgId} {p : Publish}
    {queue : List (MsgId × Publish)} (hqueue : s.queue = (msg, p) :: queue) {expired : Bool}
    (hstep : deliver { s with queue } msg p expired = some s') : Inv s' := by
  have rest := inv_dequeue h hqueue
  have hitem : (msg, p) ∈ waiting s := by
    rw [waiting, hqueue]
    exact List.mem_append_right _ List.mem_cons_self
  unfold deliver at hstep
  split at hstep
  · cases hstep
    exact rest
  · obtain ⟨⟨p', w⟩, hassign, rfl⟩ := Option.map_eq_some_iff.mp hstep
    obtain ⟨hqueues, hqos⟩ := assignPacketId_same hassign
    have keyed : w.WellKeyed := h.keyed.sublist (by rw [hqueues])
    have window : windowCopies w.queues = windowCopies s.outInflight.queues := by rw [hqueues]
    cases hp : p'.qos with
    | atMostOnce =>
        simp only [hp]
        exact inv_send_other rest (by rw [hp]; decide) keyed (by rw [window])
    | atLeastOnce =>
        simp only [hp]
        refine inv_send_other rest (by rw [hp]; decide)
          (keyed.pushBack fun _ => by rw [hp]; decide) ?_
        refine (windowCopies_pushBack_subperm keyed _).trans ?_
        rw [window]
        exact .refl _
    | exactlyOnce =>
        simp only [hp]
        rw [hqos] at hp
        obtain ⟨packetId, hp', number⟩ :=
          assignPacketId_number hassign (by rw [hp]; decide) (h.numbered _ hitem)
        have perm := copies_deliver hqueue
        rw [itemCopy, if_pos hp] at perm
        have same : copies { s with queue, outInflight := w } = copies { s with queue } := by
          simp only [copies, window]
          rfl
        refine inv_send_copy (s := { s with queue, outInflight := w }) keyed rest.numbered
          (hqos.trans hp) hp' number ?_ ?_ h.logged
        · rw [same]
          exact h.sound.subperm perm.symm.subperm
        · rw [same]
          exact fun c hc => h.known c (perm.symm.subset hc)

/-- The channel arm moves a publish to the queue, where it or an earlier one may
be dropped. -/
theorem inv_message_forward {s : State} (h : Inv s) {msg : MsgId} {p : Publish}
    {channel : List Message} (hchannel : s.channel = .forward msg p :: channel) :
    Inv { s with
      channel, queue := (DeliverQueue.send s.queueCap deliverPolicy s.queue (msg, p)).1 } := by
  have le : (waiting { s with
      channel, queue := (DeliverQueue.send s.queueCap deliverPolicy s.queue (msg, p)).1 }).Subperm
      (waiting s) := by
    rw [waiting, waiting, hchannel, List.filterMap_cons]
    refine ((DeliverQueue.send_sublist _ _ _ _).append_left _).subperm.trans ?_
    rw [← List.append_assoc]
    exact List.perm_append_comm.subperm
  obtain ⟨l, perm, sub⟩ := le
  refine h.lose h.keyed (fun item hitem => h.numbered item (sub.subset (perm.symm.subset hitem)))
    ((List.subperm_append_left _).mpr ?_) rfl rfl
  exact ⟨_, perm.filterMap itemCopy, sub.filterMap itemCopy⟩

/-- A PUBREL for a packet id that no copy carries, with a window that has lost
copies at most. -/
theorem inv_release {s : State} (h : Inv s) {w : OutInflight MsgId} (keyed : w.WellKeyed)
    (le : (windowCopies w.queues).Subperm (windowCopies s.outInflight.queues))
    {packetId : NonZeroU16} (acked : ∀ e ∈ w.queues, e.1 = packetId.val → e.2.status = .unComplete)
    (idle : ¬ Waits s packetId) (reason : Option PublishAck2Reason) :
    Inv { s with
      outInflight := w
      toClient := s.toClient ++ [.publishRelease packetId reason] } := by
  have lost : Inv { s with outInflight := w } :=
    h.lose keyed h.numbered ((List.subperm_append_right _).mpr le) rfl rfl
  have unused : ∀ m, (m, some packetId) ∉ copies { s with outInflight := w } := by
    intro m hmem
    obtain hmem | hmem := List.mem_append.mp hmem
    · exact not_mem_windowCopies keyed acked m hmem
    · exact not_mem_waiting idle m hmem
  have sent : settled { s with
      outInflight := w
      toClient := s.toClient ++ [.publishRelease packetId reason] } =
        (settled s).release packetId := settled_send s _
  refine ⟨keyed, h.numbered, ?_, lost.known, ?_⟩
  · rw [sent]
    exact lost.sound.release unused
  · rw [sent]
    exact h.logged

theorem inv_sendRerelease {s s' : State} (h : Inv s) {m : OutInflightMessage MsgId}
    {channel : List Message} (hchannel : s.channel = .sendRerelease m :: channel)
    (idle : ReleasesIdle s .message)
    (hstep : sendRerelease { s with channel } m = some s') : Inv s' := by
  have same : waiting { s with channel } = waiting s := by
    rw [waiting, waiting, hchannel]
    rfl
  have rest : Inv { s with channel } := by
    refine h.lose h.keyed (by rw [same]; exact h.numbered) ?_ rfl rfl
    rw [copies, same]
    exact .refl _
  unfold sendRerelease at hstep
  split at hstep
  · cases hstep
  · rename_i packetId hid
    cases hstep
    refine inv_release rest (h.keyed.pushBack fun hstatus => (by cases hstatus))
      (windowCopies_pushBack_subperm h.keyed _) (fun e he hkey => ?_) ?_ _
    · simp only [OutInflight.pushBack, hid] at he
      obtain rfl | ⟨-, hne⟩ := OutInflight.mem_insertEntry he
      · rfl
      · exact absurd hkey hne
    · rw [Waits, same]
      exact idle packetId (by simp [releases, hchannel, hid])

theorem inv_packet {s : State} (h : Inv s) {ack : Ack} {toServer : List Ack}
    (hlink : s.toServer = ack :: toServer) (idle : ReleasesIdle s .packet) :
    Inv (processAck { s with toServer } ack) := by
  have rest : Inv { s with toServer } := ⟨h.keyed, h.numbered, h.sound, h.known, h.logged⟩
  have removed : ∀ packetId : PacketId,
      Inv { s with toServer, outInflight := (s.outInflight.remove packetId).2 } := by
    intro packetId
    have sub := s.outInflight.queues_remove_sublist packetId
    exact rest.lose (h.keyed.sublist sub) h.numbered
      ((List.subperm_append_right _).mpr (windowCopies_sublist sub).subperm) rfl rfl
  cases ack with
  | publishAck packetId => exact removed packetId.val
  | publishComplete packetId => exact removed packetId.val
  | publishReceived packetId =>
      refine inv_release rest (h.keyed.updateStatus _ _)
        (windowCopies_updateStatus_sublist _ _ _).subperm (fun e he hkey => ?_) ?_ _
      · obtain ⟨e', -, rfl⟩ := List.mem_map.mp he
        split at hkey
        · rw [if_pos (by assumption)]
          rfl
        · exact absurd hkey (by assumption)
      · exact idle packetId (by simp [releases, hlink])

theorem step_inv {s s' : State} {a : Step} (h : Inv s) (idle : ReleasesIdle s a)
    (hstep : step s a = some s') : Inv s' := by
  cases a with
  | forward p =>
      cases hstep
      exact inv_forward h p
  | tick elapsed =>
      cases hstep
      exact ⟨h.keyed, h.numbered, h.sound, h.known, h.logged⟩
  | timeout expired =>
      obtain ⟨⟨m, w⟩, hpop, rfl⟩ := Option.map_eq_some_iff.mp hstep
      exact inv_timeout h hpop expired
  | deliver expired =>
      simp only [step] at hstep
      split at hstep
      · cases hstep
      · rename_i msg p queue hqueue
        split at hstep
        · exact inv_deliver h hqueue hstep
        · cases hstep
  | message =>
      simp only [step] at hstep
      split at hstep
      · cases hstep
      · rename_i m channel hchannel
        cases m with
        | forward msg p =>
            cases hstep
            exact inv_message_forward h hchannel
        | sendRerelease m => exact inv_sendRerelease h hchannel idle hstep
  | packet =>
      simp only [step] at hstep
      split at hstep
      · cases hstep
      · rename_i ack toServer hlink
        cases hstep
        exact inv_packet h hlink idle
  | client =>
      simp only [step] at hstep
      split at hstep
      · cases hstep
      · rename_i packet toClient hlink
        cases hstep
        have same : settled { s with
            toClient
            client := (clientReceive s.client packet).1
            toServer := s.toServer ++ (clientReceive s.client packet).2 } = settled s := by
          simp only [settled, hlink, List.foldl_cons]
        exact h.lose h.keyed h.numbered (.refl _) same rfl

/-! ## The log of the client -/

theorem delivered_sublist_clientReceive (r : Receiver MsgId NonZeroU16) (packet : Packet) :
    r.delivered.Sublist (clientReceive r packet).1.delivered := by
  cases packet with
  | publishRelease packetId reason => exact .refl _
  | publish msg p =>
      rw [clientReceive]
      split
      · unfold Receiver.publish
        split
        · exact .refl _
        · exact List.sublist_append_left _ _
      · exact .refl _
      · exact .refl _

theorem delivered_sublist_settled (packets : List Packet) (r : Receiver MsgId NonZeroU16) :
    r.delivered.Sublist (packets.foldl (fun r packet => (clientReceive r packet).1) r).delivered := by
  induction packets generalizing r with
  | nil => exact .refl _
  | cons packet packets ih => exact (delivered_sublist_clientReceive r packet).trans (ih _)

/-- In every run whose steps release no waiting packet id, whatever the order of
timeouts, packets and messages, the client's application gets every QoS 2 message
at most once. -/
theorem outbound_at_most_once (version : Version) (cap : Nat)
    (retryInterval expiryInterval : TimestampMillis) (toBack : Bool) (queueCap : Nat)
    {steps : List Step} {s : State}
    (idle : Machine.Guarded step ReleasesIdle
      (initial version cap retryInterval expiryInterval toBack queueCap) steps)
    (ran : Machine.run step
      (initial version cap retryInterval expiryInterval toBack queueCap) steps = some s) :
    s.client.delivered.Nodup := by
  have inv := Machine.invariant_guarded (fun _ _ _ h hidle hstep => step_inv h hidle hstep) idle ran
    (inv_initial version cap retryInterval expiryInterval toBack queueCap)
  exact inv.sound.log.sublist (delivered_sublist_settled s.toClient s.client)

/-- A QoS 2 publish as `forwards_to` takes it. -/
def reading : Publish where
  dup := false
  retain := false
  qos := .exactlyOnce
  topic := "a"
  packetId := none
  payload := []
  properties := none

/-- The handshake without a timeout, up to the PUBCOMP. -/
def handshake : List Step :=
  [.forward reading, .message, .deliver false, .client, .packet, .client, .packet]

theorem outbound_at_most_once_handshake :
    ∃ s, Machine.run step (initial .v5 16 20000 0 true 1000) handshake = some s ∧
      s.client.delivered = [0] ∧ s.client.delivered.Nodup := by
  have guarded : Machine.Guarded step ReleasesIdle (initial .v5 16 20000 0 true 1000) handshake := by
    decide
  exact ⟨_, rfl, by decide, outbound_at_most_once .v5 16 20000 0 true 1000 guarded rfl⟩

/-- The retransmission interval passes while the PUBREC is on the way: the copy is
moved to the channel, the PUBREC releases its packet id, and the copy is sent and
delivered again. -/
theorem late_pubrec_repeats :
    ∃ s, Machine.run step (initial .v5 16 20000 0 true 1000)
      [.forward reading, .message, .deliver false, .client, .tick 20000, .timeout false, .packet,
        .client, .message, .deliver false, .client] = some s ∧
      s.client.delivered = [0, 0] ∧ ¬ s.client.delivered.Nodup :=
  ⟨_, rfl, by decide, by decide⟩

end OxiMqtt.Session.Outbound

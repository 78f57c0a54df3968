import OxiMqtt.Session.PacketIds

/-!
# Handshakes that a resumed session does not take up

A session that is resumed gets the inflight messages of the earlier one, each with its packet id and
its state.  `transfer_session_state` sends those that wait for a PUBACK or a PUBREC again, as
duplicates under their packet ids, and skips those that wait for a PUBCOMP: the client has them.  A
message that is skipped is not in the resumed session: no PUBREL is sent for it and its packet id is
not reserved.  A PUBREL under its id only answers a PUBREC of the client.

* `dropped`: the messages that were skipped.
* `Cause`: why a PUBREL was sent.
* `resumption_sends_again`: what becomes of the messages of the earlier session, in every run.
* `unreleased_after_resumption`: a handshake that the resumed session does not complete.
-/

namespace OxiMqtt.Session.Resumption

open OxiMqtt.Codec (QoS NonZeroU16 Publish)
open Outbound (MsgId Message Packet)
open Acks (AckPacket Step)

/-! ## The steps -/

/-- Why a PUBREL was sent. -/
inductive Cause : Type
  /-- The client has sent a PUBREC. -/
  | answer (packetId : NonZeroU16)
  /-- This session has sent the message and its PUBREL before. -/
  | again (msg : MsgId) (packetId : NonZeroU16)
  deriving DecidableEq, Repr

def Cause.packetId : Cause → NonZeroU16
  | answer packetId => packetId
  | again _ packetId => packetId

structure State : Type where
  ids : PacketIds.State
  dropped : List MsgId := []
  causes : List Cause := []

/-- The messages that a transfer skips. -/
def skipped : Step → List MsgId
  | .transfer inflight _ =>
      (inflight.filter fun m => m.status = .unComplete).map OutInflightMessage.origin
  | _ => []

/-- The PUBREL of a step. -/
def caused (s : Outbound.State) : Step → List Cause
  | .receive (.publishReceived packetId _) => [.answer packetId]
  | .arm .message =>
      match s.channel with
      | .sendRerelease m :: _ => (m.publish.packetId.map (Cause.again m.origin)).toList
      | _ => []
  | _ => []

def step (s : State) (a : Step) : Option State :=
  (PacketIds.step s.ids a).map fun ids =>
    { ids
      dropped := s.dropped ++ skipped a
      causes := s.causes ++ caused s.ids.acks.session a }

/-- A connection at its start. -/
def initial (version : Outbound.Version) (cap : NonZeroU16)
    (retryInterval expiryInterval : TimestampMillis) (toBack : Bool) (queueCap : Nat) : State where
  ids := PacketIds.initial version cap retryInterval expiryInterval toBack queueCap

/-! ## Where a message can be -/

def messageOrigin : Message → MsgId
  | .forward msg _ => msg
  | .sendRerelease m => m.origin

def publishOrigin : Packet → Option MsgId
  | .publish msg _ => some msg
  | .publishRelease _ _ => none

def releasedId : Packet → Option NonZeroU16
  | .publishRelease packetId _ => some packetId
  | .publish _ _ => none

/-- The messages in the window, the channel and the deliver queue, and those that were sent. -/
def present (s : Outbound.State) : List MsgId :=
  s.outInflight.queues.map (fun e => e.2.origin) ++ s.channel.map messageOrigin ++
    s.queue.map Prod.fst ++ s.toClient.filterMap publishOrigin

variable {s s' : Outbound.State} {msg : MsgId}

theorem mem_present : msg ∈ present s ↔
    (∃ e ∈ s.outInflight.queues, e.2.origin = msg) ∨
      (∃ m ∈ s.channel, messageOrigin m = msg) ∨ (∃ item ∈ s.queue, item.1 = msg) ∨
      ∃ packet ∈ s.toClient, publishOrigin packet = some msg := by
  simp only [present, List.mem_append, List.mem_map, List.mem_filterMap, or_assoc]

/-- A message stays the one that was published. -/
def origin : Outbound.Label MsgId where
  ofEntry m := some m.origin
  ofItem item := some item.1
  again _ _ h := h
  updated _ _ _ := rfl

theorem mem_present_iff_carried : msg ∈ present s ↔
    origin.Carried s msg ∨ ∃ packet ∈ s.toClient, publishOrigin packet = some msg := by
  have messages : ∀ m, origin.ofMessage m = some (messageOrigin m) := by
    intro m
    cases m <;> rfl
  simp only [mem_present, Outbound.Label.Carried, messages, Option.some.injEq, or_assoc]
  simp only [origin, Option.some.injEq]

theorem present_timeout {expired : Bool} (h : Outbound.step s (.timeout expired) = some s') :
    ∀ msg ∈ present s', msg ∈ present s := by
  intro msg hmsg
  rw [mem_present_iff_carried] at *
  rcases hmsg with carried | link
  · exact .inl (Outbound.Label.carried_timeout h carried)
  · obtain ⟨key, m, w, -, rfl⟩ := Outbound.step_timeout h
    exact .inr link

theorem present_deliver {expired : Bool} (h : Outbound.step s (.deliver expired) = some s') :
    ∀ msg ∈ present s', msg ∈ present s := by
  intro msg hmsg
  obtain ⟨msg', p, queue, head, ⟨-, rfl⟩ | ⟨-, p', w, assigned, rfl⟩⟩ := Outbound.step_deliver h
  · rw [mem_present, head] at *
    rcases hmsg with window | channel | ⟨item, member, own⟩ | link
    · exact .inl window
    · exact .inr (.inl channel)
    · exact .inr (.inr (.inl ⟨item, List.mem_cons_of_mem _ member, own⟩))
    · exact .inr (.inr (.inr link))
  · have queued : ∃ item ∈ s.queue, item.1 = msg' := ⟨(msg', p), by rw [head]; simp, rfl⟩
    rw [mem_present] at hmsg ⊢
    rcases hmsg with ⟨e, member, own⟩ | channel | ⟨item, member, own⟩ | ⟨packet, member, own⟩
    · rcases Outbound.mem_sentWindow member with ⟨-, origin, -⟩ | ⟨old, -⟩
      · rw [← own, origin]
        exact .inr (.inr (.inl queued))
      · rw [(Outbound.assignPacketId_same assigned).1] at old
        exact .inl ⟨e, old, own⟩
    · exact .inr (.inl channel)
    · refine .inr (.inr (.inl ⟨item, ?_, own⟩))
      rw [head]
      exact List.mem_cons_of_mem _ member
    · rcases List.mem_append.mp member with old | new
      · exact .inr (.inr (.inr ⟨packet, old, own⟩))
      · rw [List.mem_singleton.mp new] at own
        cases own
        exact .inr (.inr (.inl queued))

/-- A PUBREL on the link is no message. -/
theorem sent_of_append {packetId : NonZeroU16} {reason : Option Codec.V5.PublishAck2Reason}
    (h : ∃ packet ∈ s.toClient ++ [.publishRelease packetId reason],
      publishOrigin packet = some msg) :
    ∃ packet ∈ s.toClient, publishOrigin packet = some msg := by
  obtain ⟨packet, member, own⟩ := h
  rcases List.mem_append.mp member with old | new
  · exact ⟨packet, old, own⟩
  · rw [List.mem_singleton.mp new] at own
    cases own

theorem present_message (h : Outbound.step s .message = some s') :
    ∀ msg ∈ present s', msg ∈ present s := by
  intro msg hmsg
  rw [mem_present_iff_carried] at *
  rcases hmsg with carried | link
  · exact .inl (Outbound.Label.carried_message h carried)
  · rcases Outbound.step_message h with ⟨msg', p, channel, -, rfl⟩ |
      ⟨m, packetId, channel, -, -, rfl⟩
    · exact .inr link
    · exact .inr (sent_of_append link)

theorem present_receive (packet : AckPacket) :
    ∀ msg ∈ present (Acks.receive s packet), msg ∈ present s := by
  intro msg hmsg
  rw [mem_present_iff_carried] at *
  rcases hmsg with carried | link
  · exact .inl (Acks.carried_receive carried)
  · cases packet with
    | publishAck packetId => exact .inr link
    | publishReceived packetId reason => exact .inr (sent_of_append link)
    | publishRelease packetId => exact .inr link
    | publishComplete packetId => exact .inr link

/-! ## The invariant -/

/-- A message that was skipped is nowhere in the session and has caused no PUBREL; the PUBRELs on the
link are those with a cause. -/
structure Inv (s : State) : Prop where
  dropped : ∀ msg ∈ s.dropped, msg < s.ids.acks.session.handed
  present : ∀ msg ∈ present s.ids.acks.session,
    msg < s.ids.acks.session.handed ∧ msg ∉ s.dropped
  causes : ∀ msg packetId, .again msg packetId ∈ s.causes →
    msg < s.ids.acks.session.handed ∧ msg ∉ s.dropped
  logged : s.ids.acks.session.toClient.filterMap releasedId = s.causes.map Cause.packetId

theorem inv_initial (version : Outbound.Version) (cap : NonZeroU16)
    (retryInterval expiryInterval : TimestampMillis) (toBack : Bool) (queueCap : Nat) :
    Inv (initial version cap retryInterval expiryInterval toBack queueCap) where
  dropped := fun msg h => (by cases h)
  present := fun msg h => (by cases h)
  causes := fun msg packetId h => (by cases h)
  logged := rfl

/-- A step that skips no message and only moves those there are. -/
theorem Inv.move {s : State} (inv : Inv s) {ids : PacketIds.State} {causes : List Cause}
    (moves : ∀ msg ∈ Resumption.present ids.acks.session,
      msg ∈ Resumption.present s.ids.acks.session)
    (handed : ids.acks.session.handed = s.ids.acks.session.handed)
    (again : ∀ msg packetId, .again msg packetId ∈ causes →
      msg ∈ Resumption.present s.ids.acks.session)
    (logged : ids.acks.session.toClient.filterMap releasedId =
      s.ids.acks.session.toClient.filterMap releasedId ++ causes.map Cause.packetId) :
    Inv { ids, dropped := s.dropped ++ [], causes := s.causes ++ causes } where
  dropped := by
    rw [handed, List.append_nil]
    exact inv.dropped
  present := by
    rw [handed, List.append_nil]
    exact fun msg hmsg => inv.present msg (moves msg hmsg)
  causes := by
    rw [handed, List.append_nil]
    intro msg packetId h
    rcases List.mem_append.mp h with old | new
    · exact inv.causes msg packetId old
    · exact inv.present msg (again msg packetId new)
  logged := by
    rw [logged, inv.logged, List.map_append]

/-- A step that hands new messages to the session and skips others, all numbered on. -/
theorem Inv.grow {s : State} (inv : Inv s) {ids : PacketIds.State} {skip new : List MsgId}
    (moves : ∀ msg ∈ Resumption.present ids.acks.session,
      msg ∈ Resumption.present s.ids.acks.session ∨ msg ∈ new)
    (later : s.ids.acks.session.handed ≤ ids.acks.session.handed)
    (numbered : ∀ msg ∈ skip ++ new,
      s.ids.acks.session.handed ≤ msg ∧ msg < ids.acks.session.handed)
    (apart : ∀ msg ∈ new, msg ∉ skip)
    (link : ids.acks.session.toClient = s.ids.acks.session.toClient) :
    Inv { ids, dropped := s.dropped ++ skip, causes := s.causes ++ [] } := by
  have unskipped : ∀ msg, msg < s.ids.acks.session.handed → msg ∉ s.dropped →
      msg < ids.acks.session.handed ∧ msg ∉ s.dropped ++ skip := by
    intro msg known kept
    refine ⟨known.trans_le later, fun h => ?_⟩
    rcases List.mem_append.mp h with old | new
    · exact kept old
    · exact absurd (numbered msg (List.mem_append_left _ new)).1 (Nat.not_le.mpr known)
  constructor
  · intro msg h
    rcases List.mem_append.mp h with old | new
    · exact (inv.dropped msg old).trans_le later
    · exact (numbered msg (List.mem_append_left _ new)).2
  · intro msg h
    rcases moves msg h with old | added
    · obtain ⟨known, kept⟩ := inv.present msg old
      exact unskipped msg known kept
    · obtain ⟨fresh, bound⟩ := numbered msg (List.mem_append_right _ added)
      refine ⟨bound, fun h => ?_⟩
      rcases List.mem_append.mp h with old | new
      · exact absurd (inv.dropped msg old) (Nat.not_lt.mpr fresh)
      · exact apart msg added new
  · intro msg packetId h
    rw [List.append_nil] at h
    obtain ⟨known, kept⟩ := inv.causes msg packetId h
    exact unskipped msg known kept
  · rw [link, List.append_nil]
    exact inv.logged

theorem inv_message {s : State} {ids : PacketIds.State} (inv : Inv s)
    (taken : Outbound.step s.ids.acks.session .message = some ids.acks.session) :
    Inv { ids, dropped := s.dropped ++ [],
          causes := s.causes ++ caused s.ids.acks.session (.arm .message) } := by
  have moves := present_message taken
  rcases Outbound.step_message taken with ⟨msg, p, channel, head, after⟩ |
    ⟨m, packetId, channel, head, id, after⟩
  · have silent : caused s.ids.acks.session (.arm .message) = [] := by simp [caused, head]
    apply inv.move moves
    · rw [after]
    · simp [silent]
    · rw [after, silent]
      simp
  · have sent : caused s.ids.acks.session (.arm .message) = [.again m.origin packetId] := by
      simp [caused, head, id]
    apply inv.move moves
    · rw [after]
    · intro msg packetId' h
      rw [sent, List.mem_singleton] at h
      cases h
      refine mem_present.mpr (.inr (.inl ⟨.sendRerelease m, ?_, rfl⟩))
      rw [head]
      exact List.mem_cons_self
    · rw [after, sent]
      simp [releasedId, Cause.packetId]

theorem inv_receive {s : State} {ids : PacketIds.State} (inv : Inv s) (packet : AckPacket)
    (after : ids.acks.session = Acks.receive s.ids.acks.session packet) :
    Inv { ids, dropped := s.dropped ++ [],
          causes := s.causes ++ caused s.ids.acks.session (.receive packet) } := by
  have moves : ∀ msg ∈ present ids.acks.session, msg ∈ present s.ids.acks.session := by
    rw [after]
    exact present_receive packet
  apply inv.move moves
  · rw [after]
    cases packet <;> rfl
  · intro msg packetId h
    cases packet <;> simp [caused] at h
  · rw [after]
    cases packet with
    | publishAck packetId => simp [caused, Acks.receive, AckPacket.outbound, Outbound.processAck]
    | publishReceived packetId reason =>
        simp [caused, Acks.receive, AckPacket.outbound, Outbound.processAck, releasedId,
          Cause.packetId]
    | publishRelease packetId => simp [caused, Acks.receive, AckPacket.outbound]
    | publishComplete packetId =>
        simp [caused, Acks.receive, AckPacket.outbound, Outbound.processAck]

/-- An arm that sends no PUBREL. -/
theorem inv_arm {s : State} {ids : PacketIds.State} (inv : Inv s) {a : Outbound.Step}
    (packet : a ≠ .packet) (client : a ≠ .client)
    (taken : Outbound.step s.ids.acks.session a = some ids.acks.session) :
    Inv { ids, dropped := s.dropped ++ [],
          causes := s.causes ++ caused s.ids.acks.session (.arm a) } := by
  cases a with
  | message => exact inv_message inv taken
  | forward p =>
      have after := (Option.some.inj taken).symm
      refine @Inv.grow s inv ids [] [s.ids.acks.session.handed] ?_ ?_ ?_ (by simp) ?_
      · intro msg h
        rw [after, mem_present] at h
        rw [mem_present, List.mem_singleton]
        rcases h with window | ⟨m, member, own⟩ | elsewhere
        · exact .inl (.inl window)
        · rcases List.mem_append.mp member with old | new
          · exact .inl (.inr (.inl ⟨m, old, own⟩))
          · rw [List.mem_singleton.mp new] at own
            exact .inr own.symm
        · exact .inl (.inr (.inr elsewhere))
      · rw [after]
        exact Nat.le_succ _
      · rw [after]
        simp
      · rw [after]
  | tick elapsed =>
      have after := (Option.some.inj taken).symm
      apply inv.move
      · rw [after]
        exact fun msg h => h
      · rw [after]
      · simp [caused]
      · rw [after]
        simp [caused]
  | timeout expired =>
      have moves := present_timeout taken
      obtain ⟨key, m, w, -, after⟩ := Outbound.step_timeout taken
      apply inv.move moves
      · rw [after]
      · simp [caused]
      · rw [after]
        simp [caused]
  | deliver expired =>
      have moves := present_deliver taken
      obtain ⟨msg, p, queue, -, ⟨-, after⟩ | ⟨-, p', w, -, after⟩⟩ := Outbound.step_deliver taken
      · apply inv.move moves
        · rw [after]
        · simp [caused]
        · rw [after]
          simp [caused]
      · apply inv.move moves
        · rw [after]
        · simp [caused]
        · rw [after]
          simp [caused, releasedId]
  | packet => exact absurd rfl packet
  | client => exact absurd rfl client

/-- The messages that a transfer sends again or forwards. -/
theorem origin_transferred {inflight : List (OutInflightMessage MsgId)}
    {offline : List (MsgId × Publish)} {m : Message}
    (h : m ∈ Window.transferred inflight offline) :
    (∃ i ∈ inflight, i.status ≠ .unComplete ∧ messageOrigin m = i.origin) ∨
      ∃ item ∈ offline, messageOrigin m = item.1 := by
  rcases List.mem_append.mp h with again | forwarded
  · obtain ⟨i, member, rfl⟩ := List.mem_map.mp again
    obtain ⟨member, status⟩ := List.mem_filter.mp member
    exact .inl ⟨i, List.mem_reverse.mp member, of_decide_eq_true status, rfl⟩
  · obtain ⟨item, member, rfl⟩ := List.mem_map.mp forwarded
    exact .inr ⟨item, member, rfl⟩

/-- What is numbered on has one number each: a message that is skipped is none of the others. -/
theorem not_skipped {inflight : List (OutInflightMessage MsgId)} {offline : List (MsgId × Publish)}
    (distinct : (PacketIds.origins inflight offline).Nodup) {m : Message}
    (h : m ∈ Window.transferred inflight offline) :
    messageOrigin m ∉ skipped (.transfer inflight offline) := by
  intro skip
  obtain ⟨i, member, same⟩ := List.mem_map.mp skip
  obtain ⟨member, status⟩ := List.mem_filter.mp member
  have completes : i.status = .unComplete := of_decide_eq_true status
  obtain ⟨own, -, others⟩ := List.nodup_append.mp distinct
  rcases origin_transferred h with ⟨i', member', waits, origin⟩ | ⟨item, member', origin⟩
  · rw [origin] at same
    rw [List.inj_on_of_nodup_map own member member' same] at completes
    exact waits completes
  · exact others i.origin (List.mem_map_of_mem member) item.1 (List.mem_map_of_mem member')
      (same.trans origin)

theorem inv_transfer {s : State} {ids : PacketIds.State} (inv : Inv s)
    {inflight : List (OutInflightMessage MsgId)} {offline : List (MsgId × Publish)}
    (h : PacketIds.step s.ids (.transfer inflight offline) = some ids) :
    Inv { ids, dropped := s.dropped ++ skipped (.transfer inflight offline),
          causes := s.causes ++ [] } := by
  obtain ⟨numbered, after⟩ := PacketIds.step_transfer h
  have inRange : ∀ msg ∈ PacketIds.origins inflight offline,
      s.ids.acks.session.handed ≤ msg ∧ msg < ids.acks.session.handed := by
    intro msg member
    rw [numbered, List.mem_range'_1] at member
    rw [after]
    exact member
  apply @Inv.grow s inv ids _ ((Window.transferred inflight offline).map messageOrigin)
  · intro msg h
    rw [after, mem_present] at h
    rw [mem_present]
    rcases h with window | ⟨m, member, own⟩ | elsewhere
    · exact .inl (.inl window)
    · rcases List.mem_append.mp member with old | new
      · exact .inl (.inr (.inl ⟨m, old, own⟩))
      · exact .inr (List.mem_map.mpr ⟨m, new, own⟩)
    · exact .inl (.inr (.inr elsewhere))
  · rw [after]
    exact Nat.le_add_right _ _
  · intro msg h
    apply inRange
    rcases List.mem_append.mp h with skip | sent
    · obtain ⟨i, member, rfl⟩ := List.mem_map.mp skip
      exact List.mem_append_left _ (List.mem_map_of_mem (List.mem_filter.mp member).1)
    · obtain ⟨m, member, rfl⟩ := List.mem_map.mp sent
      rcases origin_transferred member with ⟨i, member, -, origin⟩ | ⟨item, member, origin⟩
      · rw [origin]
        exact List.mem_append_left _ (List.mem_map_of_mem member)
      · rw [origin]
        exact List.mem_append_right _ (List.mem_map_of_mem member)
  · intro msg h
    obtain ⟨m, member, rfl⟩ := List.mem_map.mp h
    refine not_skipped ?_ member
    rw [numbered]
    exact List.nodup_range'
  · rw [after]

theorem inv_step {s s' : State} (a : Step) (inv : Inv s) (h : step s a = some s') : Inv s' := by
  obtain ⟨ids, moved, rfl⟩ := Option.map_eq_some_iff.mp h
  cases a with
  | arm a =>
      obtain ⟨packet, client, taken⟩ := PacketIds.step_arm moved
      exact inv_arm inv packet client taken
  | receive packet =>
      cases moved
      exact inv_receive inv packet rfl
  | transfer inflight offline => exact inv_transfer inv moved

/-! ## Runs -/

/-- In every run of a session that takes over what an earlier one has left.  A transfer sends the
inflight messages that wait for a PUBACK or a PUBREC again, as duplicates under their packet ids, and
drops those that wait for a PUBCOMP.  A message that was dropped is not in the window, the channel or
the deliver queue and is not sent, no packet id is reserved for it, and every PUBREL answers a PUBREC
of the client or is sent again for a message that was not dropped. -/
theorem resumption_sends_again (version : Outbound.Version) (cap : NonZeroU16)
    (retryInterval expiryInterval : TimestampMillis) (toBack : Bool) (queueCap : Nat)
    (steps : List Step) (s : State)
    (ran : Machine.run step (initial version cap retryInterval expiryInterval toBack queueCap) steps =
      some s) :
    (∀ inflight offline s', step s (.transfer inflight offline) = some s' → ∀ m ∈ inflight,
      (m.status = .unComplete → m.origin ∈ s'.dropped) ∧
      (m.status ≠ .unComplete →
        .forward m.origin { m.publish with dup := true } ∈ s'.ids.acks.session.channel)) ∧
    (∀ msg ∈ s.dropped, msg ∉ present s.ids.acks.session) ∧
    (∀ e ∈ s.ids.acks.session.outInflight.queues, e.2.origin ∉ s.dropped) ∧
    s.ids.acks.session.toClient.filterMap releasedId = s.causes.map Cause.packetId ∧
    ∀ msg packetId, .again msg packetId ∈ s.causes → msg ∉ s.dropped := by
  have inv := Machine.invariant_run (fun _ a _ inv h => inv_step a inv h) ran
    (inv_initial version cap retryInterval expiryInterval toBack queueCap)
  refine ⟨?_, fun msg dropped here => (inv.present msg here).2 dropped, fun e he => ?_, inv.logged,
    fun msg packetId h => (inv.causes msg packetId h).2⟩
  · intro inflight offline s' h m member
    obtain ⟨ids, moved, rfl⟩ := Option.map_eq_some_iff.mp h
    obtain ⟨-, after⟩ := PacketIds.step_transfer moved
    constructor
    · intro completes
      apply List.mem_append_right
      exact List.mem_map_of_mem (List.mem_filter.mpr ⟨member, decide_eq_true completes⟩)
    · intro waits
      rw [after]
      apply List.mem_append_right
      apply List.mem_append_left
      exact List.mem_map_of_mem
        (List.mem_filter.mpr ⟨List.mem_reverse.mpr member, decide_eq_true waits⟩)
  · exact (inv.present e.2.origin (mem_present.mpr (.inl ⟨e, he, rfl⟩))).2

/-- A QoS 2 message of the earlier session, sent there with the id 1. -/
def interrupted (status : MomentStatus) (origin : MsgId) : OutInflightMessage MsgId where
  publish := { Outbound.reading with packetId := some Window.single }
  origin := origin
  status := status
  updateTime := 0

/-- One message waits for its PUBREC and one for its PUBCOMP. -/
def resumed : List Step :=
  [.transfer [interrupted .unReceived 0, interrupted .unComplete 1] [], .arm .message,
    .arm (.deliver false)]

theorem resumption_sends_again_unreceived :
    ∃ s, Machine.run step (initial .v5 Window.single 20000 0 true 1000) resumed = some s ∧
      s.dropped = [1] ∧ s.ids.acks.session.toClient.length = 1 ∧
      ∀ msg ∈ s.dropped, msg ∉ present s.ids.acks.session := by
  obtain ⟨s, ran, dropped, sent⟩ :
      ∃ s, Machine.run step (initial .v5 Window.single 20000 0 true 1000) resumed = some s ∧
        s.dropped = [1] ∧ s.ids.acks.session.toClient.length = 1 := ⟨_, rfl, rfl, rfl⟩
  have spec := resumption_sends_again .v5 Window.single 20000 0 true 1000 resumed s ran
  exact ⟨s, ran, dropped, sent, spec.2.1⟩

/-- Nothing waits in the channel, the deliver queue or the window. -/
def Quiet (s : Outbound.State) : Prop := s.channel = [] ∧ s.queue = [] ∧ s.outInflight.queues = []

/-- A message waits for its PUBCOMP when its session is resumed.  The resumed session has nothing
left to do, has sent no PUBREL, and sends the next publish under the packet id of the message. -/
theorem unreleased_after_resumption :
    (¬ ∀ inflight steps s,
      Machine.run step (initial .v5 Window.single 20000 0 true 1000)
        (.transfer inflight [] :: steps) = some s → Quiet s.ids.acks.session →
      ∀ m ∈ inflight, m.status = .unComplete →
        m.publish.packetId.all fun packetId => s.causes.any fun c => c.packetId == packetId) ∧
    ∃ s, Machine.run step (initial .v5 Window.single 20000 0 true 1000)
        [.transfer [interrupted .unComplete 0] [], .arm (.forward Outbound.reading), .arm .message,
          .arm (.deliver false)] = some s ∧
      s.ids.acks.session.toClient =
        [.publish 1 { Outbound.reading with packetId := some Window.single }] := by
  refine ⟨fun releases => ?_, _, rfl, rfl⟩
  have released := releases [interrupted .unComplete 0] [] _ rfl ⟨rfl, rfl, rfl⟩ _
    List.mem_cons_self rfl
  revert released
  decide

end OxiMqtt.Session.Resumption

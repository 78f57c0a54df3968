import OxiMqtt.Session.Outbound

/-!
# The arms of the outbound side

Each arm of the loop that moves outbound messages is inverted once: what it takes and what it leaves
in the window, the channel, the deliver queue and on the link.

* `step_timeout`, `step_deliver`, `step_message`: the three arms.
* `assignPacketId_cases`: a publish keeps its packet id or gets one that is not in the window.
* `Label`: what stays with a message when it is moved between the window, the channel and the queue.
-/

namespace OxiMqtt.Session.Outbound

open OxiMqtt.Codec (QoS NonZeroU16 Publish)
open OxiMqtt.Codec.V5 (PublishAck2Reason)

variable {s s' : State}

/-! ## The timeout arm -/

/-- What `reforward` sends into the channel. -/
def again (m : OutInflightMessage MsgId) (expired : Bool) : List Message :=
  match m.status with
  | .unComplete => if expired then [] else [.sendRerelease m]
  | _ => [.forward m.origin { m.publish with dup := true }]

theorem reforward_eq (s : State) (m : OutInflightMessage MsgId) (expired : Bool) :
    reforward s m expired = { s with channel := s.channel ++ again m expired } := by
  unfold reforward again
  cases m.status with
  | unAck => rfl
  | unReceived => rfl
  | unComplete =>
      cases expired with
      | false => rfl
      | true => simp

theorem step_timeout {expired : Bool} (h : step s (.timeout expired) = some s') :
    ∃ packetId m w, s.outInflight.queues = (packetId, m) :: w.queues ∧
      s' = { s with outInflight := w, channel := s.channel ++ again m expired } := by
  obtain ⟨⟨m, w⟩, popped, rfl⟩ := Option.map_eq_some_iff.mp h
  obtain ⟨packetId, front⟩ := OutInflight.popFrontTimeout_eq popped
  exact ⟨packetId, m, w, front, reforward_eq _ m expired⟩

/-! ## The deliver arm -/

/-- The window when a publish was sent. -/
def sentWindow (w : OutInflight MsgId) (msg : MsgId) (p : Publish) (now : TimestampMillis) :
    OutInflight MsgId :=
  match p.qos with
  | .atLeastOnce => (w.pushBack ⟨p, msg, .unAck, now⟩).1
  | .exactlyOnce => (w.pushBack ⟨p, msg, .unReceived, now⟩).1
  | .atMostOnce => w

theorem step_deliver {expired : Bool} (h : step s (.deliver expired) = some s') :
    ∃ msg p queue, s.queue = (msg, p) :: queue ∧
      (expired = true ∧ s' = { s with queue } ∨
        expired = false ∧ ∃ p' w, assignPacketId s.outInflight p = some (p', w) ∧
          s' = { s with
            queue
            toClient := s.toClient ++ [.publish msg p']
            outInflight := sentWindow w msg p' s.clock }) := by
  cases hqueue : s.queue with
  | nil => simp [step, hqueue] at h
  | cons item queue =>
      obtain ⟨msg, p⟩ := item
      refine ⟨msg, p, queue, rfl, ?_⟩
      simp only [step, hqueue] at h
      split at h
      · unfold deliver at h
        split at h
        · rename_i dropped
          cases h
          exact .inl ⟨dropped, rfl⟩
        · rename_i kept
          obtain ⟨⟨p', w⟩, assigned, rfl⟩ := Option.map_eq_some_iff.mp h
          refine .inr ⟨by simpa using kept, p', w, assigned, ?_⟩
          unfold sentWindow
          cases hqos : p'.qos with
          | atMostOnce => simp only [hqos]
          | atLeastOnce => simp only [hqos]
          | exactlyOnce => simp only [hqos]
      · cases h

theorem mem_sentWindow {w : OutInflight MsgId} {msg : MsgId} {p : Publish} {now : TimestampMillis}
    {e : PacketId × OutInflightMessage MsgId} (h : e ∈ (sentWindow w msg p now).queues) :
    (e.2.publish = p ∧ e.2.origin = msg ∧ e.2.status ≠ .unComplete ∧ p.qos ≠ .atMostOnce ∧
      ∃ packetId, p.packetId = some packetId ∧ e.1 = packetId.val) ∨
    (e ∈ w.queues ∧ (p.qos ≠ .atMostOnce →
      ∀ packetId, p.packetId = some packetId → e.1 ≠ packetId.val)) := by
  unfold sentWindow at h
  cases hqos : p.qos with
  | atMostOnce =>
      rw [hqos] at h
      exact .inr ⟨h, fun acked => absurd rfl acked⟩
  | atLeastOnce =>
      rw [hqos] at h
      obtain ⟨pushed, numbered⟩ | ⟨old, other⟩ := OutInflight.mem_pushBack h
      · rw [pushed]
        exact .inl ⟨rfl, rfl, by simp, by decide, numbered⟩
      · exact .inr ⟨old, fun _ => other⟩
  | exactlyOnce =>
      rw [hqos] at h
      obtain ⟨pushed, numbered⟩ | ⟨old, other⟩ := OutInflight.mem_pushBack h
      · rw [pushed]
        exact .inl ⟨rfl, rfl, by simp, by decide, numbered⟩
      · exact .inr ⟨old, fun _ => other⟩

theorem wellKeyed_sentWindow {w : OutInflight MsgId} (keyed : w.WellKeyed) (msg : MsgId)
    (p : Publish) (now : TimestampMillis) : (sentWindow w msg p now).WellKeyed := by
  unfold sentWindow
  cases hqos : p.qos with
  | atMostOnce => exact keyed
  | atLeastOnce => exact keyed.pushBack fun _ => by rw [hqos]; decide
  | exactlyOnce => exact keyed.pushBack fun status => by cases status

/-- A publish keeps the packet id it was sent under before, or gets one that is not in the window. -/
theorem assignPacketId_cases {w w' : OutInflight MsgId} {p p' : Publish}
    (h : assignPacketId w p = some (p', w')) :
    (p' = p ∧ w' = w ∧ (p.qos = .atMostOnce ∨ p.dup = true ∧ p.packetId.isSome = true)) ∨
      ∃ packetId, p' = { p with packetId := some packetId } ∧ w'.queues = w.queues ∧
        w.exist packetId.val = false ∧ p.qos ≠ .atMostOnce ∧
        ¬ (p.dup = true ∧ p.packetId.isSome = true) := by
  unfold assignPacketId at h
  split at h
  · rename_i renewed
    split at h
    · cases h
    · rename_i packetId w next
      cases h
      obtain ⟨found, rfl⟩ := Prod.mk.inj next
      obtain ⟨nonzero, absent⟩ := OutInflight.nextIdLoop_sound (Prod.ext found rfl)
      refine .inr ⟨⟨packetId, nonzero⟩, ?_, rfl, absent, ?_, ?_⟩
      · rw [show NonZeroU16.new packetId = some ⟨packetId, nonzero⟩ from dif_pos nonzero]
      · intro zero
        rw [zero] at renewed
        simp at renewed
      · intro ⟨dup, numbered⟩
        simp [dup, Option.isNone_eq_false_iff.mpr numbered] at renewed
  · rename_i kept
    cases h
    refine .inl ⟨rfl, rfl, ?_⟩
    by_cases zero : p.qos = .atMostOnce
    · exact .inl zero
    · refine .inr ?_
      simpa [zero, Option.isSome_iff_ne_none] using kept

/-! ## The channel arm -/

/-- The PUBREL of `send_rerelease`. -/
def rereleaseReason (version : Version) (old : Option NonZeroU16) : Option PublishAck2Reason :=
  match version with
  | .v3 => none
  | .v5 => some (if old.isSome then .sendOnward else .packetIdNotFound)

theorem step_message (h : step s .message = some s') :
    (∃ msg p channel, s.channel = .forward msg p :: channel ∧
      s' = { s with
        channel
        queue := (DeliverQueue.send s.queueCap deliverPolicy s.queue (msg, p)).1 }) ∨
    ∃ m packetId channel, s.channel = .sendRerelease m :: channel ∧
      m.publish.packetId = some packetId ∧
      s' = { s with
        channel
        outInflight :=
          (s.outInflight.pushBack { m with status := .unComplete, updateTime := s.clock }).1
        toClient := s.toClient ++ [.publishRelease packetId (rereleaseReason s.version
          (s.outInflight.pushBack { m with status := .unComplete, updateTime := s.clock }).2)] } := by
  cases hchannel : s.channel with
  | nil => simp [step, hchannel] at h
  | cons message channel =>
      simp only [step, hchannel] at h
      cases message with
      | forward msg p =>
          cases h
          exact .inl ⟨msg, p, channel, rfl, rfl⟩
      | sendRerelease m =>
          simp only [processMessage, sendRerelease] at h
          split at h
          · cases h
          · rename_i packetId numbered
            cases h
            exact .inr ⟨m, packetId, channel, rfl, numbered, rfl⟩

/-- The deliver queue takes the message in or drops one, and makes up none. -/
theorem mem_queue_send {cap : Nat} {queue : List (MsgId × Publish)} {item x : MsgId × Publish}
    (h : x ∈ (DeliverQueue.send cap deliverPolicy queue item).1) : x = item ∨ x ∈ queue := by
  have kept := (DeliverQueue.send_sublist cap deliverPolicy queue item).subset h
  rw [List.mem_append, List.mem_singleton] at kept
  exact kept.symm

/-! ## What every arm keeps -/

theorem version_step {a : Step} (h : step s a = some s') : s'.version = s.version := by
  cases a with
  | forward p =>
      cases h
      rfl
  | tick elapsed =>
      cases h
      rfl
  | timeout expired =>
      obtain ⟨packetId, m, w, -, rfl⟩ := step_timeout h
      rfl
  | deliver expired =>
      obtain ⟨msg, p, queue, -, ⟨-, rfl⟩ | ⟨-, p', w, -, rfl⟩⟩ := step_deliver h
      · rfl
      · rfl
  | message =>
      rcases step_message h with ⟨msg, p, channel, -, rfl⟩ | ⟨m, packetId, channel, -, -, rfl⟩
      · rfl
      · rfl
  | packet =>
      cases hacks : s.toServer with
      | nil => simp [step, hacks] at h
      | cons ack toServer =>
          simp only [step, hacks] at h
          cases h
          cases ack <;> rfl
  | client =>
      cases hlink : s.toClient with
      | nil => simp [step, hlink] at h
      | cons packet toClient =>
          simp only [step, hlink] at h
          cases h
          rfl

theorem cap_assignPacketId {w w' : OutInflight MsgId} {p p' : Publish}
    (h : assignPacketId w p = some (p', w')) : w'.cap = w.cap := by
  unfold assignPacketId at h
  split at h
  · split at h
    · cases h
    · rename_i packetId w next
      cases h
      obtain ⟨-, rfl⟩ := Prod.mk.inj next
      rfl
  · cases h
    rfl

theorem cap_sentWindow (w : OutInflight MsgId) (msg : MsgId) (p : Publish) (now : TimestampMillis) :
    (sentWindow w msg p now).cap = w.cap := by
  unfold sentWindow
  split
  · exact OutInflight.cap_pushBack w _
  · exact OutInflight.cap_pushBack w _
  · rfl

theorem cap_step {a : Step} (h : step s a = some s') : s'.outInflight.cap = s.outInflight.cap := by
  cases a with
  | forward p =>
      cases h
      rfl
  | tick elapsed =>
      cases h
      rfl
  | timeout expired =>
      obtain ⟨⟨m, w⟩, popped, rfl⟩ := Option.map_eq_some_iff.mp h
      dsimp only
      rw [reforward_eq]
      exact (OutInflight.popFrontTimeout_le _ popped).1
  | deliver expired =>
      obtain ⟨msg, p, queue, -, ⟨-, rfl⟩ | ⟨-, p', w, assigned, rfl⟩⟩ := step_deliver h
      · rfl
      · exact (cap_sentWindow w msg p' _).trans (cap_assignPacketId assigned)
  | message =>
      rcases step_message h with ⟨msg, p, channel, -, rfl⟩ | ⟨m, packetId, channel, -, -, rfl⟩
      · rfl
      · exact OutInflight.cap_pushBack _ _
  | packet =>
      cases hacks : s.toServer with
      | nil => simp [step, hacks] at h
      | cons ack toServer =>
          simp only [step, hacks] at h
          cases h
          cases ack with
          | publishAck packetId => exact (OutInflight.remove_le _ _).1
          | publishReceived packetId => rfl
          | publishComplete packetId => exact (OutInflight.remove_le _ _).1
  | client =>
      cases hlink : s.toClient with
      | nil => simp [step, hlink] at h
      | cons packet toClient =>
          simp only [step, hlink] at h
          cases h
          rfl

theorem wellKeyed_processAck (keyed : s.outInflight.WellKeyed) (ack : Ack) :
    (processAck s ack).outInflight.WellKeyed := by
  cases ack with
  | publishAck packetId => exact keyed.sublist (OutInflight.queues_remove_sublist _ _)
  | publishReceived packetId => exact keyed.updateStatus _ _
  | publishComplete packetId => exact keyed.sublist (OutInflight.queues_remove_sublist _ _)

/-- Every arm keeps one entry for every key. -/
theorem wellKeyed_step {a : Step} (keyed : s.outInflight.WellKeyed) (h : step s a = some s') :
    s'.outInflight.WellKeyed := by
  cases a with
  | forward p =>
      cases h
      exact keyed
  | tick elapsed =>
      cases h
      exact keyed
  | timeout expired =>
      obtain ⟨packetId, m, w, front, rfl⟩ := step_timeout h
      apply keyed.sublist
      rw [front]
      exact List.sublist_cons_self _ _
  | deliver expired =>
      obtain ⟨msg, p, queue, -, ⟨-, rfl⟩ | ⟨-, p', w, assigned, rfl⟩⟩ := step_deliver h
      · exact keyed
      · have same := (assignPacketId_same assigned).1
        exact wellKeyed_sentWindow (keyed.sublist (by rw [same])) msg p' _
  | message =>
      rcases step_message h with ⟨msg, p, channel, -, rfl⟩ | ⟨m, packetId, channel, -, -, rfl⟩
      · exact keyed
      · exact keyed.pushBack (by simp)
  | packet =>
      cases hacks : s.toServer with
      | nil => simp [step, hacks] at h
      | cons ack toServer =>
          simp only [step, hacks] at h
          cases h
          apply wellKeyed_processAck
          exact keyed
  | client =>
      cases hlink : s.toClient with
      | nil => simp [step, hlink] at h
      | cons packet toClient =>
          simp only [step, hlink] at h
          cases h
          exact keyed

/-! ## What stays with a message -/

/-- A label of the messages of a session.  A message that is sent again and an entry whose status
changes keep theirs. -/
structure Label (L : Type) : Type where
  ofEntry : OutInflightMessage MsgId → Option L
  ofItem : MsgId × Publish → Option L
  again : ∀ m l, ofItem (m.origin, { m.publish with dup := true }) = some l → ofEntry m = some l
  updated : ∀ (m : OutInflightMessage MsgId) now status,
    ofEntry { m with status, updateTime := now } = ofEntry m

namespace Label

variable {L : Type} (label : Label L) {l : L}

def ofMessage : Message → Option L
  | .forward msg p => label.ofItem (msg, p)
  | .sendRerelease m => label.ofEntry m

/-- A message in the window, the channel or the queue has the label. -/
def Carried (s : State) (l : L) : Prop :=
  (∃ e ∈ s.outInflight.queues, label.ofEntry e.2 = some l) ∨
    (∃ m ∈ s.channel, label.ofMessage m = some l) ∨ ∃ item ∈ s.queue, label.ofItem item = some l

variable {label}

theorem ofEntry_of_again {m : OutInflightMessage MsgId} {expired : Bool} {message : Message}
    (h : message ∈ Outbound.again m expired) (own : label.ofMessage message = some l) :
    label.ofEntry m = some l := by
  unfold Outbound.again at h
  cases status : m.status with
  | unAck =>
      rw [status, List.mem_singleton] at h
      subst h
      exact label.again m l own
  | unReceived =>
      rw [status, List.mem_singleton] at h
      subst h
      exact label.again m l own
  | unComplete =>
      cases expired with
      | true => simp [status] at h
      | false =>
          simp only [status, Bool.false_eq_true, if_false, List.mem_singleton] at h
          subst h
          exact own

/-- The timeout arm makes up no label. -/
theorem carried_timeout {expired : Bool} (h : step s (.timeout expired) = some s')
    (carried : label.Carried s' l) : label.Carried s l := by
  obtain ⟨key, m, w, front, rfl⟩ := step_timeout h
  rcases carried with ⟨e, member, own⟩ | ⟨message, member, own⟩ | queue
  · exact .inl ⟨e, by rw [front]; exact List.mem_cons_of_mem _ member, own⟩
  · rcases List.mem_append.mp member with old | new
    · exact .inr (.inl ⟨message, old, own⟩)
    · refine .inl ⟨(key, m), ?_, ofEntry_of_again new own⟩
      rw [front]
      exact List.mem_cons_self
  · exact .inr (.inr queue)

/-- The channel arm makes up no label. -/
theorem carried_message (h : step s .message = some s') (carried : label.Carried s' l) :
    label.Carried s l := by
  rcases step_message h with ⟨msg, p, channel, head, rfl⟩ | ⟨m, packetId, channel, head, -, rfl⟩
  · unfold Carried at *
    rw [head]
    rcases carried with window | ⟨message, member, own⟩ | ⟨item, member, own⟩
    · exact .inl window
    · exact .inr (.inl ⟨message, List.mem_cons_of_mem _ member, own⟩)
    · rcases mem_queue_send member with rfl | old
      · exact .inr (.inl ⟨.forward msg p, List.mem_cons_self, own⟩)
      · exact .inr (.inr ⟨item, old, own⟩)
  · unfold Carried at *
    rw [head]
    rcases carried with ⟨e, member, own⟩ | ⟨message, member, own⟩ | queue
    · rcases OutInflight.mem_pushBack member with ⟨pushed, -⟩ | ⟨old, -⟩
      · refine .inr (.inl ⟨.sendRerelease m, List.mem_cons_self, ?_⟩)
        rw [pushed, label.updated] at own
        exact own
      · exact .inl ⟨e, old, own⟩
    · exact .inr (.inl ⟨message, List.mem_cons_of_mem _ member, own⟩)
    · exact .inr (.inr queue)

/-- An acknowledgement makes up no label. -/
theorem carried_processAck {ack : Ack} (carried : label.Carried (processAck s ack) l) :
    label.Carried s l := by
  cases ack with
  | publishAck packetId =>
      rcases carried with ⟨e, member, own⟩ | waits
      · exact .inl ⟨e, (OutInflight.queues_remove_sublist _ _).subset member, own⟩
      · exact .inr waits
  | publishReceived packetId =>
      rcases carried with ⟨e, member, own⟩ | waits
      · rcases OutInflight.mem_updateStatus member with ⟨old, -⟩ | ⟨m, old, rfl⟩
        · exact .inl ⟨e, old, own⟩
        · refine .inl ⟨_, old, ?_⟩
          rw [← own]
          exact (label.updated m _ _).symm
      · exact .inr waits
  | publishComplete packetId =>
      rcases carried with ⟨e, member, own⟩ | waits
      · exact .inl ⟨e, (OutInflight.queues_remove_sublist _ _).subset member, own⟩
      · exact .inr waits

end Label

end OxiMqtt.Session.Outbound

import OxiMqtt.Lib.TwoPhase
import OxiMqtt.Session.Outbound

/-!
# The order of messages when a session is resumed

`to_offline_info` takes the offline messages from the deliver queue of the old session and the
inflight messages from its window, both from the front.  The handshake of the new session registers
it, from when on publishers reach its channel, and then sends the `SessionStateTransfer`.  When the
loop takes that message, `transfer_session_state` sends the messages of the old session into the
channel one by one: it pops the inflight messages from the back, and the offline messages from the
front.  The loop then puts what it takes from the channel into the deliver queue, which refuses it
or drops its earliest message when it is full.

A run is any interleaving of these steps with publishers.

* `replay`: what the transfer sends, in its order.
* `step_kept`: a step that finds room in the deliver queue loses nothing.
* `resume_order_iff`: when the deliver queue gets all messages in the order of the old session, with
  what was published since behind them.
* `resumed_out_of_order`: two inflight messages are turned around, and a publish comes before both.
-/

namespace OxiMqtt.Session.ResumeOrder

open OxiMqtt.Codec (QoS NonZeroU16 Publish)
open Outbound (MsgId)
open TwoPhase (Ordered)

/-! ## The old session -/

/-- A message of a deliver queue. -/
abbrev Item : Type := MsgId × Publish

/-- The old session when it is taken over: its window in the order of sending, its deliver queue in
the order of arrival, and the number of messages it was handed.  A message is in one place. -/
structure OldSession : Type where
  window : OutInflight MsgId
  queue : List Item
  handed : Nat
  distinct : ((window.queues.map fun e => e.2.origin) ++ queue.map Prod.fst).Nodup
  known : ∀ msg ∈ (window.queues.map fun e => e.2.origin) ++ queue.map Prod.fst, msg < handed

/-- The messages of `OfflineInfo`. -/
structure OfflineInfo : Type where
  inflightMessages : List (OutInflightMessage MsgId)
  offlineMessages : List Item
  deriving DecidableEq, Repr

/-- `Session::to_offline_info` -/
def toOfflineInfo (old : OldSession) : OfflineInfo where
  inflightMessages := old.window.toInflightMessages.1
  offlineMessages := old.queue

/-- The publish that `reforward` sends for a message that is not waiting for its PUBCOMP. -/
def reforwarded (m : OutInflightMessage MsgId) : Item := (m.origin, { m.publish with dup := true })

/-- The messages that wait for a PUBACK or a PUBREC, in the order they are listed. -/
def unacknowledged (messages : List (OutInflightMessage MsgId)) : List Item :=
  (messages.filter fun m => m.status ≠ .unComplete).map reforwarded

/-! ## The new session -/

inductive Message : Type
  | forward (item : Item)
  | sessionStateTransfer
  deriving DecidableEq, Repr

inductive Phase : Type
  /-- The session is registered. -/
  | registered
  /-- The `SessionStateTransfer` is in the channel. -/
  | announced
  /-- `transfer_session_state` runs or has run. -/
  | transferring
  deriving DecidableEq, Repr

/-- The new session from its registration on.  `info` is what the transfer still has to send, `queue`
the deliver queue and `taken` what the deliver arm has taken out of it.  `received` is what the loop
has taken from the channel, and `published` what publishers have sent; publishes are numbered on from
the old session. -/
structure State : Type where
  info : OfflineInfo
  phase : Phase := .registered
  channel : List Message := []
  queueCap : Nat
  queue : List Item := []
  taken : List Item := []
  received : List Item := []
  published : List Item := []
  handed : Nat

inductive Step : Type
  /-- A publisher sends a message into the channel. -/
  | publish (p : Publish)
  /-- The handshake sends the `SessionStateTransfer` into the channel. -/
  | announce
  /-- The loop takes a message from the channel. -/
  | message
  /-- One turn of the two loops of `transfer_session_state`. -/
  | send
  /-- The deliver arm takes a message from the deliver queue. -/
  | deliver

/-- One turn of `transfer_session_state`: the last inflight message, else the first offline
message. -/
def send (s : State) : Option State :=
  match s.info.inflightMessages.getLast? with
  | some m =>
      let info := { s.info with inflightMessages := s.info.inflightMessages.dropLast }
      if m.status = .unComplete then some { s with info }
      else some { s with info, channel := s.channel ++ [.forward (reforwarded m)] }
  | none =>
      match s.info.offlineMessages with
      | item :: rest =>
          some { s with
            info := { s.info with offlineMessages := rest }
            channel := s.channel ++ [.forward item] }
      | [] => none

/-- The transfer has sent all it has. -/
def Sent (s : State) : Prop := s.info = ⟨[], []⟩

instance (s : State) : Decidable (Sent s) := inferInstanceAs (Decidable (s.info = ⟨[], []⟩))

/-- The loop is busy while the transfer runs. -/
def Busy (s : State) : Prop := s.phase = .transferring ∧ ¬ Sent s

instance (s : State) : Decidable (Busy s) :=
  inferInstanceAs (Decidable (s.phase = .transferring ∧ ¬ Sent s))

def step (s : State) : Step → Option State
  | .publish p =>
      some { s with
        channel := s.channel ++ [.forward (s.handed, p)]
        published := s.published ++ [(s.handed, p)]
        handed := s.handed + 1 }
  | .announce =>
      if s.phase = .registered then
        some { s with phase := .announced, channel := s.channel ++ [.sessionStateTransfer] }
      else none
  | .message =>
      if Busy s then none
      else
        match s.channel with
        | [] => none
        | .forward item :: channel =>
            let queue := (DeliverQueue.send s.queueCap Outbound.deliverPolicy s.queue item).1
            some { s with channel, queue, received := s.received ++ [item] }
        | .sessionStateTransfer :: channel => some { s with channel, phase := .transferring }
  | .send => if s.phase = .transferring then send s else none
  | .deliver =>
      if Busy s then none
      else
        match s.queue with
        | [] => none
        | item :: queue => some { s with queue, taken := s.taken ++ [item] }

/-- The new session when it is registered. -/
def initial (old : OldSession) (queueCap : Nat) : State where
  info := toOfflineInfo old
  queueCap
  handed := old.handed

/-- The transfer is over and the channel is empty. -/
def Complete (s : State) : Prop := s.phase = .transferring ∧ Sent s ∧ s.channel = []

/-- The messages that the deliver queue has got, in order, without those it has refused or
dropped. -/
def kept (s : State) : List Item := s.taken ++ s.queue

/-- The deliver queue gets the unacknowledged messages in the order of sending, then the offline
messages in their order, then what was published. -/
def InOrder (old : OldSession) (s : State) : Prop :=
  kept s =
    unacknowledged (old.window.queues.map Prod.snd) ++ old.queue ++ s.published

/-- What the transfer sends for this. -/
def replay (info : OfflineInfo) : List Item :=
  unacknowledged info.inflightMessages.reverse ++ info.offlineMessages

/-- A message is published only when the transfer has nothing left to send. -/
def AfterTransfer (s : State) : Step → Prop
  | .publish _ => replay s.info = []
  | _ => True

instance (s : State) (a : Step) : Decidable (AfterTransfer s a) :=
  match a with
  | .publish _ => inferInstanceAs (Decidable (replay s.info = []))
  | .announce => isTrue trivial
  | .message => isTrue trivial
  | .send => isTrue trivial
  | .deliver => isTrue trivial

def itemOf : Message → Option Item
  | .forward item => some item
  | .sessionStateTransfer => none

/-- A message that the loop takes from the channel finds room in the deliver queue. -/
def HasRoom (s : State) : Step → Prop
  | .message => (s.channel.head?.bind itemOf).isSome = true → s.queue.length < s.queueCap
  | _ => True

instance (s : State) (a : Step) : Decidable (HasRoom s a) :=
  match a with
  | .message => inferInstanceAs
      (Decidable ((s.channel.head?.bind itemOf).isSome = true → s.queue.length < s.queueCap))
  | .publish _ => isTrue trivial
  | .announce => isTrue trivial
  | .send => isTrue trivial
  | .deliver => isTrue trivial

/-! ## What has entered the channel -/

/-- The messages that were sent into the channel, in order. -/
def entered (s : State) : List Item := s.received ++ s.channel.filterMap itemOf

/-- A message of the new session. -/
def isNew (old : OldSession) (item : Item) : Bool := old.handed ≤ item.1

/-- What a step sends into the channel. -/
theorem step_entered {s s' : State} {a : Step} (h : step s a = some s') :
    (∃ p, a = .publish p ∧ entered s' = entered s ++ [(s.handed, p)] ∧ s'.info = s.info ∧
      s'.published = s.published ++ [(s.handed, p)] ∧ s'.handed = s.handed + 1) ∨
    (∃ items, (∀ p, a ≠ .publish p) ∧ entered s' = entered s ++ items ∧
      replay s.info = items ++ replay s'.info ∧ s'.published = s.published ∧
      s'.handed = s.handed) := by
  cases a with
  | publish p =>
      cases h
      exact .inl ⟨p, rfl, by simp [entered, itemOf], rfl, rfl, rfl⟩
  | announce =>
      obtain ⟨-, sent⟩ := Option.ite_none_right_eq_some.mp h
      cases sent
      exact .inr ⟨[], by simp, by simp [entered, itemOf], rfl, rfl, rfl⟩
  | message =>
      simp only [step] at h
      split at h
      · cases h
      · split at h
        · cases h
        · rename_i item channel head
          cases h
          exact .inr ⟨[], by simp, by simp [entered, itemOf, head], rfl, rfl, rfl⟩
        · rename_i channel head
          cases h
          refine .inr ⟨[], by simp, ?_, rfl, rfl, rfl⟩
          rw [entered, entered, head, List.append_nil]
          rfl
  | deliver =>
      simp only [step] at h
      split at h
      · cases h
      · split at h
        · cases h
        · cases h
          exact .inr ⟨[], by simp, by simp [entered], rfl, rfl, rfl⟩
  | send =>
      obtain ⟨-, sent⟩ := Option.ite_none_right_eq_some.mp h
      unfold send at sent
      split at sent
      · rename_i m last
        have split : s.info.inflightMessages.reverse =
            m :: s.info.inflightMessages.dropLast.reverse := by
          rw [List.getLast?_eq_some_iff] at last
          obtain ⟨front, same⟩ := last
          rw [same]
          simp
        split at sent
        · rename_i completes
          cases sent
          refine .inr ⟨[], by simp, by simp [entered], ?_, rfl, rfl⟩
          simp [replay, unacknowledged, split, completes]
        · rename_i waits
          cases sent
          refine .inr ⟨[reforwarded m], by simp, by simp [entered, itemOf], ?_, rfl, rfl⟩
          simp [replay, unacknowledged, split, waits]
      · rename_i none
        rw [List.getLast?_eq_none_iff] at none
        split at sent
        · rename_i item rest head
          cases sent
          refine .inr ⟨[item], by simp, by simp [entered, itemOf], ?_, rfl, rfl⟩
          simp [replay, unacknowledged, none, head]
        · cases sent

/-- A turn of the transfer changes what is left to send, and the channel. -/
theorem send_same {s s' : State} (h : send s = some s') :
    ∃ info channel, s' = { s with info, channel } := by
  unfold send at h
  split at h
  · split at h
    · cases h
      exact ⟨_, _, rfl⟩
    · cases h
      exact ⟨_, _, rfl⟩
  · split at h
    · cases h
      exact ⟨_, _, rfl⟩
    · cases h

/-- A message is put into the deliver queue: nothing is lost just when there is room for it. -/
theorem put_kept {taken queue received : List Item} (part : (taken ++ queue).Sublist received)
    (queueCap : Nat) (item : Item) :
    let queue' := (DeliverQueue.send queueCap Outbound.deliverPolicy queue item).1
    (taken ++ queue').Sublist (received ++ [item]) ∧
      (taken ++ queue' = received ++ [item] ↔
        taken ++ queue = received ∧ queue.length < queueCap) := by
  intro queue'
  constructor
  · refine ((DeliverQueue.send_sublist _ _ queue item).append_left taken).trans ?_
    rw [← List.append_assoc]
    exact part.append_right [item]
  · by_cases room : queue.length < queueCap
    · simp only [queue', DeliverQueue.send_of_lt _ room, ← List.append_assoc,
        List.append_left_inj, and_iff_left room]
    · -- what is put in, or the earliest message, is lost
      refine iff_of_false (fun all => ?_) fun all => room all.2
      have shorter : queue'.length ≤ queue.length :=
        DeliverQueue.length_send_le Outbound.deliverPolicy item (Nat.le_of_not_lt room)
      have lengths := congrArg List.length all
      have before := part.length_le
      simp only [List.length_append, List.length_singleton] at lengths before
      omega

/-- What the deliver queue has got is a part of what the loop has taken from the channel, and stays
all of it in a step that finds room. -/
theorem step_kept {s s' : State} {a : Step} (part : (kept s).Sublist s.received)
    (h : step s a = some s') :
    (kept s').Sublist s'.received ∧
      (kept s' = s'.received ↔ kept s = s.received ∧ HasRoom s a) := by
  cases a with
  | publish p =>
      cases h
      exact ⟨part, (and_iff_left trivial).symm⟩
  | announce =>
      obtain ⟨-, sent⟩ := Option.ite_none_right_eq_some.mp h
      cases sent
      exact ⟨part, (and_iff_left trivial).symm⟩
  | message =>
      simp only [step] at h
      split at h
      · cases h
      · split at h
        · cases h
        · rename_i item channel head
          cases h
          have next : HasRoom s .message ↔ s.queue.length < s.queueCap := by
            rw [HasRoom, head]
            exact ⟨fun room => room rfl, fun room _ => room⟩
          rw [next]
          exact put_kept part s.queueCap item
        · rename_i channel head
          cases h
          refine ⟨part, (and_iff_left ?_).symm⟩
          rw [HasRoom, head]
          intro item
          cases item
  | send =>
      obtain ⟨-, sent⟩ := Option.ite_none_right_eq_some.mp h
      obtain ⟨info, channel, rfl⟩ := send_same sent
      exact ⟨part, (and_iff_left trivial).symm⟩
  | deliver =>
      simp only [step] at h
      split at h
      · cases h
      · split at h
        · cases h
        · rename_i item queue head
          cases h
          have same : s.taken ++ [item] ++ queue = kept s := by
            rw [kept, head, List.append_assoc, List.singleton_append]
          rw [kept, same]
          exact ⟨part, (and_iff_left trivial).symm⟩

/-! ## The invariant -/

variable {old : OldSession} {s s' : State}

/-- What has entered the channel is the messages of the old session that the transfer has sent, in
its order, and what was published; the deliver queue has got no more. -/
structure Inv (old : OldSession) (s : State) : Prop where
  transferred : (entered s).filter (fun x => !isNew old x) ++ replay s.info =
    replay (toOfflineInfo old)
  published : (entered s).filter (isNew old) = s.published
  handed : old.handed ≤ s.handed
  part : (kept s).Sublist s.received

theorem unacknowledged_reverse (messages : List (OutInflightMessage MsgId)) :
    unacknowledged messages.reverse = (unacknowledged messages).reverse := by
  simp [unacknowledged, List.filter_reverse]

theorem mem_unacknowledged {messages : List (OutInflightMessage MsgId)} {x : Item}
    (h : x ∈ unacknowledged messages) : ∃ m ∈ messages, m.origin = x.1 := by
  obtain ⟨m, member, rfl⟩ := List.mem_map.mp h
  exact ⟨m, (List.mem_filter.mp member).1, rfl⟩

theorem unacknowledged_early :
    ∀ x ∈ unacknowledged (old.window.queues.map Prod.snd) ++ old.queue, isNew old x = false := by
  intro x h
  have known : x.1 < old.handed := by
    apply old.known
    rcases List.mem_append.mp h with inflight | queued
    · obtain ⟨m, member, origin⟩ := mem_unacknowledged inflight
      obtain ⟨e, he, rfl⟩ := List.mem_map.mp member
      exact List.mem_append_left _ (List.mem_map.mpr ⟨e, he, origin⟩)
    · exact List.mem_append_right _ (List.mem_map_of_mem queued)
  exact decide_eq_false (Nat.not_le.mpr known)

theorem replay_early : ∀ x ∈ replay (toOfflineInfo old), isNew old x = false := by
  intro x h
  apply unacknowledged_early
  rcases List.mem_append.mp h with inflight | queued
  · rw [unacknowledged_reverse, List.mem_reverse] at inflight
    exact List.mem_append_left _ inflight
  · exact List.mem_append_right _ queued

theorem Inv.early (inv : Inv old s) : ∀ x ∈ replay s.info, isNew old x = false := by
  intro x h
  apply replay_early
  rw [← inv.transferred]
  exact List.mem_append_right _ h

theorem inv_initial (old : OldSession) (queueCap : Nat) : Inv old (initial old queueCap) where
  transferred := rfl
  published := rfl
  handed := Nat.le_refl _
  part := List.Sublist.refl _

theorem inv_step {a : Step} (inv : Inv old s) (h : step s a = some s') : Inv old s' := by
  have isNew_next : ∀ p, isNew old (s.handed, p) = true := fun p => decide_eq_true inv.handed
  rcases step_entered h with ⟨p, -, grown, info, published, handed⟩ |
    ⟨items, -, grown, moved, published, handed⟩
  · constructor
    · rw [grown, info, List.filter_append, List.filter_singleton, isNew_next]
      simpa using inv.transferred
    · rw [grown, published, List.filter_append, List.filter_singleton, isNew_next, inv.published]
      rfl
    · rw [handed]
      exact Nat.le_succ_of_le inv.handed
    · exact (step_kept inv.part h).1
  · have early : ∀ x ∈ items, isNew old x = false := by
      intro x member
      apply inv.early
      rw [moved]
      exact List.mem_append_left _ member
    have kept : items.filter (fun x => !isNew old x) = items :=
      List.filter_eq_self.mpr fun x member => by simp [early x member]
    have gone : items.filter (isNew old) = [] :=
      List.filter_eq_nil_iff.mpr fun x member => by simp [early x member]
    constructor
    · rw [grown, List.filter_append, kept, List.append_assoc, ← moved]
      exact inv.transferred
    · rw [grown, published, List.filter_append, gone, List.append_nil]
      exact inv.published
    · rw [handed]
      exact inv.handed
    · exact (step_kept inv.part h).1

/-- What has entered and what the transfer has left, in two phases, stay so in a step that publishes
nothing before the end of the transfer. -/
theorem ordered_step {a : Step} (inv : Inv old s) (h : step s a = some s') :
    Ordered (isNew old) (entered s' ++ replay s'.info) ↔
      Ordered (isNew old) (entered s ++ replay s.info) ∧ AfterTransfer s a := by
  rcases step_entered h with ⟨p, rfl, grown, info, -, -⟩ | ⟨items, other, grown, moved, -, -⟩
  · rw [grown, info]
    exact TwoPhase.ordered_insert_iff (decide_eq_true inv.handed) inv.early
  · have free : AfterTransfer s a := by
      cases a with
      | publish p => exact absurd rfl (other p)
      | announce => trivial
      | message => trivial
      | send => trivial
      | deliver => trivial
    rw [grown, moved, List.append_assoc]
    exact ⟨fun ordered => ⟨ordered, free⟩, fun ordered => ordered.1⟩

/-! ## Complete runs -/

theorem nodup_unacknowledged : (unacknowledged (old.window.queues.map Prod.snd)).Nodup := by
  have distinct := (List.nodup_append.mp old.distinct).1
  apply List.Nodup.of_map Prod.fst
  rw [unacknowledged, List.map_map]
  have origins : (old.window.queues.map fun e => e.2.origin) =
      (old.window.queues.map Prod.snd).map OutInflightMessage.origin := by
    rw [List.map_map]
    rfl
  rw [origins] at distinct
  exact distinct.sublist (List.filter_sublist.map _)

theorem keep_inv (old : OldSession) (s : State) (a : Step) (s' : State) (inv : Inv old s)
    (h : step s a = some s') : Inv old s' := inv_step inv h

theorem Complete.entered_eq (complete : Complete s) : entered s = s.received := by
  simp [entered, complete.2.2]

theorem Complete.replay_eq (complete : Complete s) : replay s.info = [] := by
  rw [complete.2.1]
  rfl

/-- The parts of what the loop has taken from the channel in a complete run. -/
theorem Inv.parts (inv : Inv old s) (complete : Complete s) :
    s.received.filter (fun x => !isNew old x) =
        (unacknowledged (old.window.queues.map Prod.snd)).reverse ++ old.queue ∧
      s.received.filter (isNew old) = s.published := by
  have transferred := inv.transferred
  have published := inv.published
  rw [complete.entered_eq, complete.replay_eq, List.append_nil] at transferred
  rw [complete.entered_eq] at published
  rw [transferred, replay, unacknowledged_reverse]
  exact ⟨rfl, published⟩

/-- The loop has taken as many messages from the channel as the old session and the publishers
have. -/
theorem Inv.length_received (inv : Inv old s) (complete : Complete s) :
    s.received.length =
      (unacknowledged (old.window.queues.map Prod.snd) ++ old.queue ++ s.published).length := by
  obtain ⟨transferred, published⟩ := inv.parts complete
  have split := List.length_eq_length_filter_add (l := s.received) (isNew old)
  rw [published, transferred] at split
  simp only [List.length_append, List.length_reverse] at split ⊢
  omega

variable {queueCap : Nat}

/-- The deliver queue has got all that the loop has taken just when there was room for each. -/
theorem kept_iff_guarded {steps : List Step}
    (ran : Machine.run step (initial old queueCap) steps = some s) :
    kept s = s.received ↔ Machine.Guarded step HasRoom (initial old queueCap) steps := by
  have exactly := Machine.iff_guarded (P := fun s => kept s = s.received) (keep_inv old)
    (fun _ _ _ inv h => (step_kept inv.part h).2) ran (inv_initial old queueCap)
  exact exactly.trans (and_iff_right rfl)

theorem ordered_iff_guarded {steps : List Step}
    (ran : Machine.run step (initial old queueCap) steps = some s) (complete : Complete s) :
    Ordered (isNew old) s.received ↔
      Machine.Guarded step AfterTransfer (initial old queueCap) steps := by
  have exactly := Machine.iff_guarded
    (P := fun s => Ordered (isNew old) (entered s ++ replay s.info)) (keep_inv old)
    (fun _ _ _ inv h => ordered_step inv h) ran (inv_initial old queueCap)
  have start : Ordered (isNew old) (replay (toOfflineInfo old) ++ []) :=
    TwoPhase.ordered_append replay_early (by simp)
  rw [List.append_nil] at start
  rw [complete.entered_eq, complete.replay_eq, List.append_nil] at exactly
  rw [exactly]
  exact ⟨fun h => h.2, fun h => ⟨start, h⟩⟩

/-- What the loop has taken from the channel is in the order of the old session, with what was
published behind it, when the reversal of the inflight messages changes nothing and nothing was
published too early. -/
theorem Inv.received_iff (inv : Inv old s) (complete : Complete s) :
    s.received = unacknowledged (old.window.queues.map Prod.snd) ++ old.queue ++ s.published ↔
      (unacknowledged (old.window.queues.map Prod.snd)).length ≤ 1 ∧
        Ordered (isNew old) s.received := by
  obtain ⟨transferred, published⟩ := inv.parts complete
  rw [← TwoPhase.reverse_eq_self_iff nodup_unacknowledged]
  constructor
  · intro inOrder
    have late : ∀ x ∈ s.published, isNew old x = true := by
      intro x member
      rw [← published] at member
      exact (List.mem_filter.mp member).2
    have early : s.received.filter (fun x => !isNew old x) =
        unacknowledged (old.window.queues.map Prod.snd) ++ old.queue := by
      rw [inOrder, List.filter_append,
        List.filter_eq_self.mpr fun x h => by simp [unacknowledged_early x h],
        List.filter_eq_nil_iff.mpr fun x h => by simp [late x h], List.append_nil]
    constructor
    · rw [transferred] at early
      exact List.append_cancel_right early
    · rw [inOrder]
      exact TwoPhase.ordered_append unacknowledged_early late
  · intro ⟨palindrome, ordered⟩
    rw [ordered.eq_filter_append, transferred, published, palindrome]

/-- In a complete run the deliver queue gets all messages in the order of the old session, with what
was published behind them, exactly when the old session has at most one inflight message that waits
for a PUBACK or a PUBREC, nothing is published while the transfer has something left to send, and each
message finds room in the deliver queue. -/
theorem resume_order_iff (old : OldSession) (queueCap : Nat) {steps : List Step} {s : State}
    (ran : Machine.run step (initial old queueCap) steps = some s) (complete : Complete s) :
    InOrder old s ↔
      (unacknowledged (old.window.queues.map Prod.snd)).length ≤ 1 ∧
        Machine.Guarded step AfterTransfer (initial old queueCap) steps ∧
        Machine.Guarded step HasRoom (initial old queueCap) steps := by
  have inv := Machine.invariant_run (keep_inv old) ran (inv_initial old queueCap)
  rw [← ordered_iff_guarded ran complete, ← kept_iff_guarded ran, ← and_assoc,
    ← inv.received_iff complete]
  constructor
  · intro inOrder
    -- what is in order is all that the loop has taken
    have all : kept s = s.received := by
      apply inv.part.eq_of_length
      rw [inv.length_received complete]
      exact congrArg List.length inOrder
    exact ⟨all.symm.trans inOrder, all⟩
  · intro ⟨inOrder, all⟩
    exact all.trans inOrder

/-- A QoS 1 message that waits for its PUBACK. -/
def inflight (origin : MsgId) (packetId : NonZeroU16) : PacketId × OutInflightMessage MsgId :=
  (packetId.val,
    { publish := { Outbound.reading with qos := .atLeastOnce, packetId := some packetId }
      origin := origin
      status := .unAck
      updateTime := 0 })

/-- A window with the inflight messages 0, or 0 and 1. -/
def oldWindow (second : Bool) : OutInflight MsgId :=
  { (OutInflight.new 2 20000 0 true : OutInflight MsgId) with
    queues := inflight 0 ⟨32, by decide⟩ :: if second then [inflight 1 ⟨33, by decide⟩] else [] }

/-- An old session with this window and an offline message. -/
def oldSession (second : Bool) : OldSession where
  window := oldWindow second
  queue := [(2, Outbound.reading)]
  handed := 3
  distinct := by cases second <;> decide
  known := by cases second <;> decide

/-- One inflight message, and a publish after the transfer; the first message is delivered before the
second finds the queue full. -/
def publishedLater : List Step :=
  [.announce, .message, .send, .send, .publish Outbound.reading, .message, .message, .deliver,
    .message]

theorem resume_order_published_later :
    ∃ s, Machine.run step (initial (oldSession false) 2) publishedLater = some s ∧ Complete s ∧
      InOrder (oldSession false) s := by
  have later : Machine.Guarded step AfterTransfer (initial (oldSession false) 2) publishedLater := by
    decide
  have room : Machine.Guarded step HasRoom (initial (oldSession false) 2) publishedLater := by
    decide
  have complete : ∃ s, Machine.run step (initial (oldSession false) 2) publishedLater = some s ∧
      Complete s := ⟨_, rfl, rfl, rfl, rfl⟩
  obtain ⟨s, ran, complete⟩ := complete
  exact ⟨s, ran, complete,
    (resume_order_iff (oldSession false) 2 ran complete).mpr ⟨by decide, later, room⟩⟩

/-- Two inflight messages, and a publish between the registration and the transfer. -/
def publishedEarlier : List Step :=
  [.publish Outbound.reading, .announce, .message, .message, .send, .send, .send, .message,
    .message, .message]

/-- The publish comes first, then the inflight messages in the reverse order. -/
theorem resumed_out_of_order :
    ∃ s, Machine.run step (initial (oldSession true) 1000) publishedEarlier = some s ∧ Complete s ∧
      (kept s).map Prod.fst = [3, 1, 0, 2] ∧ ¬ InOrder (oldSession true) s := by
  refine ⟨_, rfl, ⟨rfl, rfl, rfl⟩, rfl, fun inOrder => ?_⟩
  have numbers := congrArg (List.map Prod.fst) inOrder
  revert numbers
  decide

end OxiMqtt.Session.ResumeOrder

import OxiMqtt.Lib.Machine
import OxiMqtt.Router.Forward
import OxiMqtt.Session.Inflight
import OxiMqtt.Session.TopicAliases

/-!
# Message expiry

The places a message waits in between its reception and the sink of a subscriber, and what moves it
from one to the next: `forwards` and `inner_forwards`, `process_message`, `deliver`, `reforward`,
`transfer_session_state` of `session.rs`, `_send_retain_messages`, and the expiry check of
`hook.rs`.

The check reads the age of a message off its `create_time`, and cuts the time that remains to whole
seconds.  Of the first, a retained message has one that is set anew when it is handed over; of the
second, less than a second is nothing, and the packet has no interval then.

A copy keeps when its message was received and the interval it came with, which the source does not.
Every step reads the clock, and no reading is less than those before.  Any copy may be moved, in any
order, and any may be lost.

* `move_makes`: what a move makes of a copy; only a retained one is handed over with a new time.
* `move_kept`: what is true of a copy wherever it waits.
* `timely_direct_iff`: when a copy of a run without retained messages is delivered in time.
* `move_exact`: when a move sends no packet that extends an expiry.
* `expiry_not_extended`: when a run does not.
-/

namespace OxiMqtt.Session.Expiry

open OxiMqtt.Codec (NonZeroU16 NonZeroU32 QoS)
open OxiMqtt.Router (Publish Peer ClientId SubRelations forwardsTo forwardCopy)
open OxiMqtt.Session.TopicAliases (ServerTopicAliases)

/-! ## The check -/

/-- `MessageExpiryCheckResult` -/
inductive MessageExpiryCheckResult : Type
  | expiry
  | remaining (messageExpiryInterval : Option NonZeroU32)
  deriving DecidableEq, Repr

/-- The interval in the properties of a packet. -/
def expiryOf (p : Codec.Publish) : Option NonZeroU32 :=
  p.properties.bind fun q => q.messageExpiryInterval

def millis (interval : NonZeroU32) : Int := interval.val.toNat * 1000

/-- `Hook::message_expiry_check` where no hook answers; `listen` is the interval of the listener. -/
def messageExpiryCheck (listen now : TimestampMillis) (publish : Publish) :
    MessageExpiryCheckResult :=
  let expiryInterval := ((expiryOf publish.inner).map millis).getD listen
  if expiryInterval = 0 then .remaining none
  else
    let remaining := now - publish.createTime.getD now
    if remaining < expiryInterval then
      .remaining (NonZeroU32.new (UInt32.ofInt ((expiryInterval - remaining).tdiv 1000)))
    else .expiry

/-- `Sink`: a v5 session may have a table of topic aliases. -/
inductive Sink : Type
  | v3
  | v5 (serverTopicAliases : Option ServerTopicAliases)

def Sink.isV5 : Sink → Bool
  | .v3 => false
  | .v5 _ => true

/-- The packet that `Sink::publish` sends. -/
def Sink.publish (p : Codec.Publish) (messageExpiryInterval : Option NonZeroU32) :
    Sink → Option Codec.Publish
  | .v3 => some p
  | .v5 aliases => (TopicAliases.publish aliases p messageExpiryInterval).map Prod.snd

/-! ## The places of a message -/

/-- Where a copy waits: with its publisher, as a delayed publish, as a retained message, or in the
channel, the deliver queue or the outbound window of a subscriber. -/
inductive Place : Type
  | inbound
  | delayed
  | retained
  | channel (client : ClientId)
  | deliverQueue (client : ClientId)
  | inflight (client : ClientId) (status : MomentStatus)
  deriving DecidableEq, Repr

/-- A copy of a message that was received at some time, with an interval or without. -/
structure Copy : Type where
  place : Place
  publish : Publish
  received : TimestampMillis
  interval : Option NonZeroU32
  deriving DecidableEq, Repr

/-- A packet that was sent, and the message it is a copy of. -/
structure Delivery : Type where
  client : ClientId
  v5 : Bool
  packet : Codec.Publish
  time : TimestampMillis
  received : TimestampMillis
  interval : Option NonZeroU32
  deriving DecidableEq, Repr

/-- The seconds of a duration, rounded up. -/
def secondsUp (ms : Int) : Int := (ms + 999) / 1000

/-- A packet to a v5 subscriber is sent before its message expires, with an interval that is no more
than what remains of the one the message came with. -/
def NotExtended (d : Delivery) : Prop :=
  d.v5 = true → ∀ e ∈ d.interval,
    d.time - d.received < millis e ∧
    ∃ interval ∈ expiryOf d.packet, 1 ≤ interval.val.toNat ∧
      (interval.val.toNat : Int) ≤ secondsUp (millis e - (d.time - d.received))

instance (d : Delivery) : Decidable (NotExtended d) :=
  have : ∀ e : NonZeroU32, Decidable (∃ interval ∈ expiryOf d.packet,
      1 ≤ interval.val.toNat ∧
        (interval.val.toNat : Int) ≤ secondsUp (millis e - (d.time - d.received))) :=
    fun _ => Option.decidableExistsMem _
  have : Decidable (∀ e ∈ d.interval, d.time - d.received < millis e ∧
      ∃ interval ∈ expiryOf d.packet, 1 ≤ interval.val.toNat ∧
        (interval.val.toNat : Int) ≤ secondsUp (millis e - (d.time - d.received))) :=
    Option.decidableForallMem _
  inferInstanceAs (Decidable (d.v5 = true → _))

/-! ## Moves -/

/-- What moves a copy.  `publish` has the topic and the delay that `_publish` finds; the peers and
relations are those of `forwards_to`. -/
inductive Move : Type
  | publish (topic : String) (delayInterval : Option UInt32)
  | delayPublish
  | forwards (enable : Bool) (peer : Nat → ClientId → Option Peer) (relations : SubRelations)
  | send (enable : Bool) (peer : Nat → ClientId → Option Peer) (relations : SubRelations)
  | processMessage
  | deliver (listen : TimestampMillis) (sink : Sink) (nextId : UInt16)
  | updateStatus
  | reforward (listen : TimestampMillis)
  | forward
  | sendRetain (client : ClientId) (topic : String) (qos : QoS)
  | drop

/-- The copy in another place. -/
def Copy.to (c : Copy) (place : Place) (publish : Publish) : Copy := { c with place, publish }

/-- `inner_forwards`: the retained copy, and those in the channels. -/
def innerForwards (c : Copy) (enable : Bool) (peer : Nat → ClientId → Option Peer)
    (relations : SubRelations) (publish : Publish) : List Copy :=
  (if enable && publish.inner.retain && !publish.inner.payload.isEmpty then
    [c.to .retained publish] else []) ++
  (forwardsTo peer () publish relations).sent.map fun m =>
    c.to (.channel m.2.dest.clientId) m.2.publish

/-- The publish with the packet id it is delivered with. -/
def numbered (nextId : UInt16) (publish : Publish) : Publish :=
  if publish.inner.qos ≠ .atMostOnce ∧ (publish.inner.dup = false ∨ publish.inner.packetId = none)
  then { publish with inner := { publish.inner with packetId := NonZeroU16.new nextId } }
  else publish

/-- The status in the window of a publish that was delivered. -/
def momentStatus : QoS → Option MomentStatus
  | .atLeastOnce => some .unAck
  | .exactlyOnce => some .unReceived
  | .atMostOnce => none

/-- `SessionState::deliver`: the copy in the window, and the packet. -/
def Copy.deliver (c : Copy) (client : ClientId) (now listen : TimestampMillis) (sink : Sink)
    (nextId : UInt16) : Option (List Copy × List Delivery) :=
  match messageExpiryCheck listen now c.publish with
  | .expiry => some ([], [])
  | .remaining messageExpiryInterval =>
      let publish := numbered nextId c.publish
      (sink.publish publish.inner messageExpiryInterval).map fun packet =>
        ((momentStatus publish.inner.qos).toList.map fun status =>
            c.to (.inflight client status) publish,
          [{ client, v5 := sink.isV5, packet, time := now, received := c.received,
             interval := c.interval }])

/-- `SessionState::reforward`; a message that waits for its PUBCOMP is released again. -/
def Copy.reforward (c : Copy) (client : ClientId) (now listen : TimestampMillis) :
    MomentStatus → List Copy
  | .unAck | .unReceived =>
      [c.to (.channel client) { c.publish with inner := { c.publish.inner with dup := true } }]
  | .unComplete =>
      match messageExpiryCheck listen now c.publish with
      | .expiry => []
      | .remaining _ => [c]

/-- `_send_retain_messages`: the publish that a subscriber is handed. -/
def retainedPublish (now : TimestampMillis) (topic : String) (qos : QoS) (publish : Publish) :
    Publish :=
  { publish with
    createTime := some now
    inner :=
      { publish.inner with
        dup := false
        retain := true
        qos := publish.inner.qos.lessValue qos
        topic
        packetId := none } }

/-- What becomes of a copy: the copies it leaves, and the packets that are sent. -/
def Copy.move (c : Copy) (now : TimestampMillis) : Move → Option (List Copy × List Delivery)
  | .publish topic delayInterval =>
      if c.place = .inbound then
        some ([c.to .inbound
          { c.publish with delayInterval, inner := { c.publish.inner with topic } }], [])
      else none
  | .delayPublish =>
      if c.place = .inbound ∧ c.publish.delayInterval.isSome then
        some ([c.to .delayed c.publish], [])
      else none
  | .forwards enable peer relations =>
      if c.place = .inbound then
        some (innerForwards c enable peer relations c.publish, [])
      else none
  | .send enable peer relations =>
      if c.place = .delayed then
        some (innerForwards c enable peer relations { c.publish with delayInterval := none }, [])
      else none
  | .processMessage =>
      match c.place with
      | .channel client => some ([c.to (.deliverQueue client) c.publish], [])
      | _ => none
  | .deliver listen sink nextId =>
      match c.place with
      | .deliverQueue client => c.deliver client now listen sink nextId
      | _ => none
  | .updateStatus =>
      match c.place with
      | .inflight client _ => some ([c.to (.inflight client .unComplete) c.publish], [])
      | _ => none
  | .reforward listen =>
      match c.place with
      | .inflight client status => some (c.reforward client now listen status, [])
      | _ => none
  | .forward =>
      match c.place with
      | .deliverQueue client => some ([c.to (.channel client) c.publish], [])
      | _ => none
  | .sendRetain client topic qos =>
      if c.place = .retained then
        some ([c, c.to (.channel client) (retainedPublish now topic qos c.publish)], [])
      else none
  | .drop => some ([], [])

/-! ## Runs -/

structure State : Type where
  clock : TimestampMillis
  copies : List Copy := []
  sent : List Delivery := []

/-- A step at some time: a publisher's packet comes in, or the `i`-th copy is moved. -/
inductive Action : Type
  | receive (now : TimestampMillis) (packet : Codec.Publish)
  | move (now : TimestampMillis) (i : Nat) (m : Move)

/-- The copy that `process_mqtt_message` makes of a packet. -/
def receivedCopy (now : TimestampMillis) (packet : Codec.Publish) : Copy where
  place := .inbound
  publish :=
    { inner := packet, targetClientid := none, delayInterval := none, createTime := some now }
  received := now
  interval := expiryOf packet

def step (s : State) : Action → Option State
  | .receive now packet =>
      if s.clock ≤ now then
        some { s with clock := now, copies := s.copies ++ [receivedCopy now packet] }
      else none
  | .move now i m =>
      if s.clock ≤ now then do
        let c ← s.copies[i]?
        let (copies, sent) ← c.move now m
        return { clock := now, copies := s.copies.eraseIdx i ++ copies, sent := s.sent ++ sent }
      else none

/-- The move delivers to a v5 subscriber. -/
def Move.toV5 : Move → Bool
  | .deliver _ sink _ => sink.isV5
  | _ => false

/-- The message is delivered to a v5 subscriber when, by its creation time, it has expired or has a
whole second left, and was created late by less than a second and what is left above whole
seconds. -/
def Timely (now : TimestampMillis) (c : Copy) (m : Move) : Prop :=
  m.toV5 = true → ∀ e ∈ c.interval, ∀ created ∈ c.publish.createTime,
    millis e ≤ now - created ∨
    (1000 ≤ millis e - (now - created) ∧
      created - c.received < 1000 + (millis e - (now - created)) % 1000)

instance (now : TimestampMillis) (c : Copy) (m : Move) : Decidable (Timely now c m) :=
  have : Decidable (∀ e ∈ c.interval, ∀ created ∈ c.publish.createTime,
      millis e ≤ now - created ∨
      (1000 ≤ millis e - (now - created) ∧
        created - c.received < 1000 + (millis e - (now - created)) % 1000)) :=
    Option.decidableForallMem _
  inferInstanceAs (Decidable (m.toV5 = true → _))

/-- The step delivers in time. -/
def DeliversInTime (s : State) : Action → Prop
  | .receive _ _ => True
  | .move now i m => ∀ c ∈ s.copies[i]?, Timely now c m

instance : (s : State) → (a : Action) → Decidable (DeliversInTime s a)
  | _, .receive _ _ => isTrue trivial
  | s, .move now i m => inferInstanceAs (Decidable (∀ c ∈ s.copies[i]?, Timely now c m))

/-! ## What a copy keeps -/

/-- The other copy is of the same message, created at the same time and with the same interval. -/
structure Copy.Same (c c' : Copy) : Prop where
  createTime : c'.publish.createTime = c.publish.createTime
  expiry : expiryOf c'.publish.inner = expiryOf c.publish.inner
  received : c'.received = c.received
  interval : c'.interval = c.interval

/-- What a move makes of a copy: the same, or what `_send_retain_messages` hands to a subscriber. -/
def Copy.Makes (c : Copy) (now : TimestampMillis) (m : Move) (c' : Copy) : Prop :=
  c.Same c' ∨ ∃ client topic qos, m = .sendRetain client topic qos ∧
    c' = c.to (.channel client) (retainedPublish now topic qos c.publish)

/-- The copy has the interval of its message, and a creation time from its reception on. -/
structure Kept (clock : TimestampMillis) (c : Copy) : Prop where
  created : ∃ r, c.publish.createTime = some r ∧ c.received ≤ r ∧ r ≤ clock
  interval : expiryOf c.publish.inner = c.interval

section

variable {clock now : TimestampMillis} {c : Copy}

theorem Copy.Same.refl (c : Copy) : c.Same c := ⟨rfl, rfl, rfl, rfl⟩

/-- In another place, with a publish of the same time and interval. -/
theorem Copy.same_to (place : Place) {publish : Publish}
    (time : publish.createTime = c.publish.createTime)
    (expiry : expiryOf publish.inner = expiryOf c.publish.inner) : c.Same (c.to place publish) :=
  ⟨time, expiry, rfl, rfl⟩

theorem expiryOf_forwardCopy (publish : Publish) (rel : Router.SubRelation) :
    expiryOf (forwardCopy publish rel).inner = expiryOf publish.inner := by
  unfold expiryOf forwardCopy Router.forwardProperties
  cases rel.subIds with
  | none => rfl
  | some subIds => cases publish.inner.properties <;> rfl

theorem expiryOf_numbered (nextId : UInt16) (publish : Publish) :
    expiryOf (numbered nextId publish).inner = expiryOf publish.inner := by
  unfold numbered
  split <;> rfl

theorem createTime_numbered (nextId : UInt16) (publish : Publish) :
    (numbered nextId publish).createTime = publish.createTime := by
  unfold numbered
  split <;> rfl

theorem same_innerForwards {enable : Bool} {peer : Nat → ClientId → Option Peer}
    {relations : SubRelations} {publish : Publish}
    (time : publish.createTime = c.publish.createTime)
    (expiry : expiryOf publish.inner = expiryOf c.publish.inner) :
    ∀ c' ∈ innerForwards c enable peer relations publish, c.Same c' := by
  intro c' hc'
  rcases List.mem_append.mp hc' with retained | sent
  · split at retained
    · rw [List.mem_singleton.mp retained]
      exact Copy.same_to _ time expiry
    · cases retained
  · obtain ⟨⟨i, m⟩, hm, rfl⟩ := List.mem_map.mp sent
    rcases (Router.mem_sent_foldl _ _ _ _ _ _ _).mp hm with old | ⟨rel, -, -, -, copied⟩
    · cases old
    · rw [copied]
      exact Copy.same_to _ time ((expiryOf_forwardCopy publish rel).trans expiry)

theorem same_deliver {client : ClientId} {listen : TimestampMillis} {sink : Sink} {nextId : UInt16}
    {copies : List Copy} {sent : List Delivery}
    (delivered : c.deliver client now listen sink nextId = some (copies, sent)) :
    ∀ c' ∈ copies, c.Same c' := by
  unfold Copy.deliver at delivered
  split at delivered
  · cases delivered
    exact fun _ h => absurd h List.not_mem_nil
  · obtain ⟨packet, -, eq⟩ := Option.map_eq_some_iff.mp delivered
    cases eq
    intro c' hc'
    obtain ⟨status, -, rfl⟩ := List.mem_map.mp hc'
    exact Copy.same_to _ (createTime_numbered _ _) (expiryOf_numbered _ _)

theorem same_reforward (client : ClientId) (listen : TimestampMillis) (status : MomentStatus) :
    ∀ c' ∈ c.reforward client now listen status, c.Same c' := by
  intro c' hc'
  cases status with
  | unAck =>
      rw [List.mem_singleton.mp hc']
      exact Copy.same_to _ rfl rfl
  | unReceived =>
      rw [List.mem_singleton.mp hc']
      exact Copy.same_to _ rfl rfl
  | unComplete =>
      rw [Copy.reforward] at hc'
      split at hc'
      · cases hc'
      · rw [List.mem_singleton.mp hc']
        exact .refl c

theorem timely_of_not_v5 {m : Move} (other : m.toV5 = false) : Timely now c m := by
  intro v5
  rw [other] at v5
  cases v5

/-- A move delivers the copy, or sends nothing.  Only the hand-over of a retained copy makes another
one than it was. -/
theorem move_cases {m : Move} {copies : List Copy} {sent : List Delivery}
    (moved : c.move now m = some (copies, sent)) :
    (∃ listen sink nextId client, m = .deliver listen sink nextId ∧
      c.deliver client now listen sink nextId = some (copies, sent)) ∨
    (sent = [] ∧ Timely now c m ∧ ∀ c' ∈ copies, c.Makes now m c') := by
  have same : ∀ {copies : List Copy}, (∀ c' ∈ copies, c.Same c') → ∀ c' ∈ copies,
      c.Makes now m c' := fun all c' hc' => .inl (all c' hc')
  have alone : ∀ {place : Place} {publish : Publish}, publish.createTime = c.publish.createTime →
      expiryOf publish.inner = expiryOf c.publish.inner →
        ∀ c' ∈ [c.to place publish], c.Makes now m c' := by
    intro place publish time expiry
    exact same (List.forall_mem_singleton.mpr (Copy.same_to place time expiry))
  cases m with
  | publish topic delayInterval =>
      obtain ⟨-, eq⟩ := Option.ite_none_right_eq_some.mp moved
      cases eq
      exact .inr ⟨rfl, timely_of_not_v5 rfl, alone rfl rfl⟩
  | delayPublish =>
      obtain ⟨-, eq⟩ := Option.ite_none_right_eq_some.mp moved
      cases eq
      exact .inr ⟨rfl, timely_of_not_v5 rfl, alone rfl rfl⟩
  | forwards enable peer relations =>
      obtain ⟨-, eq⟩ := Option.ite_none_right_eq_some.mp moved
      cases eq
      exact .inr ⟨rfl, timely_of_not_v5 rfl, same (same_innerForwards rfl rfl)⟩
  | send enable peer relations =>
      obtain ⟨-, eq⟩ := Option.ite_none_right_eq_some.mp moved
      cases eq
      exact .inr ⟨rfl, timely_of_not_v5 rfl, same (same_innerForwards rfl rfl)⟩
  | processMessage =>
      rw [Copy.move] at moved
      split at moved
      · cases moved
        exact .inr ⟨rfl, timely_of_not_v5 rfl, alone rfl rfl⟩
      · cases moved
  | deliver listen sink nextId =>
      rw [Copy.move] at moved
      split at moved
      · rename_i client _
        exact .inl ⟨listen, sink, nextId, client, rfl, moved⟩
      · cases moved
  | updateStatus =>
      rw [Copy.move] at moved
      split at moved
      · cases moved
        exact .inr ⟨rfl, timely_of_not_v5 rfl, alone rfl rfl⟩
      · cases moved
  | reforward listen =>
      rw [Copy.move] at moved
      split at moved
      · cases moved
        exact .inr ⟨rfl, timely_of_not_v5 rfl, same (same_reforward _ _ _)⟩
      · cases moved
  | forward =>
      rw [Copy.move] at moved
      split at moved
      · cases moved
        exact .inr ⟨rfl, timely_of_not_v5 rfl, alone rfl rfl⟩
      · cases moved
  | sendRetain client topic qos =>
      obtain ⟨-, eq⟩ := Option.ite_none_right_eq_some.mp moved
      cases eq
      refine .inr ⟨rfl, timely_of_not_v5 rfl, fun c' hc' => ?_⟩
      rcases List.mem_cons.mp hc' with rfl | handed
      · exact .inl (.refl _)
      · exact .inr ⟨client, topic, qos, rfl, List.mem_singleton.mp handed⟩
  | drop =>
      cases moved
      exact .inr ⟨rfl, timely_of_not_v5 rfl, fun _ h => absurd h List.not_mem_nil⟩

theorem move_makes {m : Move} {copies : List Copy} {sent : List Delivery}
    (moved : c.move now m = some (copies, sent)) : ∀ c' ∈ copies, c.Makes now m c' := by
  rcases move_cases moved with ⟨listen, sink, nextId, client, -, delivered⟩ | ⟨-, -, makes⟩
  · exact fun c' hc' => .inl (same_deliver delivered c' hc')
  · exact makes

theorem kept_receivedCopy (now : TimestampMillis) (packet : Codec.Publish) :
    Kept now (receivedCopy now packet) :=
  ⟨⟨now, rfl, Int.le_refl now, Int.le_refl now⟩, rfl⟩

theorem Kept.later (kept : Kept clock c) (later : clock ≤ now) : Kept now c := by
  obtain ⟨r, created, after, before⟩ := kept.created
  exact ⟨⟨r, created, after, Int.le_trans before later⟩, kept.interval⟩

theorem Kept.same (kept : Kept clock c) {c' : Copy} (same : c.Same c') : Kept clock c' := by
  obtain ⟨r, created, after, before⟩ := kept.created
  constructor
  · rw [same.createTime, same.received]
    exact ⟨r, created, after, before⟩
  · rw [same.expiry, same.interval]
    exact kept.interval

/-- The copy that a subscriber is handed of a retained one is as old as that moment. -/
theorem Kept.sendRetain (kept : Kept now c) (client : ClientId) (topic : String) (qos : QoS) :
    Kept now (c.to (.channel client) (retainedPublish now topic qos c.publish)) := by
  obtain ⟨r, -, after, before⟩ := kept.created
  exact ⟨⟨now, rfl, Int.le_trans after before, Int.le_refl now⟩, kept.interval⟩

/-- What a move leaves of a copy keeps what the copy has. -/
theorem move_kept (kept : Kept now c) {m : Move} {copies : List Copy} {sent : List Delivery}
    (moved : c.move now m = some (copies, sent)) : ∀ c' ∈ copies, Kept now c' := by
  intro c' hc'
  rcases move_makes moved c' hc' with same | ⟨client, topic, qos, -, rfl⟩
  · exact kept.same same
  · exact kept.sendRetain client topic qos

end

/-! ## What a delivery sends -/

theorem millis_pos (e : NonZeroU32) : 1000 ≤ millis e := by
  have nonzero : e.val.toNat ≠ 0 := fun h => e.property (UInt32.toNat_inj.mp h)
  unfold millis
  omega

theorem millis_lt (e : NonZeroU32) : millis e < 4294967296000 := by
  have bound := e.val.toNat_lt
  unfold millis
  omega

/-- The cast to 32 bits keeps the seconds that are left. -/
theorem cast_seconds {total age : Int} (past : 0 ≤ age) (before : age < total)
    (bound : total < 4294967296000) :
    UInt32.ofInt ((total - age).tdiv 1000) = UInt32.ofNat ((total - age) / 1000).toNat := by
  have value : ((total - age).tdiv 1000 % 4294967296).toNat = ((total - age) / 1000).toNat := by
    rw [Int.tdiv_eq_ediv_of_nonneg (by omega)]
    omega
  exact congrArg UInt32.ofNat value

/-- The check of a message with an interval, which was created some time ago. -/
theorem messageExpiryCheck_eq {publish : Publish} {e : NonZeroU32} {created now : TimestampMillis}
    (listen : TimestampMillis) (interval : expiryOf publish.inner = some e)
    (time : publish.createTime = some created) (past : created ≤ now) :
    messageExpiryCheck listen now publish =
      if now - created < millis e then
        .remaining (NonZeroU32.new (UInt32.ofNat ((millis e - (now - created)) / 1000).toNat))
      else .expiry := by
  have pos := millis_pos e
  unfold messageExpiryCheck
  rw [interval, time]
  simp only [Option.map_some, Option.getD_some]
  rw [if_neg (by omega)]
  split
  · rename_i before
    rw [cast_seconds (Int.sub_nonneg_of_le past) before (millis_lt e)]
  · rfl

/-- A packet with properties is sent with the interval that is given. -/
theorem expiryOf_publish {aliases : Option ServerTopicAliases} {p packet : Codec.Publish}
    {interval : Option NonZeroU32}
    (published : Sink.publish p interval (.v5 aliases) = some packet)
    (carried : (expiryOf p).isSome) : expiryOf packet = interval := by
  have written : ∀ (topic : String) (aliasId : Option NonZeroU16),
      expiryOf { p with
        topic
        properties := p.properties.map fun q =>
          { q with messageExpiryInterval := interval, topicAlias := aliasId } } = interval := by
    intro topic aliasId
    unfold expiryOf at carried ⊢
    cases h : p.properties with
    | none =>
        rw [h] at carried
        cases carried
    | some q => rfl
  obtain ⟨⟨table, sent⟩, made, rfl⟩ := Option.map_eq_some_iff.mp published
  unfold TopicAliases.publish at made
  cases aliases with
  | none =>
      cases made
      exact written _ none
  | some s =>
      obtain ⟨⟨table, topic, aliasId⟩, -, eq⟩ := Option.bind_eq_some_iff.mp made
      cases eq
      exact written _ aliasId

theorem seconds_lt {total age : Int} (bound : total < 4294967296000) (past : 0 ≤ age) :
    (total - age) / 1000 < 4294967296 := by
  omega

/-- Whole seconds of what is left by the creation time, against what is left by the reception. -/
theorem within_iff {received created now total : Int} (after : received ≤ created)
    (before : now - created < total) :
    (now - received < total ∧ 1 ≤ (total - (now - created)) / 1000 ∧
        (total - (now - created)) / 1000 ≤ secondsUp (total - (now - received))) ↔
      1000 ≤ total - (now - created) ∧
        created - received < 1000 + (total - (now - created)) % 1000 := by
  unfold secondsUp
  omega

/-- The interval that is sent, where the seconds that are left fit 32 bits. -/
theorem carried_iff {seconds bound : Int} (fits : seconds < 4294967296) :
    (∃ interval ∈ NonZeroU32.new (UInt32.ofNat seconds.toNat),
        1 ≤ interval.val.toNat ∧ (interval.val.toNat : Int) ≤ bound) ↔
      1 ≤ seconds ∧ seconds ≤ bound := by
  have value : (UInt32.ofNat seconds.toNat).toNat = seconds.toNat := by
    rw [UInt32.toNat_ofNat']
    omega
  constructor
  · rintro ⟨interval, new, pos, le⟩
    unfold NonZeroU32.new at new
    split at new
    · cases new
      change 1 ≤ (UInt32.ofNat seconds.toNat).toNat at pos
      change ((UInt32.ofNat seconds.toNat).toNat : Int) ≤ bound at le
      omega
    · cases new
  · rintro ⟨pos, le⟩
    have nonzero : UInt32.ofNat seconds.toNat ≠ 0 := by
      intro zero
      rw [zero] at value
      change 0 = _ at value
      omega
    refine ⟨⟨_, nonzero⟩, dif_pos nonzero, ?_⟩
    change 1 ≤ (UInt32.ofNat seconds.toNat).toNat ∧
      ((UInt32.ofNat seconds.toNat).toNat : Int) ≤ bound
    omega

section

variable {now : TimestampMillis} {c : Copy}

/-- A delivery sends nothing, or one packet. -/
theorem sent_deliver {client : ClientId} {listen : TimestampMillis} {sink : Sink} {nextId : UInt16}
    {copies : List Copy} {sent : List Delivery}
    (delivered : c.deliver client now listen sink nextId = some (copies, sent)) :
    (messageExpiryCheck listen now c.publish = .expiry ∧ sent = []) ∨
    ∃ interval packet, messageExpiryCheck listen now c.publish = .remaining interval ∧
      sink.publish (numbered nextId c.publish).inner interval = some packet ∧
      sent = [{ client, v5 := sink.isV5, packet, time := now, received := c.received,
                interval := c.interval }] := by
  unfold Copy.deliver at delivered
  split at delivered
  · rename_i expired
    cases delivered
    exact .inl ⟨expired, rfl⟩
  · rename_i interval remains
    obtain ⟨packet, published, eq⟩ := Option.map_eq_some_iff.mp delivered
    cases eq
    exact .inr ⟨interval, packet, remains, published, rfl⟩

theorem timely_deliver_iff {e : NonZeroU32} {created : TimestampMillis}
    (interval : c.interval = some e) (time : c.publish.createTime = some created)
    (listen : TimestampMillis) (aliases : Option ServerTopicAliases) (nextId : UInt16) :
    Timely now c (.deliver listen (.v5 aliases) nextId) ↔
      millis e ≤ now - created ∨ (1000 ≤ millis e - (now - created) ∧
        created - c.received < 1000 + (millis e - (now - created)) % 1000) := by
  unfold Timely
  rw [interval, time]
  simp only [Option.mem_some_iff, forall_eq']
  exact forall_prop_of_true rfl

/-- The copy of a message with an interval, for a v5 subscriber. -/
theorem deliver_exact_v5 (kept : Kept now c) {e : NonZeroU32} (interval : c.interval = some e)
    {client : ClientId} {listen : TimestampMillis} {aliases : Option ServerTopicAliases}
    {nextId : UInt16} {copies : List Copy} {sent : List Delivery}
    (delivered : c.deliver client now listen (.v5 aliases) nextId = some (copies, sent)) :
    (∀ d ∈ sent, NotExtended d) ↔ Timely now c (.deliver listen (.v5 aliases) nextId) := by
  obtain ⟨created, time, after, past⟩ := kept.created
  have carried : expiryOf c.publish.inner = some e := kept.interval.trans interval
  have check := messageExpiryCheck_eq listen carried time past
  rw [timely_deliver_iff interval time]
  by_cases before : now - created < millis e
  · rw [if_pos before] at check
    rcases sent_deliver delivered with ⟨expired, -⟩ | ⟨sentWith, packet, remains, published, rfl⟩
    · rw [check] at expired
      cases expired
    · rw [check] at remains
      cases remains
      have written := expiryOf_publish published (by rw [expiryOf_numbered, carried]; rfl)
      have fits := seconds_lt (millis_lt e) (Int.sub_nonneg_of_le past)
      rw [or_iff_right (Int.not_le.mpr before), ← within_iff after before,
        List.forall_mem_singleton]
      unfold NotExtended
      rw [interval, written]
      rw [← carried_iff fits]
      simp only [Option.mem_some_iff, forall_eq']
      exact forall_prop_of_true rfl
  · rw [if_neg before] at check
    rcases sent_deliver delivered with ⟨-, rfl⟩ | ⟨_, _, remains, -, -⟩
    · exact ⟨fun _ => .inl (Int.not_lt.mp before), fun _ _ h => absurd h List.not_mem_nil⟩
    · rw [check] at remains
      cases remains

/-- A delivery extends no expiry exactly when it is in time. -/
theorem deliver_exact (kept : Kept now c) {client : ClientId} {listen : TimestampMillis}
    {sink : Sink} {nextId : UInt16} {copies : List Copy} {sent : List Delivery}
    (delivered : c.deliver client now listen sink nextId = some (copies, sent)) :
    (∀ d ∈ sent, NotExtended d) ↔ Timely now c (.deliver listen sink nextId) := by
  have sending := sent_deliver delivered
  cases sink with
  | v3 =>
      -- nothing is asked of a packet to a v3 subscriber
      refine ⟨fun _ => timely_of_not_v5 rfl, fun _ d hd v5 => ?_⟩
      rcases sending with ⟨-, rfl⟩ | ⟨_, _, -, -, rfl⟩
      · cases hd
      · rw [List.mem_singleton.mp hd] at v5
        cases v5
  | v5 aliases =>
      cases interval : c.interval with
      | none =>
          refine ⟨fun _ _ e he => ?_, fun _ d hd _ e he => ?_⟩
          · rw [interval] at he
            cases he
          · rcases sending with ⟨-, rfl⟩ | ⟨_, _, -, -, rfl⟩
            · cases hd
            · rw [List.mem_singleton.mp hd, interval] at he
              cases he
      | some e => exact deliver_exact_v5 kept interval delivered

/-- A move sends no packet that extends an expiry exactly when it is in time. -/
theorem move_exact (kept : Kept now c) {m : Move} {copies : List Copy} {sent : List Delivery}
    (moved : c.move now m = some (copies, sent)) :
    (∀ d ∈ sent, NotExtended d) ↔ Timely now c m := by
  rcases move_cases moved with
    ⟨listen, sink, nextId, client, rfl, delivered⟩ | ⟨rfl, timely, -⟩
  · exact deliver_exact kept delivered
  · exact ⟨fun _ => timely, fun _ _ h => absurd h List.not_mem_nil⟩

end

/-! ## What a run sends -/

section

variable {s s' : State} {a : Action}

/-- A step receives a packet, or moves a copy, at some time from now on. -/
theorem step_cases (stepped : step s a = some s') :
    (∃ now packet, a = .receive now packet ∧ s.clock ≤ now ∧
      s' = { s with clock := now, copies := s.copies ++ [receivedCopy now packet] }) ∨
    ∃ now i m c copies sent, a = .move now i m ∧ s.clock ≤ now ∧ s.copies[i]? = some c ∧
      c.move now m = some (copies, sent) ∧
      s' = { clock := now, copies := s.copies.eraseIdx i ++ copies, sent := s.sent ++ sent } := by
  cases a with
  | receive now packet =>
      obtain ⟨later, eq⟩ := Option.ite_none_right_eq_some.mp stepped
      cases eq
      exact .inl ⟨now, packet, rfl, later, rfl⟩
  | move now i m =>
      obtain ⟨later, taken⟩ := Option.ite_none_right_eq_some.mp stepped
      obtain ⟨c, found, taken⟩ := Option.bind_eq_some_iff.mp taken
      obtain ⟨⟨copies, sent⟩, moved, eq⟩ := Option.bind_eq_some_iff.mp taken
      cases eq
      exact .inr ⟨now, i, m, c, copies, sent, rfl, later, found, moved, rfl⟩

/-- Every copy that waits keeps what its message came with. -/
def AllKept (s : State) : Prop := ∀ c ∈ s.copies, Kept s.clock c

theorem AllKept.step (kept : AllKept s) (stepped : step s a = some s') : AllKept s' := by
  rcases step_cases stepped with
    ⟨now, packet, -, later, rfl⟩ | ⟨now, i, m, c, copies, sent, -, later, found, moved, rfl⟩
  · intro c hc
    rcases List.mem_append.mp hc with old | new
    · exact (kept c old).later later
    · rw [List.mem_singleton.mp new]
      exact kept_receivedCopy now packet
  · intro c' hc'
    rcases List.mem_append.mp hc' with old | new
    · exact (kept c' (List.mem_of_mem_eraseIdx old)).later later
    · exact move_kept ((kept c (List.mem_of_getElem? found)).later later) moved c' new

/-- The step hands no retained message to a subscriber. -/
def Direct : Action → Prop
  | .move _ _ (.sendRetain _ _ _) => False
  | _ => True

/-- Every copy that waits was created when its message was received. -/
def AllDirect (s : State) : Prop := ∀ c ∈ s.copies, c.publish.createTime = some c.received

theorem AllDirect.step (all : AllDirect s) (direct : Direct a) (stepped : step s a = some s') :
    AllDirect s' := by
  rcases step_cases stepped with
    ⟨now, packet, -, -, rfl⟩ | ⟨now, i, m, c, copies, sent, rfl, -, found, moved, rfl⟩
  · intro c hc
    rcases List.mem_append.mp hc with old | new
    · exact all c old
    · rw [List.mem_singleton.mp new]
      rfl
  · intro c' hc'
    rcases List.mem_append.mp hc' with old | new
    · exact all c' (List.mem_of_mem_eraseIdx old)
    · rcases move_makes moved c' new with same | ⟨client, topic, qos, rfl, -⟩
      · rw [same.createTime, same.received]
        exact all c (List.mem_of_getElem? found)
      · exact direct.elim

/-- In a run that hands over no retained message, a delivery is in time when the message has expired
or has a whole second left. -/
theorem timely_direct_iff {clock : TimestampMillis} {actions : List Action}
    (ran : Machine.run step { clock } actions = some s) (direct : ∀ a ∈ actions, Direct a)
    {c : Copy} (waits : c ∈ s.copies) {e : NonZeroU32} (interval : c.interval = some e)
    (now listen : TimestampMillis) (aliases : Option ServerTopicAliases) (nextId : UInt16) :
    Timely now c (.deliver listen (.v5 aliases) nextId) ↔
      millis e ≤ now - c.received ∨ 1000 ≤ millis e - (now - c.received) := by
  have all : AllDirect s := Machine.invariant_guarded
    (fun _ _ _ all direct stepped => all.step direct stepped)
    (Machine.guarded_of_forall direct { clock }) ran fun _ h => absurd h List.not_mem_nil
  rw [timely_deliver_iff interval (all c waits)]
  refine or_congr_right (and_iff_left ?_)
  rw [Int.sub_self]
  exact Int.add_pos_of_pos_of_nonneg (by decide) (Int.emod_nonneg _ (by decide))

/-- What a step sends extends no expiry exactly when the step delivers in time. -/
theorem sent_step (kept : AllKept s) (stepped : step s a = some s') :
    ∃ new, s'.sent = s.sent ++ new ∧ ((∀ d ∈ new, NotExtended d) ↔ DeliversInTime s a) := by
  rcases step_cases stepped with
    ⟨now, packet, rfl, -, rfl⟩ | ⟨now, i, m, c, copies, sent, rfl, later, found, moved, rfl⟩
  · exact ⟨[], (List.append_nil _).symm, fun _ => trivial, fun _ _ h => absurd h List.not_mem_nil⟩
  · have exactly := move_exact ((kept c (List.mem_of_getElem? found)).later later) moved
    refine ⟨sent, rfl, exactly.trans ?_⟩
    rw [DeliversInTime, found]
    simp only [Option.mem_some_iff, forall_eq']

/-- A run sends no packet that extends an expiry exactly when all its deliveries are in time. -/
theorem expiry_not_extended (clock : TimestampMillis) (actions : List Action)
    (ran : Machine.run step { clock } actions = some s') :
    (∀ d ∈ s'.sent, NotExtended d) ↔ Machine.Guarded step DeliversInTime { clock } actions := by
  have initial : AllKept { clock } := fun _ h => absurd h List.not_mem_nil
  rw [Machine.log_iff_guarded (fun _ _ _ => AllKept.step) (fun _ _ _ => sent_step) ran initial]
  exact and_iff_right fun _ h => absurd h List.not_mem_nil

end

/-! ## Two messages -/

/-- A QoS 0 publish that lives for some seconds, and is retained if so wished. -/
def expiring (seconds : NonZeroU32) (retain : Bool) : Codec.Publish where
  dup := false
  retain
  qos := .atMostOnce
  topic := "t"
  packetId := none
  payload := [0]
  properties := some { messageExpiryInterval := some seconds }

/-- A relation of the subscriber "s". -/
def subscribed : Router.SubRelation where
  topicFilter := "t"
  clientId := "s"
  opts := .v3 { qos := .atMostOnce, sharedGroup := none, limitSubs := none }
  subIds := none
  group := none

/-- The message comes in, is forwarded to the subscriber, and delivered after some time. -/
def deliveredAfter (seconds : NonZeroU32) (ms : TimestampMillis) : List Action :=
  [.receive 0 (expiring seconds false),
    .move 0 0 (.forwards true (fun _ _ => some ⟨.ofClient 1 "s", true⟩) [subscribed]),
    .move 0 0 .processMessage,
    .move ms 0 (.deliver 300000 (.v5 none) 1)]

/-- The message comes in and is retained; a client that subscribes later is handed it. -/
def retainedFor (seconds : NonZeroU32) (ms : TimestampMillis) : List Action :=
  [.receive 0 (expiring seconds true),
    .move 0 0 (.forwards true (fun _ _ => none) []),
    .move ms 0 (.sendRetain "s" "t" .atMostOnce),
    .move ms 1 .processMessage,
    .move ms 1 (.deliver 300000 (.v5 none) 1)]

/-- A message that is delivered with nine whole seconds left, and one that is retained for less than
a second. -/
theorem expiry_in_time :
    (∃ s ∈ Machine.run step { clock := 0 } (deliveredAfter ⟨10, by decide⟩ 400),
      ∀ d ∈ s.sent, NotExtended d) ∧
    ∃ s ∈ Machine.run step { clock := 0 } (retainedFor ⟨10, by decide⟩ 600),
      ∀ d ∈ s.sent, NotExtended d := by
  have delivered : (Machine.run step { clock := 0 }
    (deliveredAfter ⟨10, by decide⟩ 400)).isSome := by
    decide +kernel
  have retained : (Machine.run step { clock := 0 } (retainedFor ⟨10, by decide⟩ 600)).isSome := by
    decide +kernel
  exact ⟨⟨_, Option.get_mem delivered,
      (expiry_not_extended 0 _ (Option.get_mem delivered)).mpr (by decide +kernel)⟩,
    ⟨_, Option.get_mem retained,
      (expiry_not_extended 0 _ (Option.get_mem retained)).mpr (by decide +kernel)⟩⟩

/-- A message of one second has no interval after a millisecond, and one that is retained for half
of its interval has the whole of it again. -/
theorem expiry_extended :
    (∃ s ∈ Machine.run step { clock := 0 } (deliveredAfter ⟨1, by decide⟩ 1),
      ∃ d ∈ s.sent, expiryOf d.packet = none ∧ ¬ NotExtended d) ∧
    ∃ s ∈ Machine.run step { clock := 0 } (retainedFor ⟨10, by decide⟩ 5000),
      ∃ d ∈ s.sent, expiryOf d.packet = some ⟨10, by decide⟩ ∧ ¬ NotExtended d := by
  decide +kernel

end OxiMqtt.Session.Expiry

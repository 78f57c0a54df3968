import OxiMqtt.Session.Outbound

/-!
# A new connection takes over a persistent session

The old session's task with its channel, deliver queue and window, the handshake
of a new connection with the same client id (`LockEntry::kick`, `_remove`,
`to_offline_info`, `entry.set`, the state transfer), and the publishers, which
resolve the client's `Tx` and then send (`forwards_to`), in any interleaving.  One
turn of a loop of the old session's task is one step.

A message is numbered when a publisher resolves the `Tx`.  Two logs that no branch
reads say where a message went: `delivered` holds the publishes that were sent on
the old connection and that the old session tracks no more, `dropped` those
reported through `message_dropped`.

* `held s place`: the messages at a place.
* `DiscardsNone`: the condition on a step.  Three steps discard what they hold: the
  old session's receiver is dropped with its channel, a `deliver` that fails loses
  its publish, and a new connection that fails before it reads the transferred
  state loses that.
-/

namespace OxiMqtt.Session.Takeover

open OxiMqtt.Codec (QoS NonZeroU16 Publish)
open Outbound (MsgId Ack deliverPolicy assignPacketId)

/-! ## The old session -/

/-- Where the task of the old session is: in its online or its offline loop, out
of the loop by a Kick, discarding its state after the session expired, done with
that, or gone with its receiver. -/
inductive Phase : Type
  | online
  | offline
  | kicked
  | cleaning
  | cleaned
  | gone
  deriving DecidableEq, Repr

/-- The messages of the old session's channel. -/
inductive Message : Type
  | forward (msg : MsgId) (publish : Publish)
  | sendRerelease (m : OutInflightMessage MsgId)
  | kick
  deriving DecidableEq, Repr

namespace Message

/-- A publish whose PUBREL was due: the client has received it. -/
def received : Message → Option (MsgId × Publish)
  | .sendRerelease m => some (m.origin, m.publish)
  | _ => none

/-- A QoS 1 or 2 publish on its way to the deliver queue. -/
def forwards : Message → Bool
  | .forward _ p => p.qos ≠ .atMostOnce
  | _ => false

end Message

structure OldSession : Type where
  phase : Phase
  channel : List Message
  queue : List (MsgId × Publish)
  queueCap : Nat
  outInflight : OutInflight MsgId
  clock : TimestampMillis
  /-- The Kick was answered. -/
  replied : Bool
  delivered : List (MsgId × Publish)
  dropped : List (MsgId × Publish)
  deriving DecidableEq, Repr

/-- What the old session's task does. -/
inductive OldStep : Type
  | tick (elapsed : TimestampMillis)
  | message
  | timeout (expired : Bool)
  | deliver (expired : Bool)
  /-- `deliver` finds no packet id or cannot write the packet: the connection ends,
  and the publish is neither tracked nor reported. -/
  | deliverError
  | packet (ack : Ack)
  /-- The connection ends otherwise than by a Kick. -/
  | disconnect
  /-- The session expiry interval is over. -/
  | expire
  /-- One turn of `clean`. -/
  | clean
  /-- `run` returns, and the receiver is dropped with what is in the channel. -/
  | exit
  deriving DecidableEq, Repr

namespace OldSession

/-- The window entry that an insertion under the packet id replaces. -/
def replaced (w : OutInflight MsgId) (packetId : PacketId) : List (MsgId × Publish) :=
  (w.queues.find? fun e => e.1 == packetId).toList.map fun e => (e.2.origin, e.2.publish)

/-- `deliver_queue_tx.send`, with the message it hands back reported. -/
def enqueue (o : OldSession) (item : MsgId × Publish) : OldSession :=
  let r := DeliverQueue.send o.queueCap deliverPolicy o.queue item
  { o with queue := r.1, dropped := o.dropped ++ r.2.toList }

/-- `push_back` of a publish that has its packet id. -/
def track (o : OldSession) (w : OutInflight MsgId) (m : OutInflightMessage MsgId) : OldSession :=
  match m.publish.packetId with
  | none => { o with outInflight := w, delivered := o.delivered ++ [(m.origin, m.publish)] }
  | some packetId =>
      { o with
        outInflight := (w.pushBack m).1
        delivered := o.delivered ++ replaced w packetId.val }

/-- The Kick: answered unless the handshake has given up waiting. -/
def kick (o : OldSession) (waiting : Bool) : OldSession :=
  if waiting then { o with phase := .kicked, replied := true } else o

/-- The channel arm of the online loop (`process_message`) and of the offline loop,
which only forwards and is kicked. -/
def processMessage (o : OldSession) (waiting : Bool) : Message → OldSession
  | .forward msg p => o.enqueue (msg, p)
  | .kick => o.kick waiting
  | .sendRerelease m =>
      if o.phase = .online then
        match m.publish.packetId with
        | none =>
            { o with phase := .offline, delivered := o.delivered ++ [(m.origin, m.publish)] }
        | some _ => o.track o.outInflight { m with status := .unComplete, updateTime := o.clock }
      else { o with delivered := o.delivered ++ [(m.origin, m.publish)] }

/-- `reforward` into the session's own channel. -/
def reforward (o : OldSession) (m : OutInflightMessage MsgId) (expired : Bool) : OldSession :=
  match m.status with
  | .unComplete =>
      if expired then { o with delivered := o.delivered ++ [(m.origin, m.publish)] }
      else { o with channel := o.channel ++ [.sendRerelease m] }
  | _ => { o with channel := o.channel ++ [.forward m.origin { m.publish with dup := true }] }

/-- `deliver` -/
def deliver (o : OldSession) (msg : MsgId) (p : Publish) (expired : Bool) : Option OldSession :=
  if expired then some { o with dropped := o.dropped ++ [(msg, p)] }
  else
    (assignPacketId o.outInflight p).map fun (p, w) =>
      match p.qos with
      | .atLeastOnce => o.track w ⟨p, msg, .unAck, o.clock⟩
      | .exactlyOnce => o.track w ⟨p, msg, .unReceived, o.clock⟩
      | .atMostOnce => { o with outInflight := w, delivered := o.delivered ++ [(msg, p)] }

/-- The error paths of `deliver`. -/
def deliverError (o : OldSession) (p : Publish) : OldSession :=
  { o with
    phase := .offline
    outInflight :=
      match assignPacketId o.outInflight p with
      | some (_, w) => w
      | none => o.outInflight.nextId.2 }

/-- The acknowledgments that take a message out of the window. -/
def finish (o : OldSession) (packetId : PacketId) : OldSession :=
  let r := o.outInflight.remove packetId
  { o with
    outInflight := r.2
    delivered := o.delivered ++ r.1.toList.map fun m => (m.origin, m.publish) }

def processAck (o : OldSession) : Ack → OldSession
  | .publishAck packetId => o.finish packetId.val
  | .publishReceived packetId =>
      { o with outInflight := o.outInflight.updateStatus o.clock packetId.val .unComplete }
  | .publishComplete packetId => o.finish packetId.val

/-- One turn of `clean`: it empties the deliver queue, then the window. -/
def clean (o : OldSession) : OldSession :=
  match o.queue with
  | item :: queue => { o with queue, dropped := o.dropped ++ [item] }
  | [] =>
      match o.outInflight.popFront with
      | some (m, w) => { o with outInflight := w, dropped := o.dropped ++ [(m.origin, m.publish)] }
      | none => { o with phase := .cleaned }

/-- One step of the task; `waiting` says that the handshake waits for the answer
to its Kick. -/
def step (o : OldSession) (waiting : Bool) : OldStep → Option OldSession
  | .tick elapsed => some { o with clock := o.clock + elapsed }
  | .message =>
      if o.phase = .online ∨ o.phase = .offline then
        match o.channel with
        | [] => none
        | m :: channel => some ({ o with channel }.processMessage waiting m)
      else none
  | .timeout expired =>
      if o.phase = .online then
        (o.outInflight.popFrontTimeout o.clock).map fun (m, w) =>
          { o with outInflight := w }.reforward m expired
      else none
  | .deliver expired =>
      if o.phase = .online ∧ o.outInflight.hasCredit = true then
        match o.queue with
        | [] => none
        | (msg, p) :: queue => { o with queue }.deliver msg p expired
      else none
  | .deliverError =>
      if o.phase = .online ∧ o.outInflight.hasCredit = true then
        match o.queue with
        | [] => none
        | (_, p) :: queue => some ({ o with queue }.deliverError p)
      else none
  | .packet ack => if o.phase = .online then some (o.processAck ack) else none
  | .disconnect => if o.phase = .online then some { o with phase := .offline } else none
  | .expire => if o.phase = .offline then some { o with phase := .cleaning } else none
  | .clean => if o.phase = .cleaning then some o.clean else none
  | .exit =>
      if o.phase = .kicked ∨ o.phase = .cleaned then
        some { o with
          phase := .gone
          channel := []
          delivered := o.delivered ++ o.channel.filterMap Message.received }
      else none

/-- The steps of the task, each with what it has found. -/
inductive Steps (o : OldSession) (waiting : Bool) : OldStep → OldSession → Prop
  | tick (elapsed : TimestampMillis) :
      Steps o waiting (.tick elapsed) { o with clock := o.clock + elapsed }
  | message {m : Message} {channel : List Message} (loops : o.phase = .online ∨ o.phase = .offline)
      (hchannel : o.channel = m :: channel) :
      Steps o waiting .message ({ o with channel }.processMessage waiting m)
  | timeout {expired : Bool} {m : OutInflightMessage MsgId} {w : OutInflight MsgId}
      (online : o.phase = .online) (popped : o.outInflight.popFrontTimeout o.clock = some (m, w)) :
      Steps o waiting (.timeout expired) ({ o with outInflight := w }.reforward m expired)
  | deliver {expired : Bool} {msg : MsgId} {p : Publish} {queue : List (MsgId × Publish)}
      {o' : OldSession} (online : o.phase = .online) (credit : o.outInflight.hasCredit = true)
      (hqueue : o.queue = (msg, p) :: queue)
      (delivered : { o with queue }.deliver msg p expired = some o') :
      Steps o waiting (.deliver expired) o'
  | deliverError {msg : MsgId} {p : Publish} {queue : List (MsgId × Publish)}
      (online : o.phase = .online) (credit : o.outInflight.hasCredit = true)
      (hqueue : o.queue = (msg, p) :: queue) :
      Steps o waiting .deliverError ({ o with queue }.deliverError p)
  | packet {ack : Ack} (online : o.phase = .online) :
      Steps o waiting (.packet ack) (o.processAck ack)
  | disconnect (online : o.phase = .online) :
      Steps o waiting .disconnect { o with phase := .offline }
  | expire (offline : o.phase = .offline) : Steps o waiting .expire { o with phase := .cleaning }
  | clean (cleaning : o.phase = .cleaning) : Steps o waiting .clean o.clean
  | exit (left : o.phase = .kicked ∨ o.phase = .cleaned) :
      Steps o waiting .exit { o with
        phase := .gone
        channel := []
        delivered := o.delivered ++ o.channel.filterMap Message.received }

theorem steps_of_step {o o' : OldSession} {waiting : Bool} {a : OldStep}
    (h : o.step waiting a = some o') : Steps o waiting a o' := by
  cases a with
  | tick elapsed =>
      cases h
      exact .tick elapsed
  | message =>
      simp only [step] at h
      split at h
      · rename_i loops
        split at h
        · cases h
        · rename_i hchannel
          cases h
          exact .message loops hchannel
      · cases h
  | timeout expired =>
      simp only [step] at h
      split at h
      · rename_i online
        obtain ⟨⟨m, w⟩, popped, rfl⟩ := Option.map_eq_some_iff.mp h
        exact .timeout online popped
      · cases h
  | deliver expired =>
      simp only [step] at h
      split at h
      · rename_i ready
        split at h
        · cases h
        · rename_i hqueue
          exact .deliver ready.1 ready.2 hqueue h
      · cases h
  | deliverError =>
      simp only [step] at h
      split at h
      · rename_i ready
        split at h
        · cases h
        · rename_i hqueue
          cases h
          exact .deliverError ready.1 ready.2 hqueue
      · cases h
  | packet | disconnect | expire | clean | exit =>
      simp only [step] at h
      split at h
      · rename_i here
        cases h
        constructor
        exact here
      · cases h

end OldSession

/-! ## The takeover -/

/-- Which session a `Tx` belongs to. -/
inductive Target : Type
  | old
  | new
  deriving DecidableEq, Repr

/-- Where the handshake of the new connection is. -/
inductive Handshake : Type
  | start
  | waiting
  | removing
  | draining
  | built
  /-- The new session is in `peers` and has not read its SessionStateTransfer. -/
  | set
  | transferring
  | finished
  /-- The Kick was dropped unanswered, or the new connection ended before it read the
  SessionStateTransfer. -/
  | failed
  deriving DecidableEq, Repr

/-- `OfflineInfo`, without the subscriptions. -/
structure OfflineInfo : Type where
  offlineMessages : List (MsgId × Publish)
  inflightMessages : List (OutInflightMessage MsgId)
  deriving DecidableEq, Repr

/-- A publisher between resolving the `Tx` and sending. -/
structure Send : Type where
  msg : MsgId
  publish : Publish
  target : Target
  deriving DecidableEq, Repr

structure State : Type where
  old : OldSession
  /-- The client's entry of `peers`. -/
  peers : Option Target
  handshake : Handshake
  info : OfflineInfo
  newChannel : List (MsgId × Publish)
  sends : List Send
  /-- The messages whose `unbounded_send` succeeded. -/
  sent : List (MsgId × QoS)
  handed : Nat
  deriving DecidableEq, Repr

inductive Step : Type
  | old (step : OldStep)
  | resolve (publish : Publish)
  | send (k : Nat)
  | kick
  | kickReply
  | kickTimeout
  | kickError
  | remove
  | drainQueue
  | drainInflight
  | set
  | transfer
  | reforward
  /-- `Session::new` or `keep_alive` fails, the new session's task is not started, or
  it leaves its online loop, with the SessionStateTransfer unread. -/
  | abort
  deriving DecidableEq, Repr

namespace State

/-- `unbounded_send` of a publisher: it fails on a closed channel, which the caller
reports. -/
def unboundedSend (s : State) (x : Send) : State :=
  match x.target with
  | .old =>
      if s.old.phase = .gone then s
      else { s with
        old := { s.old with channel := s.old.channel ++ [.forward x.msg x.publish] }
        sent := s.sent ++ [(x.msg, x.publish.qos)] }
  | .new =>
      { s with
        newChannel := s.newChannel ++ [(x.msg, x.publish)]
        sent := s.sent ++ [(x.msg, x.publish.qos)] }

/-- `forwards_to` up to the lookup of the `Tx`; a client without an entry is
reported. -/
def resolve (s : State) (publish : Publish) : State :=
  match s.peers with
  | none => { s with handed := s.handed + 1 }
  | some target =>
      { s with
        sends := s.sends ++ [⟨s.handed, { publish with dup := false, packetId := none }, target⟩]
        handed := s.handed + 1 }

/-- One turn of `transfer_session_state`: the inflight messages from the back, then
the offline messages from the front. -/
def reforward (s : State) : State :=
  match s.info.inflightMessages.getLast? with
  | some m =>
      let info := { s.info with inflightMessages := s.info.inflightMessages.dropLast }
      if m.status = .unComplete then
        { s with
          info
          old := { s.old with delivered := s.old.delivered ++ [(m.origin, m.publish)] } }
      else { s with info, newChannel := s.newChannel ++ [(m.origin, { m.publish with dup := true })] }
  | none =>
      match s.info.offlineMessages with
      | item :: rest =>
          { s with
            info := { s.info with offlineMessages := rest }
            newChannel := s.newChannel ++ [item] }
      | [] => { s with handshake := .finished }

/-- The `OfflineInfo` is dropped; the client has received the messages whose PUBCOMP
was due. -/
def abort (s : State) : State :=
  let received := s.info.inflightMessages.filter fun m => m.status = .unComplete
  { s with
    old := { s.old with
      delivered := s.old.delivered ++ received.map fun m => (m.origin, m.publish) }
    info := ⟨[], []⟩
    handshake := .failed }

def step (s : State) : Step → Option State
  | .old a =>
      (s.old.step (s.handshake = .waiting) a).map fun old =>
        -- The last turn of `clean` takes the session's own entry out of `peers`.
        if a = .clean ∧ old.phase = .cleaned ∧ s.peers = some .old then { s with old, peers := none }
        else { s with old }
  | .resolve publish => some (s.resolve publish)
  | .send k =>
      (s.sends[k]?).map fun x => { s with sends := s.sends.eraseIdx k }.unboundedSend x
  | .kick =>
      if s.handshake = .start then
        if s.peers = some .old ∧ s.old.phase ≠ .gone then
          some { s with
            old := { s.old with channel := s.old.channel ++ [.kick] }
            handshake := .waiting }
        else some { s with handshake := .removing }
      else none
  | .kickReply =>
      if s.handshake = .waiting ∧ s.old.replied then some { s with handshake := .removing } else none
  | .kickTimeout => if s.handshake = .waiting then some { s with handshake := .removing } else none
  | .kickError =>
      if s.handshake = .waiting ∧ s.old.phase = .gone ∧ ¬ s.old.replied then
        some { s with handshake := .failed }
      else none
  | .remove =>
      if s.handshake = .removing then
        match s.peers with
        | none => some { s with handshake := .built }
        | some _ => some { s with peers := none, handshake := .draining }
      else none
  | .drainQueue =>
      if s.handshake = .draining then
        match s.old.queue with
        | [] => none
        | item :: queue =>
            some { s with
              old := { s.old with queue }
              info := { s.info with offlineMessages := s.info.offlineMessages ++ [item] } }
      else none
  | .drainInflight =>
      if s.handshake = .draining ∧ s.old.queue = [] then
        let r := s.old.outInflight.toInflightMessages
        some { s with
          old := { s.old with outInflight := r.2 }
          info := { s.info with inflightMessages := r.1 }
          handshake := .built }
      else none
  | .set =>
      if s.handshake = .built then some { s with peers := some .new, handshake := .set } else none
  | .transfer => if s.handshake = .set then some { s with handshake := .transferring } else none
  | .reforward => if s.handshake = .transferring then some s.reforward else none
  | .abort => if s.handshake = .built ∨ s.handshake = .set then some s.abort else none

/-- The steps of the system, each with what it has found. -/
inductive Steps (s : State) : Step → State → Prop
  | old {a : OldStep} {old : OldSession}
      (taken : s.old.step (s.handshake = .waiting) a = some old) :
      Steps s (.old a)
        (if a = .clean ∧ old.phase = .cleaned ∧ s.peers = some .old then
          { s with old, peers := none }
        else { s with old })
  | resolve (publish : Publish) : Steps s (.resolve publish) (s.resolve publish)
  | send {k : Nat} {x : Send} (pending : s.sends[k]? = some x) :
      Steps s (.send k) ({ s with sends := s.sends.eraseIdx k }.unboundedSend x)
  | kick (start : s.handshake = .start) (here : s.peers = some .old) (alive : s.old.phase ≠ .gone) :
      Steps s .kick { s with
        old := { s.old with channel := s.old.channel ++ [.kick] }
        handshake := .waiting }
  | kickNobody (start : s.handshake = .start)
      (nobody : ¬ (s.peers = some .old ∧ s.old.phase ≠ .gone)) :
      Steps s .kick { s with handshake := .removing }
  | kickReply (waiting : s.handshake = .waiting) (replied : s.old.replied) :
      Steps s .kickReply { s with handshake := .removing }
  | kickTimeout (waiting : s.handshake = .waiting) :
      Steps s .kickTimeout { s with handshake := .removing }
  | kickError (waiting : s.handshake = .waiting) (gone : s.old.phase = .gone)
      (unanswered : ¬ s.old.replied) : Steps s .kickError { s with handshake := .failed }
  | removeNone (removing : s.handshake = .removing) (hpeers : s.peers = none) :
      Steps s .remove { s with handshake := .built }
  | remove {peer : Target} (removing : s.handshake = .removing) (hpeers : s.peers = some peer) :
      Steps s .remove { s with peers := none, handshake := .draining }
  | drainQueue {item : MsgId × Publish} {queue : List (MsgId × Publish)}
      (draining : s.handshake = .draining) (hqueue : s.old.queue = item :: queue) :
      Steps s .drainQueue { s with
        old := { s.old with queue }
        info := { s.info with offlineMessages := s.info.offlineMessages ++ [item] } }
  | drainInflight (draining : s.handshake = .draining) (hqueue : s.old.queue = []) :
      Steps s .drainInflight { s with
        old := { s.old with outInflight := s.old.outInflight.toInflightMessages.2 }
        info := { s.info with inflightMessages := s.old.outInflight.toInflightMessages.1 }
        handshake := .built }
  | set (built : s.handshake = .built) :
      Steps s .set { s with peers := some .new, handshake := .set }
  | transfer (set : s.handshake = .set) : Steps s .transfer { s with handshake := .transferring }
  | reforward (transferring : s.handshake = .transferring) : Steps s .reforward s.reforward
  | abort (unread : s.handshake = .built ∨ s.handshake = .set) : Steps s .abort s.abort

theorem steps_of_step {s s' : State} {a : Step} (h : s.step a = some s') : s.Steps a s' := by
  cases a with
  | old a =>
      obtain ⟨old, taken, rfl⟩ := Option.map_eq_some_iff.mp h
      exact .old taken
  | resolve publish =>
      cases h
      exact .resolve publish
  | send k =>
      obtain ⟨x, pending, rfl⟩ := Option.map_eq_some_iff.mp h
      exact .send pending
  | kick =>
      simp only [step] at h
      split at h
      · rename_i start
        split at h
        · rename_i here
          cases h
          exact .kick start here.1 here.2
        · rename_i nobody
          cases h
          exact .kickNobody start nobody
      · cases h
  | kickReply =>
      simp only [step] at h
      split at h
      · rename_i answered
        cases h
        exact .kickReply answered.1 answered.2
      · cases h
  | kickError =>
      simp only [step] at h
      split at h
      · rename_i failed
        cases h
        exact .kickError failed.1 failed.2.1 failed.2.2
      · cases h
  | remove =>
      simp only [step] at h
      split at h
      · rename_i removing
        split at h
        · rename_i hpeers
          cases h
          exact .removeNone removing hpeers
        · rename_i hpeers
          cases h
          exact .remove removing hpeers
      · cases h
  | drainQueue =>
      simp only [step] at h
      split at h
      · rename_i draining
        split at h
        · cases h
        · rename_i hqueue
          cases h
          exact .drainQueue draining hqueue
      · cases h
  | drainInflight =>
      simp only [step] at h
      split at h
      · rename_i draining
        cases h
        exact .drainInflight draining.1 draining.2
      · cases h
  | kickTimeout | set | transfer | reforward | abort =>
      simp only [step] at h
      split at h
      · rename_i here
        cases h
        constructor
        exact here
      · cases h

/-- A persistent session with its entry in `peers`, and a new connection about to
take it over. -/
def initial (queueCap cap : Nat) (retryInterval expiryInterval : TimestampMillis) (toBack : Bool) :
    State where
  old :=
    { phase := .online, channel := [], queue := [], queueCap
      outInflight := .new cap retryInterval expiryInterval toBack
      clock := 0, replied := false, delivered := [], dropped := [] }
  peers := some .old
  handshake := .start
  info := ⟨[], []⟩
  newChannel := []
  sends := []
  sent := []
  handed := 0

end State

/-! ## Where a message is -/

/-- A message and its QoS. -/
abbrev Key : Type := MsgId × QoS

def itemKey (item : MsgId × Publish) : Key := (item.1, item.2.qos)

def entryKey (m : OutInflightMessage MsgId) : Key := (m.origin, m.publish.qos)

def Message.key : Message → Option Key
  | .forward msg p => some (msg, p.qos)
  | .sendRerelease m => some (entryKey m)
  | .kick => none

inductive Place : Type
  | oldChannel
  | oldQueue
  | oldInflight
  | deliveredOld
  | transferred
  | newChannel
  | dropped
  deriving DecidableEq, Repr

/-- The messages at a place. -/
def held (s : State) : Place → List Key
  | .oldChannel => s.old.channel.filterMap Message.key
  | .oldQueue => s.old.queue.map itemKey
  | .oldInflight => s.old.outInflight.queues.map fun e => entryKey e.2
  | .deliveredOld => s.old.delivered.map itemKey
  | .transferred => s.info.offlineMessages.map itemKey ++ s.info.inflightMessages.map entryKey
  | .newChannel => s.newChannel.map itemKey
  | .dropped => s.old.dropped.map itemKey

/-- The condition on a step.  The old session's receiver is dropped only when no
QoS 1 or 2 publish is in its channel; `deliver` fails on QoS 0 publishes only; the
new connection ends early only when the transferred state has no QoS 1 or 2 message
that the client may not have received. -/
def DiscardsNone (s : State) (a : Step) : Prop :=
  (a = .old .exit → ∀ m ∈ s.old.channel, m.forwards = false) ∧
  (a = .old .deliverError → ∀ item ∈ s.old.queue.head?, item.2.qos = .atMostOnce) ∧
  (a = .abort →
    (∀ item ∈ s.info.offlineMessages, item.2.qos = .atMostOnce) ∧
    ∀ m ∈ s.info.inflightMessages, m.status = .unComplete ∨ m.publish.qos = .atMostOnce)

instance (s : State) (a : Step) : Decidable (DiscardsNone s a) :=
  inferInstanceAs (Decidable ((_ → _) ∧ (_ → _) ∧ (_ → _ ∧ _)))

end OxiMqtt.Session.Takeover

import OxiMqtt.RetainCap
import OxiMqtt.Router.Concurrent

/-!
# Publishing and subscribing at the same time

`SessionState::inner_forwards` and `_send_subscribe_messages` of `session.rs`, with `forwards`,
`forwards_to`, `retain_load_with`, and the `subscribe` and `publish` of an entry of `shared.rs`: a
publish is stored if it is retained, then matched, then put to the channels of the clients; a
subscription is added to the router, and then the retained messages that match it are loaded and put
to the channel of the client.

A publish and a subscribe are tasks.  Between two accesses of a task to the router, the store of the
retained messages or the channels, other tasks take theirs, clients call the router and come and go,
and the purge runs.

* `Task`, `State`, `step`: the machine.
* `advance_cases`: what one step of a task does.
-/

namespace OxiMqtt.Delivery

open Collections
open OxiMqtt.Codec (QoS)
open OxiMqtt.Router
open OxiMqtt.RetainStorage (Retain TimedValue DefaultRetainStorage)
open OxiMqtt.RetainStorage.RamRetainer (PluginConfig Request)

/-! ## Messages -/

/-- `FromType` -/
inductive FromType : Type
  | custom
  | admin
  | system
  | lastWill
  | bridge
  deriving DecidableEq, Repr

/-- `From` -/
structure From : Type where
  typ : FromType
  id : Id
  deriving DecidableEq, Repr

/-- The arguments of `inner_forwards`. -/
structure Message : Type where
  source : From
  publish : Publish
  messageExpiryInterval : Option Nat
  deriving DecidableEq, Repr

namespace Message

/-- `Retain { msg_id, from, publish }`; there is no message id. -/
def retain (m : Message) : Retain From := ⟨none, m.source, m.publish⟩

/-- The arguments of `retain.set`. -/
def request (m : Message) : Request From :=
  ⟨m.publish.inner.topic, m.retain, m.messageExpiryInterval⟩

/-- The relation of a publish that names the client it is for: the options are the default ones with
the QoS of the publish. -/
def targetRelation (m : Message) (target : ClientId) : SubRelation :=
  ⟨m.publish.inner.topic, target, .v3 ⟨m.publish.inner.qos, none, none⟩, none, none⟩

end Message

/-- What `_send_subscribe_messages` is spawned with: a subscription that was added, and whether it
is a new one. -/
structure Subscriber : Type where
  id : Id
  topicFilter : TopicFilter
  opts : SubscriptionOptions
  prevOptsIsNone : Bool
  deriving DecidableEq, Repr

/-- `send_retain_enable` -/
def Subscriber.sendRetainEnable (l : Subscriber) : Bool :=
  match l.opts with
  | .v3 _ => true
  | .v5 opts =>
      match opts.retainHandling with
      | .atSubscribe => true
      | .atSubscribeNew => l.prevOptsIsNone
      | .noAtSubscribe => false

/-- The copy of a retained message that `_send_retain_messages` makes, at the time `now`. -/
def retainedCopy (now : Int) (qos : QoS) (topic : TopicName) (retain : Retain From) : Publish :=
  { retain.publish with
    inner :=
      { retain.publish.inner with
        dup := false
        retain := true
        qos := retain.publish.inner.qos.lessValue qos
        topic := topic
        packetId := none }
    createTime := some now }

/-! ## The machine -/

/-- What is left of a task. -/
inductive Task : Type
  /-- `retain.set` -/
  | storing (m : Message)
  /-- The topic is to be matched. -/
  | matching (m : Message)
  /-- The loop of `_matches`, over the filters that the tree has yielded. -/
  | visiting (m : Message) (items : List (Item Unit)) (map : SubscriptioRelationsCollectorMap)
  /-- The loop of `forwards_to`. -/
  | forwarding (m : Message) (relations : List (SubRelation × Nat)) (st : Forwarding From)
  /-- `router.add` -/
  | adding (l : Subscriber)
  /-- The retained messages are to be loaded. -/
  | loading (l : Subscriber)
  /-- The loop of `_send_retain_messages`. -/
  | sending (l : Subscriber) (retains : List (TopicName × Retain From))
  | done

def Task.isDone : Task → Bool
  | .done => true
  | _ => false

/-- Who a copy is from, and the copy without the time that is written to it when it is sent. -/
def timeless (source : From) (p : Publish) :
    From × Publish := (source, { p with createTime := none })

/-- The copies that a task has found and not yet put anywhere. -/
def Task.copies : Task → List (From × Publish)
  | .forwarding m relations st =>
      (relations.map fun e => timeless m.source (forwardCopy m.publish e.1)) ++
        st.errs.map fun e => timeless e.2.source e.2.publish
  | .sending l retains =>
      retains.map fun e => timeless e.2.source (retainedCopy 0 l.opts.qos e.1 e.2)
  | _ => []

/-- What the tasks share; what was put to the channels, and what the hooks were told.  As a record
of the run, the copies that matches and loads have found. -/
structure State : Type where
  routes : Concurrent.State := {}
  retainer : RetainStorage.RamRetainer.State From := {}
  peers : ClientId → Option Peer := fun _ => none
  tasks : List Task := []
  channel : List (ClientId × Sent From) := []
  dropped : List (Failure From) := []
  nonsubscribed : List From := []
  due : List (From × Publish) := []

/-- The node: its number, whether messages are retained, and what the store depends on. -/
structure Node : Type where
  id : NodeId
  retainEnable : Bool
  env : RetainStorage.Env
  cfg : PluginConfig

inductive Action : Type
  /-- `inner_forwards` -/
  | publish (m : Message)
  /-- `entry(id).subscribe(..)` -/
  | subscribe (l : Subscriber)
  /-- The next step of a task, with what a match depends on and the time. -/
  | proceed (task : Nat) (env : MatchEnv) (now : Int)
  /-- A step of a client that calls `router.add` or `router.remove`. -/
  | router (action : Concurrent.Action)
  | removeExpiredMessages
  /-- A client comes or goes. -/
  | peer (clientId : ClientId) (peer : Option Peer)

namespace State

/-- The task goes on with `task`. -/
def become (s : State) (k : Nat) (task : Task) : State := { s with tasks := s.tasks.set k task }

/-- The task goes on with `task`, whose copies it has found in this step. -/
def find (s : State) (k : Nat) (task : Task) : State :=
  { s.become k task with due := s.due ++ task.copies }

/-- A copy for the client is put to its channel, or is refused with a reason. -/
def put (s : State) (clientId : ClientId) (sent : Peer → Sent From)
    (failure : Option Peer → Failure From) : State :=
  match s.peers clientId with
  | some ⟨dest, true⟩ => { s with channel := s.channel ++ [(clientId, sent ⟨dest, true⟩)] }
  | refused => { s with dropped := s.dropped ++ [failure refused] }

end State

section

variable (node : Node)

/-- What `retain.set` returns in its next step. -/
def setResult (retainer : RetainStorage.RamRetainer.State From) (k : Nat) :
    Except TopicError Unit :=
  match retainer.publishers k with
  | .full r => (retainer.inner.getMessage node.env retainer.readings r.topic).1.map fun _ => ()
  | .admitted r =>
      match retainer.inner.setWithTimeout node.env retainer.readings r.topic r.retain
        (RetainStorage.RamRetainer.timeout node.cfg r.expiryInterval) with
      | some (_, _, res) => res
      | none => .ok ()
  | _ => .ok ()

/-- A publish goes on to its match when `retain.set` has returned. -/
def afterSet (retainer : RetainStorage.RamRetainer.State From) (k : Nat) (m : Message) : Task :=
  match retainer.publishers k with
  | .idle => .matching m
  | _ => .storing m

/-- The first step of `inner_forwards`. -/
def publish (m : Message) (s : State) : Option State :=
  if node.retainEnable && m.publish.inner.retain then
    (RetainStorage.RamRetainer.step node.env node.cfg s.retainer
      (.set s.tasks.length m.request)).map fun retainer =>
        { s with retainer, tasks := s.tasks ++ [afterSet retainer s.tasks.length m] }
  else some { s with tasks := s.tasks ++ [.matching m] }

/-- The first step of `LockEntry::subscribe`: there is a session of this node, and the call of the
router begins. -/
def subscribe (l : Subscriber) (s : State) : Option State :=
  match s.peers l.id.clientId with
  | none => some s
  | some peer =>
      if peer.dest.nodeId = node.id then
        match Topic.fromStr l.topicFilter with
        | .error _ => some s
        | .ok _ =>
            (Concurrent.step s.routes (.call (.add l.topicFilter l.id l.opts))).map fun routes =>
              { s with routes, tasks := s.tasks ++ [.adding l] }
      else none

/-- The relations of this node, when the loop of `_matches` has ended; without any, the publish has
no recipients. -/
def forwardsRelations (env : MatchEnv) (k : Nat) (m : Message)
    (map : SubscriptioRelationsCollectorMap)
    (s : State) : State :=
  match map.lookup node.id with
  | some collector =>
      s.find k (.forwarding m (collector.toSubRelations (env.v5Walk node.id)).zipIdx {})
  | none => { s.become k .done with nonsubscribed := s.nonsubscribed ++ [m.source] }

/-- The number that `forwards` returns when all copies were sent. -/
def forwardedCount (m : Message) (st : Forwarding From) : Nat :=
  match m.publish.targetClientid with
  | some _ => if m.source.id.nodeId = node.id then 1 else 0
  | none => st.okRecipients.length

/-- The end of `inner_forwards`: the hooks are told. -/
def forwarded (k : Nat) (m : Message) (st : Forwarding From) (s : State) : State :=
  if st.errs.isEmpty then
    if forwardedCount node m st = 0 then
      { s.become k .done with nonsubscribed := s.nonsubscribed ++ [m.source] }
    else s.become k .done
  else { s.become k .done with dropped := s.dropped ++ st.errs.map Prod.snd }

/-- One step of a task. -/
def advance (env : MatchEnv) (now : Int) (k : Nat) (s : State) : Task → Option State
  | .storing m =>
      (RetainStorage.RamRetainer.step node.env node.cfg s.retainer (.resume k)).map
        fun retainer =>
          match setResult node s.retainer k with
          | .error _ => { s with retainer }.become k .done
          | .ok () => { s with retainer }.become k (afterSet retainer k m)
  | .matching m =>
      match m.publish.targetClientid with
      | some target => some (s.find k (.forwarding m [(m.targetRelation target, 0)] {}))
      | none =>
          match Topic.fromStr m.publish.inner.topic with
          | .error _ =>
              some { s.become k .done with nonsubscribed := s.nonsubscribed ++ [m.source] }
          | .ok topic =>
              some (s.become k (.visiting m (matched topic.levels s.routes.router.topics []) []))
  | .visiting m [] map => some (forwardsRelations node env k m map s)
  | .visiting m (item :: items) map =>
      some (s.become k (.visiting m items
        (DefaultRouter.visitFilter env m.source.id s.routes.router map item)))
  | .forwarding m [] st => some (forwarded node k m st s)
  | .forwarding m (rel :: relations) st =>
      let st' := forwardOne (fun _ => s.peers) m.source m.publish st rel
      some
        { s.become k (.forwarding m relations st') with
          channel := s.channel ++
            (st'.sent.drop st.sent.length).map fun e => (rel.1.clientId, e.2) }
  | .adding l =>
      if (s.routes.busy.lookup l.id.clientId).isNone then some (s.become k (.loading l)) else none
  | .loading l =>
      if node.retainEnable && l.sendRetainEnable then
        let found := s.retainer.inner.getMessage node.env s.retainer.readings l.topicFilter
        let s := { s with retainer := { s.retainer with readings := found.2 } }
        match found.1 with
        | .error _ => some (s.become k .done)
        | .ok retains => some (s.find k (.sending l retains))
      else some (s.become k .done)
  | .sending _ [] => some (s.become k .done)
  | .sending l ((topic, retain) :: retains) =>
      let p := retainedCopy now l.opts.qos topic retain
      some ((s.become k (.sending l retains)).put l.id.clientId
        (fun peer => ⟨peer.dest, retain.source, p⟩)
        (fun peer => ⟨l.id, retain.source, p,
          if peer.isNone then "Tx is None" else "Tx is closed"⟩))
  | .done => none

def step (s : State) : Action → Option State
  | .publish m => publish node m s
  | .subscribe l => subscribe node l s
  | .proceed k env now => s.tasks[k]?.bind (advance node env now k s)
  | .router action => (Concurrent.step s.routes action).map fun routes => { s with routes }
  | .removeExpiredMessages =>
      (RetainStorage.RamRetainer.step node.env node.cfg s.retainer .removeExpiredMessages).map
        fun retainer => { s with retainer }
  | .peer clientId peer => some { s with peers := Function.update s.peers clientId peer }

/-! ## What a task does -/

/-- One step of the task `k`: the task before, and the state after. -/
inductive Advanced (env : MatchEnv) (now : Int) (k : Nat) (s : State) : Task → State → Prop
  | refused {m : Message} {retainer : RetainStorage.RamRetainer.State From} (e : TopicError) :
      RetainStorage.RamRetainer.step node.env node.cfg s.retainer (.resume k) = some retainer →
      setResult node s.retainer k = .error e →
      Advanced env now k s (.storing m) ({ s with retainer }.become k .done)
  | stored {m : Message} {retainer : RetainStorage.RamRetainer.State From} :
      RetainStorage.RamRetainer.step node.env node.cfg s.retainer (.resume k) = some retainer →
      setResult node s.retainer k = .ok () →
      Advanced env now k s (.storing m) ({ s with retainer }.become k (afterSet retainer k m))
  | targeted {m : Message} {target : ClientId} : m.publish.targetClientid = some target →
      Advanced env now k s (.matching m)
        (s.find k (.forwarding m [(m.targetRelation target, 0)] {}))
  | unreadable {m : Message} (e : TopicError) : m.publish.targetClientid = none →
      Topic.fromStr m.publish.inner.topic = .error e →
      Advanced env now k s (.matching m)
        { s.become k .done with nonsubscribed := s.nonsubscribed ++ [m.source] }
  | yielded {m : Message} {topic : Topic} : m.publish.targetClientid = none →
      Topic.fromStr m.publish.inner.topic = .ok topic →
      Advanced env now k s (.matching m)
        (s.become k (.visiting m (matched topic.levels s.routes.router.topics []) []))
  | visited {m : Message} {item : Item Unit} {items : List (Item Unit)}
      {map : SubscriptioRelationsCollectorMap} :
      Advanced env now k s (.visiting m (item :: items) map) (s.become k (.visiting m items
        (DefaultRouter.visitFilter env m.source.id s.routes.router map item)))
  | found {m : Message} {map : SubscriptioRelationsCollectorMap}
      {collector : SubscriptioRelationsCollector} : map.lookup node.id = some collector →
      Advanced env now k s (.visiting m [] map)
        (s.find k (.forwarding m (collector.toSubRelations (env.v5Walk node.id)).zipIdx {}))
  | unfound {m : Message} {map : SubscriptioRelationsCollectorMap} : map.lookup node.id = none →
      Advanced env now k s (.visiting m [] map)
        { s.become k .done with nonsubscribed := s.nonsubscribed ++ [m.source] }
  | sent {m : Message} {rel : SubRelation} {i : Nat} {relations : List (SubRelation × Nat)}
      {st : Forwarding From} {dest : Id} : s.peers rel.clientId = some ⟨dest, true⟩ →
      Advanced env now k s (.forwarding m ((rel, i) :: relations) st)
        { s.become k (.forwarding m relations
            (forwardOne (fun _ => s.peers) m.source m.publish st (rel, i))) with
          channel := s.channel ++
            [(rel.clientId, ⟨dest, m.source, forwardCopy m.publish rel⟩)] }
  | failed {m : Message} {rel : SubRelation} {i : Nat} {relations : List (SubRelation × Nat)}
      {st : Forwarding From} {dest : Id} {reason : String} :
      (∀ dest, s.peers rel.clientId ≠ some ⟨dest, true⟩) →
      Advanced env now k s (.forwarding m ((rel, i) :: relations) st)
        (s.become k (.forwarding m relations
          { st with errs := st.errs ++
              [(i, ⟨dest, m.source, forwardCopy m.publish rel, reason⟩)] }))
  | forwarded {m : Message} {st : Forwarding From} :
      Advanced env now k s (.forwarding m [] st) (forwarded node k m st s)
  | added {l : Subscriber} : s.routes.busy.lookup l.id.clientId = none →
      Advanced env now k s (.adding l) (s.become k (.loading l))
  | unloaded {l : Subscriber} : (node.retainEnable && l.sendRetainEnable) = false ∨
        (∃ e, Topic.fromStr l.topicFilter = .error e) →
      Advanced env now k s (.loading l) (s.become k .done)
  | loaded {l : Subscriber} {retains : List (TopicName × Retain From)} {readings : Nat} :
      (node.retainEnable && l.sendRetainEnable) = true →
      s.retainer.inner.getMessage node.env s.retainer.readings l.topicFilter =
        (.ok retains, readings) →
      Advanced env now k s (.loading l)
        ({ s with retainer := { s.retainer with readings } }.find k (.sending l retains))
  | resent {l : Subscriber} {topic : TopicName} {retain : Retain From}
      {retains : List (TopicName × Retain From)} {dest : Id} :
      s.peers l.id.clientId = some ⟨dest, true⟩ →
      Advanced env now k s (.sending l ((topic, retain) :: retains))
        { s.become k (.sending l retains) with
          channel := s.channel ++
            [(l.id.clientId, ⟨dest, retain.source, retainedCopy now l.opts.qos topic retain⟩)] }
  | lost {l : Subscriber} {topic : TopicName} {retain : Retain From}
      {retains : List (TopicName × Retain From)} {reason : String} :
      (∀ dest, s.peers l.id.clientId ≠ some ⟨dest, true⟩) →
      Advanced env now k s (.sending l ((topic, retain) :: retains))
        { s.become k (.sending l retains) with
          dropped := s.dropped ++
            [⟨l.id, retain.source, retainedCopy now l.opts.qos topic retain, reason⟩] }
  | ended {l : Subscriber} : Advanced env now k s (.sending l []) (s.become k .done)

variable {node}

/-- The end of a publish changes nothing but what the hooks were told. -/
theorem forwarded_eq (k : Nat) (m : Message) (st : Forwarding From) (s : State) :
    ∃ dropped nonsubscribed, forwarded node k m st s =
      { s.become k .done with dropped, nonsubscribed } := by
  unfold forwarded
  split
  · split <;> exact ⟨_, _, rfl⟩
  · exact ⟨_, _, rfl⟩

section

variable {env : MatchEnv} {now : Int} {k : Nat} {s s' : State} {m : Message} {l : Subscriber}

theorem advance_storing (h : advance node env now k s (.storing m) = some s') :
    Advanced node env now k s (.storing m) s' := by
  obtain ⟨retainer, stepped, rfl⟩ := Option.map_eq_some_iff.mp h
  cases result : setResult node s.retainer k with
  | error e => exact .refused e stepped result
  | ok u => exact .stored stepped result

theorem advance_matching (h : advance node env now k s (.matching m) = some s') :
    Advanced node env now k s (.matching m) s' := by
  rw [advance] at h
  split at h
  · rename_i target
    cases h
    exact .targeted target
  · rename_i target
    split at h
    · rename_i e read
      cases h
      exact .unreadable e target read
    · rename_i topic read
      cases h
      exact .yielded target read

theorem advance_visiting {items : List (Item Unit)} {map : SubscriptioRelationsCollectorMap}
    (h : advance node env now k s (.visiting m items map) = some s') :
    Advanced node env now k s (.visiting m items map) s' := by
  cases items with
  | nil =>
      cases h
      unfold forwardsRelations
      cases own : List.lookup node.id map with
      | none => exact .unfound own
      | some collector => exact .found own
  | cons item items =>
      cases h
      exact .visited

theorem advance_forwarding {relations : List (SubRelation × Nat)} {st : Forwarding From}
    (h : advance node env now k s (.forwarding m relations st) = some s') :
    Advanced node env now k s (.forwarding m relations st) s' := by
  cases relations with
  | nil =>
      cases h
      exact .forwarded
  | cons rel relations =>
      obtain ⟨rel, i⟩ := rel
      rcases peer : s.peers rel.clientId with _ | ⟨dest, _ | _⟩
      · have refused : forwardOne (fun _ => s.peers) m.source m.publish st (rel, i) =
            { st with errs := st.errs ++ [(i, ⟨Id.ofClient 0 rel.clientId, m.source,
              forwardCopy m.publish rel, "the client has disconnected"⟩)] } := by
          rw [forwardOne, peer]
        rw [advance, refused, List.drop_length, List.map_nil, List.append_nil] at h
        cases h
        exact .failed fun dest open_ => by rw [peer] at open_; cases open_
      · have refused : forwardOne (fun _ => s.peers) m.source m.publish st (rel, i) =
            { st with errs := st.errs ++ [(i, ⟨dest, m.source, forwardCopy m.publish rel,
              "Connection Tx is closed"⟩)] } := by
          rw [forwardOne, peer]
        rw [advance, refused, List.drop_length, List.map_nil, List.append_nil] at h
        cases h
        exact .failed fun dest open_ => by rw [peer] at open_; cases open_
      · have taken : (forwardOne (fun _ => s.peers) m.source m.publish st (rel, i)).sent =
            st.sent ++ [(i, ⟨dest, m.source, forwardCopy m.publish rel⟩)] := by
          rw [forwardOne, peer]
        rw [advance, taken, List.drop_left] at h
        cases h
        exact .sent peer

theorem advance_adding (h : advance node env now k s (.adding l) = some s') :
    Advanced node env now k s (.adding l) s' := by
  rw [advance] at h
  split at h
  · rename_i idle
    cases h
    exact .added (Option.isNone_iff_eq_none.mp idle)
  · cases h

theorem advance_loading (h : advance node env now k s (.loading l) = some s') :
    Advanced node env now k s (.loading l) s' := by
  rw [advance] at h
  split at h
  · rename_i enabled
    cases read : Topic.fromStr l.topicFilter with
    | error e =>
        have found : s.retainer.inner.getMessage node.env s.retainer.readings l.topicFilter =
            (.error e, s.retainer.readings) := by
          rw [DefaultRetainStorage.getMessage, read]
        rw [found] at h
        cases h
        exact .unloaded (.inr ⟨e, read⟩)
    | ok topic =>
        cases found :
          s.retainer.inner.getMessage node.env s.retainer.readings l.topicFilter with
        | mk retains readings =>
            have ok : ∃ rs, retains = .ok rs := by
              rw [DefaultRetainStorage.getMessage, read] at found
              cases found
              exact ⟨_, rfl⟩
            obtain ⟨rs, rfl⟩ := ok
            rw [found] at h
            cases h
            exact .loaded enabled found
  · rename_i disabled
    cases h
    exact .unloaded (.inl (Bool.not_eq_true _ ▸ disabled))

theorem advance_sending {retains : List (TopicName × Retain From)}
    (h : advance node env now k s (.sending l retains) = some s') :
    Advanced node env now k s (.sending l retains) s' := by
  cases retains with
  | nil =>
      cases h
      exact .ended
  | cons retain retains =>
      obtain ⟨topic, retain⟩ := retain
      cases h
      unfold State.put
      change Advanced node env now k s _ (match s.peers l.id.clientId with
        | some ⟨dest, true⟩ => _
        | refused => _)
      rcases peer : s.peers l.id.clientId with _ | ⟨dest, _ | _⟩
      · exact .lost fun dest open_ => by rw [peer] at open_; cases open_
      · exact .lost fun dest open_ => by rw [peer] at open_; cases open_
      · exact .resent peer

theorem advance_cases {task : Task} (h : advance node env now k s task = some s') :
    Advanced node env now k s task s' := by
  cases task with
  | storing m => exact advance_storing h
  | matching m => exact advance_matching h
  | visiting m items map => exact advance_visiting h
  | forwarding m relations st => exact advance_forwarding h
  | adding l => exact advance_adding h
  | loading l => exact advance_loading h
  | sending l retains => exact advance_sending h
  | done => cases h

end

end

/-! ## A run -/

/-- A node that retains messages. -/
def oneNode : Node := ⟨1, true, ⟨id, 1000, 2 ^ 64 - 1⟩, {}⟩

/-- A match that walks its maps in their order. -/
def inOrder : MatchEnv :=
  ⟨fun _ _ => true, fun _ _ => 0, fun _ => .inOrder, fun _ => .inOrder, fun _ => .inOrder⟩

/-- A client of version 3 subscribes to `t`. -/
def watcher : Subscriber := ⟨Id.ofClient 1 "c", "t", .v3 ⟨.atLeastOnce, none, none⟩, true⟩

/-- A message that is to be retained. -/
def reading : Message :=
  ⟨⟨.custom, Id.ofClient 1 "p"⟩,
    ⟨⟨false, true, .atLeastOnce, "t", none, [1], none⟩, none, none, none⟩, none⟩

/-- The client comes and subscribes; the retained messages are to be loaded. -/
def subscribing : List Action :=
  [.peer "c" (some ⟨Id.ofClient 1 "c", true⟩), .subscribe watcher, .router (.step "c"),
    .router (.step "c"), .proceed 0 inOrder 0]

/-- The message is published, from its store to the end of `inner_forwards`; then the retained
messages are loaded and sent. -/
def publishing : List Action :=
  .publish reading :: List.replicate 7 (.proceed 1 inOrder 0) ++
    List.replicate 3 (.proceed 0 inOrder 0)

end OxiMqtt.Delivery

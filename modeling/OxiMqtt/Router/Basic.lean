import OxiMqtt.Router.Collector
import OxiMqtt.TrieMatch

/-!
# The router

`DefaultRouter` of `router.rs`: the topic tree, the relation map and their two
counters; `add` and `remove`; the choice of a member of a shared group
(`DefaultSharedSubscription::choice` of `subscribe.rs`); and the match of a topic
name, `_matches`.

`add` and `remove` are composed of the accesses they make to the tree and to the
map, one definition each, so that the same accesses can be interleaved.

A match reads things the router does not hold: who is online, the values of the
global sequence, and the orders in which hash maps are walked.  They are the
fields of `MatchEnv`.
-/

namespace OxiMqtt.Router

open Collections

/-! ## State -/

/-- `Counter` -/
structure Counter : Type where
  count : Int := 0
  max : Int := 0
  deriving DecidableEq, Repr

namespace Counter

/-- `Counter::inc` -/
def inc (c : Counter) : Counter := ⟨c.count + 1, Max.max c.max (c.count + 1)⟩

/-- `Counter::dec` -/
def dec (c : Counter) : Counter := ⟨c.count - 1, c.max⟩

end Counter

/-- A relation of the map: the id that subscribed, and its options. -/
abbrev Relation : Type := Id × SubscriptionOptions

/-- `AllRelationsMap` -/
abbrev AllRelationsMap : Type := Assoc TopicFilter (Assoc ClientId Relation)

/-- `DefaultRouter` -/
structure DefaultRouter : Type where
  topics : TopicTree Unit := .default
  topicsCount : Counter := {}
  relations : AllRelationsMap := []
  relationsCount : Counter := {}

namespace DefaultRouter

/-! ## Adding and removing -/

/-- `self.topics.write().await.insert(&topic, ())` -/
def insertTopic (r : DefaultRouter) (topic : Topic) : DefaultRouter :=
  { r with topics := (r.topics.insert topic ()).1 }

/-- `self.relations.entry(..).or_insert_with(..).insert(..)`; the flag is
`old.is_none()`. -/
def insertRelation (r : DefaultRouter) (topicFilter : TopicFilter) (id : Id)
    (opts : SubscriptionOptions) : DefaultRouter × Bool :=
  match r.relations.lookup topicFilter with
  | some rels =>
      ({ r with relations := r.relations.insert topicFilter (rels.insert id.clientId (id, opts)) },
        (rels.lookup id.clientId).isNone)
  | none =>
      ({ r with
          topicsCount := r.topicsCount.inc
          relations := r.relations.insert topicFilter (Assoc.insert [] id.clientId (id, opts)) },
        true)

/-- `self.relations_count.inc()` -/
def countRelation (r : DefaultRouter) : DefaultRouter :=
  { r with relationsCount := r.relationsCount.inc }

/-- `Router::add` -/
def add (r : DefaultRouter) (topicFilter : TopicFilter) (id : Id) (opts : SubscriptionOptions) :
    Except TopicError DefaultRouter := do
  let topic ← Topic.fromStr topicFilter
  let (r, isNew) := (r.insertTopic topic).insertRelation topicFilter id opts
  return if isNew then r.countRelation else r

/-- The block of `Router::remove` under the guard of `self.relations.get_mut(..)`: the
relation is removed when it is of this id.  The result is `res`, whether the filter
is left without relations and whether one was removed. -/
def takeRelation (r : DefaultRouter) (topicFilter : TopicFilter) (id : Id) :
    DefaultRouter × Option (Bool × Bool) :=
  match r.relations.lookup topicFilter with
  | none => (r, none)
  | some rels =>
      let removeEnable : Bool :=
        match rels.lookup id.clientId with
        | some (sId, _) => sId = id
        | none => false
      if removeEnable then
        let removeOk := (rels.lookup id.clientId).isSome
        let rels := rels.erase id.clientId
        ({ r with
            relations := r.relations.insert topicFilter rels
            relationsCount := if removeOk then r.relationsCount.dec else r.relationsCount },
          some (rels.isEmpty, removeOk))
      else (r, none)

/-- `self.relations.remove(topic_filter)`; the flag is `is_some()`. -/
def dropFilter (r : DefaultRouter) (topicFilter : TopicFilter) : DefaultRouter × Bool :=
  ({ r with relations := r.relations.erase topicFilter },
    (r.relations.lookup topicFilter).isSome)

/-- `self.topics_count.dec()` -/
def uncountTopic (r : DefaultRouter) : DefaultRouter :=
  { r with topicsCount := r.topicsCount.dec }

/-- `self.topics.write().await.remove(&topic, &())` -/
def removeTopic (r : DefaultRouter) (topic : Topic) : DefaultRouter :=
  { r with topics := (r.topics.remove topic ()).1 }

/-- `Router::remove` -/
def remove (r : DefaultRouter) (topicFilter : TopicFilter) (id : Id) :
    DefaultRouter × Except TopicError Bool :=
  match r.takeRelation topicFilter id with
  | (r, none) => (r, .ok false)
  | (r, some (isEmpty, removeOk)) =>
      if isEmpty then
        let (r, dropped) := r.dropFilter topicFilter
        let r := if dropped then r.uncountTopic else r
        match Topic.fromStr topicFilter with
        | .error e => (r, .error e)
        | .ok topic => (r.removeTopic topic, .ok removeOk)
      else (r, .ok removeOk)

end DefaultRouter

/-! ## Shared groups -/

/-- A candidate of a shared group. -/
structure Member : Type where
  nodeId : NodeId
  clientId : ClientId
  opts : SubscriptionOptions
  subIds : Option (List SubscriptionIdentifier)
  isOnline : Option Bool
  deriving DecidableEq, Repr

/-- `matches!(ncs[idx].4, Some(true))` -/
def onlineAt (ncs : List Member) (idx : Nat) : Bool := ncs[idx]?.any fun m => m.isOnline == some true

/-- `DefaultSharedSubscription::choice`, with the value that the global sequence
has for it. -/
def choice (seq : UInt64) (ncs : List Member) : Option (Nat × Bool) :=
  let len := ncs.length
  if len = 0 then none
  else
    let start := seq.toNat % len
    match (List.range len).find? fun i => onlineAt ncs ((start + i) % len) with
    | some i => some ((start + i) % len, true)
    | none => some (start, (ncs[start]?.bind Member.isOnline).getD false)

/-! ## Matching -/

/-- What a match depends on beside the router. -/
structure MatchEnv : Type where
  /-- `router.is_online(node_id, client_id)` -/
  online : NodeId → ClientId → Bool
  /-- The value `SHARED_SUB_SEQ.fetch_add` returns at a choice. -/
  seq : TopicFilter → SharedGroup → UInt64
  relsWalk : TopicFilter → Walk (ClientId × Relation)
  groupsWalk : TopicFilter → Walk (SharedGroup × List Member)
  v5Walk : NodeId → Walk (ClientId × V5Relation)

abbrev SubscriptioRelationsCollectorMap : Type := Assoc NodeId SubscriptioRelationsCollector

abbrev SubRelationsMap : Type := Assoc NodeId SubRelations

/-- `collector_map.entry(node_id).or_default().add(..)` -/
def SubscriptioRelationsCollectorMap.add (map : SubscriptioRelationsCollectorMap) (nodeId : NodeId)
    (x : Feed) : SubscriptioRelationsCollectorMap :=
  map.upsert nodeId fun c => (c.getD {}).add x.topicFilter x.clientId x.opts x.group

/-- `VecToTopic::to_topic_filter` -/
def toTopicFilter (levels : List Level) : TopicFilter := Topic.toString ⟨levels⟩

/-- No Local: the subscription asks not to get what its own client publishes. -/
def excluded (thisId : Id) (rel : Relation) : Bool :=
  match rel.2.noLocal with
  | some noLocal => noLocal && thisId = rel.1
  | none => false

namespace DefaultRouter

variable (env : MatchEnv) (thisId : Id) (topicFilter : TopicFilter)

/-- The body of the loop over the relations of a filter: a candidate of a shared
group is put to its group, any other subscription is collected. -/
def visitRelation (st : SubscriptioRelationsCollectorMap × Assoc SharedGroup (List Member)) :
    ClientId × Relation → SubscriptioRelationsCollectorMap × Assoc SharedGroup (List Member)
  | (clientId, id, opts) =>
      if excluded thisId (id, opts) then st
      else
        match opts.sharedGroup with
        | some group =>
            (st.1, st.2.upsert group fun subs => subs.getD [] ++
              [⟨id.nodeId, clientId, opts, none, some (env.online id.nodeId clientId)⟩])
        | none =>
            (SubscriptioRelationsCollectorMap.add st.1 id.nodeId ⟨topicFilter, clientId, opts, none⟩,
              st.2)

/-- The body of the loop over the groups of a filter.  `s_subs.remove(idx)` is in
range: `choice_spec`. -/
def visitGroup (map : SubscriptioRelationsCollectorMap) :
    SharedGroup × List Member → SubscriptioRelationsCollectorMap
  | (group, sSubs) =>
      let groupCids := sSubs.map Member.clientId
      match choice (env.seq topicFilter group) sSubs with
      | none => map
      | some (idx, isOnline) =>
          match sSubs[idx]? with
          | none => map
          | some m =>
              SubscriptioRelationsCollectorMap.add map m.nodeId
                ⟨topicFilter, m.clientId, m.opts, some ⟨group, isOnline, groupCids⟩⟩

/-- The body of the loop over the matching filters. -/
def visitFilter (r : DefaultRouter) (map : SubscriptioRelationsCollectorMap) (item : Item Unit) :
    SubscriptioRelationsCollectorMap :=
  let topicFilter := toTopicFilter item.1
  let rels := (r.relations.lookup topicFilter).getD []
  let st := ((env.relsWalk topicFilter).visit rels).foldl (visitRelation env thisId topicFilter)
    (map, [])
  ((env.groupsWalk topicFilter).visit st.2).foldl (visitGroup env topicFilter) st.1

/-- `DefaultRouter::_matches`.  The loop runs over `matched`, which is what the tree's
iterator yields (`MatchedIter.exhausts_new`). -/
def _matches (r : DefaultRouter) (topicName : TopicName) : Except TopicError SubRelationsMap := do
  let topic ← Topic.fromStr topicName
  let collectorMap := (matched topic.levels r.topics []).foldl (visitFilter env thisId r) []
  return collectorMap.map fun e => (e.1, e.2.toSubRelations (env.v5Walk e.1))

end DefaultRouter

end OxiMqtt.Router

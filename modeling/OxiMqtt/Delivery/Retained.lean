import OxiMqtt.Delivery.Store

/-!
# A subscriber gets the retained messages

A publish is stored before it is matched, and a subscription is in the router before the retained
messages are loaded.  So a message that is retained when all has ended was loaded, or it was stored
after the load, and then it was matched while the subscription was there.

* `Task.Owes`: a task is still to bring the message to the subscriber.
* `Covered.step`: a message in the store has come to the channel, or some task owes it.
* `retained_reaches`: at the end the channel has all of them.
-/

namespace OxiMqtt.Delivery

open Collections
open OxiMqtt.Router
open OxiMqtt.RetainStorage (Retain TimedValue DefaultRetainStorage)

variable (node : Node) (l : Subscriber)

/-! ## What a subscriber is to get -/

/-- The subscriber is in the router, in the relations and in the tree, and its channel is open. -/
structure Serves (s : State) : Prop where
  held : s.routes.router.held l.topicFilter l.id.clientId = some (l.id, l.opts)
  inTree : ∃ filter, Topic.fromStr l.topicFilter = .ok filter ∧
    () ∈ s.routes.router.topics.valuesAt filter.levels
  channel : ∃ dest, s.peers l.id.clientId = some ⟨dest, true⟩

instance (l : Subscriber) (s : State) : Decidable (Serves l s) :=
  have inTree : Decidable (∃ filter, Topic.fromStr l.topicFilter = .ok filter ∧
      () ∈ s.routes.router.topics.valuesAt filter.levels) :=
    match read : Topic.fromStr l.topicFilter with
    | .error e => .isFalse fun h => by
        obtain ⟨filter, ok, -⟩ := h
        cases ok
    | .ok filter => decidable_of_iff (() ∈ s.routes.router.topics.valuesAt filter.levels)
        ⟨fun h => ⟨filter, rfl, h⟩, fun h => by
          obtain ⟨filter', ok, h⟩ := h
          cases ok
          exact h⟩
  have channel : Decidable (∃ dest, s.peers l.id.clientId = some ⟨dest, true⟩) :=
    match s.peers l.id.clientId with
    | some ⟨dest, true⟩ => .isTrue ⟨dest, rfl⟩
    | some ⟨dest, false⟩ => .isFalse fun h => by obtain ⟨_, h⟩ := h; cases h
    | none => .isFalse fun h => by obtain ⟨_, h⟩ := h; cases h
  decidable_of_iff (_ ∧ _ ∧ _)
    ⟨fun h => ⟨h.1, h.2.1, h.2.2⟩, fun h => ⟨h.held, h.inTree, h.channel⟩⟩

/-- The subscription is for the message: its filter matches the topic, No Local does not exclude it,
and the message is not for another client by name. -/
structure Wanted (topic : Topic) (r : Retain From) : Prop where
  matching : Matching l.topicFilter topic
  remote : excluded r.source.id (l.id, l.opts) = false
  untargeted : r.publish.targetClientid = none

/-- The message is among what was put to the channel of the client. -/
def Got (clientId : ClientId) (channel : List (ClientId × Sent From)) (r : Retain From) : Prop :=
  ∃ sent, (clientId, sent) ∈ channel ∧ sent.source = r.source ∧
    sent.publish.inner.topic = r.publish.inner.topic ∧
    sent.publish.inner.payload = r.publish.inner.payload

theorem Got.mono {clientId : ClientId} {channel more : List (ClientId × Sent From)}
    {r : Retain From}
    (got : Got clientId channel r) : Got clientId (channel ++ more) r :=
  got.imp fun _ h => ⟨List.mem_append_left _ h.1, h.2⟩

/-- The call of the collector for the subscription. -/
def ownFeed : NodeId × Feed := (l.id.nodeId, ⟨l.topicFilter, l.id.clientId, l.opts, none⟩)

/-- The task is still to bring the message to the subscriber: it is to load it or has loaded it, or
it is the publish, and is to find the subscription or has found it. -/
def Task.Owes (r : Retain From) : Task → Prop
  | .matching m => m.retain = r
  | .visiting m items map => m.retain = r ∧ ∃ fs, map = feedAll [] fs ∧
      ((∃ item ∈ items, toTopicFilter item.1 = l.topicFilter) ∨ ownFeed l ∈ fs)
  | .forwarding m relations _ => m.retain = r ∧ ∃ e ∈ relations, e.1.clientId = l.id.clientId
  | .loading l' => l' = l
  | .sending l' retains => l' = l ∧ (r.publish.inner.topic, r) ∈ retains
  | _ => False

/-- Every stored message that has not expired and is for the subscription has come to the channel
since `start`, or some task owes it. -/
structure Covered (start : List (ClientId × Sent From)) (s : State) : Prop where
  tended : Tended s
  channel : ∃ new, s.channel = start ++ new ∧ ∀ path tv, Stores s path tv →
    tv.isExpired (node.env.clock s.retainer.readings) = false → Wanted l ⟨path⟩ tv.value →
      Got l.id.clientId new tv.value ∨ ∃ task ∈ s.tasks, task.Owes l tv.value

variable {node l}

/-! ## The match of a publish -/

/-- The walk over the relations of its filter feeds the subscription to the collector. -/
theorem ownFeed_mem_filterFeeds {env : MatchEnv} {thisId : Id} {router : DefaultRouter}
    (own : l.opts.sharedGroup = none)
    (held : router.held l.topicFilter l.id.clientId = some (l.id, l.opts))
    (remote : excluded thisId (l.id, l.opts) = false) :
    ownFeed l ∈ filterFeeds env thisId l.topicFilter router := by
  refine List.mem_append_left _ (List.mem_map.mpr ⟨(l.id.clientId, l.id, l.opts), ?_, rfl⟩)
  refine List.mem_filter.mpr ⟨?_, ?_⟩
  · obtain ⟨rels, found, relation⟩ := Option.bind_eq_some_iff.mp held
    rw [walked, Walk.mem_visit, found]
    exact Assoc.mem_of_lookup relation
  · rw [isOwn, remote, own]
    rfl

/-- Every call of a collector is kept in a relation of its client. -/
theorem exists_relation {feeds : List Feed} {x : Feed} (member : x ∈ feeds)
    (walk : Walk (ClientId × V5Relation)) :
    ∃ rel ∈ (collect feeds).toSubRelations walk, rel.clientId = x.clientId := by
  cases version : x.opts.isV3 with
  | true =>
      refine ⟨x.relation, List.mem_append_left _ ?_, rfl⟩
      rw [v3Rels_collect]
      exact List.mem_map_of_mem (List.mem_filter.mpr ⟨member, version⟩)
  | false =>
      have isFor : x ∈ feeds.filter (Feed.isFor x.clientId) :=
        List.mem_filter.mpr ⟨member, by simp [Feed.isFor, version]⟩
      obtain ⟨first, rest, split⟩ := List.exists_cons_of_ne_nil (List.ne_nil_of_mem isFor)
      have kept : first.merged rest ∈
          relationsOf x.clientId ((collect feeds).toSubRelations walk) := by
        rw [relationsOf_of_cons split]
        exact List.mem_singleton.mpr rfl
      obtain ⟨relation, isClient⟩ := List.mem_filter.mp kept
      rw [Bool.and_eq_true, beq_iff_eq] at isClient
      exact ⟨_, relation, isClient.2⟩

/-- Where the subscription was fed, the relations of its node have one of its client. -/
theorem exists_relation_of_feeds {fs : List (NodeId × Feed)} (member : ownFeed l ∈ fs)
    (walk : Walk (ClientId × V5Relation)) :
    ∃ collector, (feedAll [] fs).lookup l.id.nodeId = some collector ∧
      ∃ rel ∈ collector.toSubRelations walk, rel.clientId = l.id.clientId := by
  have fed : (⟨l.topicFilter, l.id.clientId, l.opts, none⟩ : Feed) ∈
      (fs.filter fun e => e.1 = l.id.nodeId).map Prod.snd :=
    List.mem_map.mpr ⟨ownFeed l, List.mem_filter.mpr ⟨member, by simp [ownFeed]⟩, rfl⟩
  obtain ⟨rel, relation, client⟩ := exists_relation fed walk
  have all := lookup_feedAll fs l.id.nodeId
  cases found : (feedAll [] fs).lookup l.id.nodeId with
  | none =>
      rw [found, Option.getD_none] at all
      rw [← all, SubscriptioRelationsCollector.toSubRelations, walk.visit_nil] at relation
      cases relation
  | some collector =>
      rw [found, Option.getD_some] at all
      exact ⟨collector, rfl, rel, all ▸ relation, client⟩

/-- What the tree yields for a topic that the filter matches has the filter. -/
theorem exists_item_of_inTree {tree : TopicTree Unit} {topicName : TopicName} {topic : Topic}
    (parsed : Topic.fromStr topicName = .ok topic) (free : topic.WildcardFree)
    (matching : Matching l.topicFilter topic)
    (inTree : ∃ filter, Topic.fromStr l.topicFilter = .ok filter ∧
      () ∈ tree.valuesAt filter.levels) :
    ∃ item ∈ matched topic.levels tree [], toTopicFilter item.1 = l.topicFilter := by
  obtain ⟨filter, read, rule⟩ := matching
  obtain ⟨filter', read', stored⟩ := inTree
  obtain rfl : filter = filter' := Except.ok.inj (read.symm.trans read')
  refine ⟨_, (mem_matched_iff_mqttMatches parsed free tree _).mpr
    ⟨filter, rule, OrdSet.ne_empty_iff.mpr ⟨(), stored⟩, rfl⟩, ?_⟩
  exact Topic.toString_of_fromStr read

/-! ## Steps -/

section

variable {start : List (ClientId × Sent From)} {s s' : State}

/-- One task goes on.  A message that is stored afterwards was stored before, and what the task owed
it owes or has brought; or the task owes it now. -/
theorem Covered.move (monotone : Monotone node.env.clock) (covered : Covered node l start s)
    (tended : Tended s') {k : Nat} {task task' : Task} (at_ : s.tasks[k]? = some task)
    (tasks : s'.tasks = s.tasks.set k task') (later : s.retainer.readings ≤ s'.retainer.readings)
    {more : List (ClientId × Sent From)} (channel : s'.channel = s.channel ++ more)
    (moved : ∀ path tv, Stores s' path tv →
      tv.isExpired (node.env.clock s'.retainer.readings) = false → Wanted l ⟨path⟩ tv.value →
        (Stores s path tv ∧ (task.Owes l tv.value →
          task'.Owes l tv.value ∨ Got l.id.clientId more tv.value)) ∨ task'.Owes l tv.value) :
    Covered node l start s' := by
  obtain ⟨new, before, all⟩ := covered.channel
  have within : k < s.tasks.length := (List.getElem?_eq_some_iff.mp at_).1
  have here : task' ∈ s'.tasks := by
    rw [tasks]
    exact List.mem_of_getElem? (List.getElem?_set_self within)
  refine ⟨tended, new ++ more, by rw [channel, before, List.append_assoc], ?_⟩
  intro path tv stored fresh wanted
  rcases moved path tv stored fresh wanted with ⟨old, brings⟩ | owes
  · rcases all path tv old (TimedValue.isExpired_mono (monotone later) fresh) wanted with
      got | ⟨owing, member, owes⟩
    · exact .inl got.mono
    · obtain ⟨j, there⟩ := List.mem_iff_getElem?.mp member
      by_cases same : k = j
      · subst same
        obtain rfl : task = owing := Option.some.inj (at_.symm.trans there)
        rcases brings owes with owes | got
        · exact .inr ⟨task', here, owes⟩
        · exact .inl (got.imp fun _ h => ⟨List.mem_append_right _ h.1, h.2⟩)
      · refine .inr ⟨owing, ?_, owes⟩
        rw [tasks]
        exact List.mem_of_getElem? ((List.getElem?_set_ne same).trans there)
  · exact .inr ⟨task', here, owes⟩

/-- A task goes on that leaves the store as it is. -/
theorem Covered.become (monotone : Monotone node.env.clock) (covered : Covered node l start s)
    (tended : Tended s') {k : Nat} {task task' : Task} (at_ : s.tasks[k]? = some task)
    (tasks : s'.tasks = s.tasks.set k task') (later : s.retainer.readings ≤ s'.retainer.readings)
    (inner : s'.retainer.inner = s.retainer.inner) {more : List (ClientId × Sent From)}
    (channel : s'.channel = s.channel ++ more)
    (brings : ∀ path tv, Stores s path tv →
      tv.isExpired (node.env.clock s'.retainer.readings) = false → Wanted l ⟨path⟩ tv.value →
        task.Owes l tv.value → task'.Owes l tv.value ∨ Got l.id.clientId more tv.value) :
    Covered node l start s' := by
  refine covered.move monotone tended at_ tasks later channel fun path tv stored fresh wanted => ?_
  have old : Stores s path tv := by
    rw [Stores, ← inner]
    exact stored
  exact .inl ⟨old, brings path tv old fresh wanted⟩

/-- What is loaded has every message that is stored and lasts. -/
theorem mem_of_loaded (monotone : Monotone node.env.clock) (tended : Tended s)
    {retains : List (TopicName × Retain From)} {readings : Nat}
    (found : s.retainer.inner.getMessage node.env s.retainer.readings l.topicFilter =
      (.ok retains, readings)) {path : List Level} {tv : TimedValue (Retain From)}
    (stored : Stores s path tv) (fresh : tv.isExpired (node.env.clock readings) = false)
    (matching : Matching l.topicFilter ⟨path⟩) :
    (tv.value.publish.inner.topic, tv.value) ∈ retains := by
  obtain ⟨filter, read, rule⟩ := matching
  have names := RetainNode.names_of_tidy tended.store.counted.tidy
    fun path v held => (tended.named path v held).2
  have valid : ∀ (t : Topic) (v : TimedValue (Retain From)),
      s.retainer.inner.messages.valueAt t.levels = some v → t.Valid := fun t v held =>
    Topic.valid_of_fromStr (tended.named t.levels v held).1
  have member := (RetainNode.mem_matches_of_names names valid (Topic.valid_of_fromStr read)).mpr
    ⟨stored, rule⟩
  rw [DefaultRetainStorage.getMessage, read] at found
  cases found
  have kept := RetainStorage.mem_filterMapReading monotone member fresh
  rw [Topic.toString_of_fromStr (tended.named path tv stored).1] at kept
  exact kept

section

variable {env : MatchEnv} {now : Int} {k : Nat} {m : Message}

/-- A message that is stored now is owed by the task that stored it. -/
theorem Covered.storing (monotone : Monotone node.env.clock) (covered : Covered node l start s)
    (at_ : s.tasks[k]? = some (.storing m))
    (advanced : Advanced node env now k s (.storing m) s') : Covered node l start s' := by
  have tended := covered.tended.advance at_ advanced
  cases advanced with
  | @refused m retainer e stepped result =>
      refine covered.move monotone tended at_ rfl
        (RetainStorage.RamRetainer.readings_of_step stepped) (List.append_nil _).symm ?_
      intro path tv stored fresh wanted
      rcases RetainStorage.RamRetainer.stored_of_step covered.tended.store stepped stored with
        before | ⟨p, r, hp, place, -, -, -, readings, done⟩
      · exact .inl ⟨before, False.elim⟩
      · cases hp
        rw [setResult, place] at result
        dsimp only at result
        rw [done] at result
        cases result
  | @stored m retainer stepped result =>
      refine covered.move monotone tended at_ rfl
        (RetainStorage.RamRetainer.readings_of_step stepped) (List.append_nil _).symm ?_
      intro path tv stored fresh wanted
      rcases RetainStorage.RamRetainer.stored_of_step covered.tended.store stepped stored with
        before | ⟨p, r, hp, place, idle, value, -, -⟩
      · exact .inl ⟨before, False.elim⟩
      · cases hp
        obtain rfl := (covered.tended.requests k m at_).2 r (by rw [place]; rfl)
        rw [afterSet, idle]
        exact .inr value.symm

/-- The publish of a wanted message is to find the subscription, as its topic is read and its filter
is in the tree. -/
theorem Covered.matching (monotone : Monotone node.env.clock) (covered : Covered node l start s)
    (serves : Serves l s) (at_ : s.tasks[k]? = some (.matching m))
    (advanced : Advanced node env now k s (.matching m) s') : Covered node l start s' := by
  have tended := covered.tended.advance at_ advanced
  cases advanced with
  | @targeted m target named =>
      refine covered.become monotone tended at_ rfl le_rfl rfl (List.append_nil _).symm ?_
      intro path tv stored fresh wanted owes
      have untargeted := wanted.untargeted
      rw [← owes] at untargeted
      cases named.symm.trans untargeted
  | @unreadable m e target read =>
      refine covered.become monotone tended at_ rfl le_rfl rfl (List.append_nil _).symm ?_
      intro path tv stored fresh wanted owes
      have parsed := (covered.tended.named path tv stored).1
      rw [← owes] at parsed
      cases read.symm.trans parsed
  | @yielded m topic target read =>
      refine covered.become monotone tended at_ rfl le_rfl rfl (List.append_nil _).symm ?_
      intro path tv stored fresh wanted owes
      obtain ⟨parsed, free⟩ := covered.tended.named path tv stored
      rw [← owes] at parsed
      obtain rfl : topic = ⟨path⟩ := Except.ok.inj (read.symm.trans parsed)
      exact .inl ⟨owes, [], rfl,
        .inl (exists_item_of_inTree parsed free wanted.matching serves.inTree)⟩

/-- The walk over the filters feeds the subscription, and it is then among the relations. -/
theorem Covered.visiting (monotone : Monotone node.env.clock) (own : l.opts.sharedGroup = none)
    (here : l.id.nodeId = node.id) (covered : Covered node l start s) (serves : Serves l s)
    {items : List (Item Unit)} {map : SubscriptioRelationsCollectorMap}
    (at_ : s.tasks[k]? = some (.visiting m items map))
    (advanced : Advanced node env now k s (.visiting m items map) s') :
    Covered node l start s' := by
  have tended := covered.tended.advance at_ advanced
  cases advanced with
  | @visited m item items map =>
      refine covered.become monotone tended at_ rfl le_rfl rfl (List.append_nil _).symm ?_
      intro path tv stored fresh wanted owes
      obtain ⟨same, fs, rfl, fed⟩ := owes
      have remote := wanted.remote
      rw [← same] at remote
      have visit := foldl_visitFilter env m.source.id s.routes.router [item] (feedAll [] fs)
      rw [List.flatMap_singleton] at visit
      refine .inl ⟨same, fs ++ filterFeeds env m.source.id (toTopicFilter item.1) s.routes.router,
        visit.trans (List.foldl_append ..).symm, ?_⟩
      rcases fed with ⟨item', member, filter⟩ | fed
      · rcases List.mem_cons.mp member with rfl | member
        · rw [filter]
          exact .inr (List.mem_append_right _ (ownFeed_mem_filterFeeds own serves.held remote))
        · exact .inl ⟨item', member, filter⟩
      · exact .inr (List.mem_append_left _ fed)
  | @found m map collector found =>
      refine covered.become monotone tended at_ rfl le_rfl rfl (List.append_nil _).symm ?_
      intro path tv stored fresh wanted owes
      obtain ⟨same, fs, rfl, ⟨item, member, -⟩ | fed⟩ := owes
      · cases member
      · obtain ⟨collector', there, rel, relation, client⟩ :=
          exists_relation_of_feeds fed (env.v5Walk node.id)
        rw [here] at there
        obtain rfl : collector = collector' := Option.some.inj (found.symm.trans there)
        obtain ⟨i, index⟩ := List.mem_iff_getElem?.mp relation
        exact .inl ⟨same, (rel, i), List.mem_zipIdx_iff_getElem?.mpr index, client⟩
  | @unfound m map found =>
      refine covered.become monotone tended at_ rfl le_rfl rfl (List.append_nil _).symm ?_
      intro path tv stored fresh wanted owes
      obtain ⟨same, fs, rfl, ⟨item, member, -⟩ | fed⟩ := owes
      · cases member
      · obtain ⟨collector', there, -⟩ := exists_relation_of_feeds fed (env.v5Walk node.id)
        rw [here] at there
        cases found.symm.trans there

/-- The relation of the subscription is sent to, as the channel is open. -/
theorem Covered.forwarding (monotone : Monotone node.env.clock) (covered : Covered node l start s)
    (serves : Serves l s) {relations : List (SubRelation × Nat)} {st : Forwarding From}
    (at_ : s.tasks[k]? = some (.forwarding m relations st))
    (advanced : Advanced node env now k s (.forwarding m relations st) s') :
    Covered node l start s' := by
  have tended := covered.tended.advance at_ advanced
  obtain ⟨dest₀, open_⟩ := serves.channel
  cases advanced with
  | @sent m rel i relations st dest peer =>
      refine covered.become monotone tended at_ rfl le_rfl rfl rfl ?_
      intro path tv stored fresh wanted owes
      obtain ⟨same, e, member, client⟩ := owes
      rcases List.mem_cons.mp member with rfl | member
      · refine .inr ⟨⟨dest, m.source, forwardCopy m.publish rel⟩, ?_, ?_⟩
        · rw [← client]
          exact List.mem_singleton.mpr rfl
        · rw [← same]
          exact ⟨rfl, rfl, rfl⟩
      · exact .inl ⟨same, e, member, client⟩
  | @failed m rel i relations st dest reason refused =>
      refine covered.become monotone tended at_ rfl le_rfl rfl (List.append_nil _).symm ?_
      intro path tv stored fresh wanted owes
      obtain ⟨same, e, member, client⟩ := owes
      rcases List.mem_cons.mp member with rfl | member
      · rw [← client] at open_
        exact absurd open_ (refused dest₀)
      · exact .inl ⟨same, e, member, client⟩
  | @forwarded m st =>
      obtain ⟨dropped, nonsubscribed, same⟩ := forwarded_eq k m st s
      rw [same] at tended ⊢
      refine covered.become monotone tended at_ rfl le_rfl rfl (List.append_nil _).symm ?_
      intro path tv stored fresh wanted owes
      obtain ⟨-, e, member, -⟩ := owes
      cases member

/-- The load finds what is stored and lasts. -/
theorem Covered.loading (monotone : Monotone node.env.clock)
    (enabled : (node.retainEnable && l.sendRetainEnable) = true) (covered : Covered node l start s)
    (serves : Serves l s) {l' : Subscriber} (at_ : s.tasks[k]? = some (.loading l'))
    (advanced : Advanced node env now k s (.loading l') s') : Covered node l start s' := by
  have tended := covered.tended.advance at_ advanced
  cases advanced with
  | @unloaded _ why =>
      refine covered.become monotone tended at_ rfl le_rfl rfl (List.append_nil _).symm ?_
      intro path tv stored fresh wanted owes
      obtain rfl : l' = l := owes
      rcases why with disabled | ⟨e, unread⟩
      · rw [enabled] at disabled
        cases disabled
      · obtain ⟨filter, read, -⟩ := serves.inTree
        cases unread.symm.trans read
  | @loaded _ retains readings allowed found =>
      have later : s.retainer.readings ≤ readings := by
        have le := RetainStorage.RamRetainer.readings_getMessage node.env s.retainer.inner
          s.retainer.readings l'.topicFilter
        rw [found] at le
        exact le
      refine covered.become monotone tended at_ rfl later rfl (List.append_nil _).symm ?_
      intro path tv stored fresh wanted owes
      obtain rfl : l' = l := owes
      exact .inl ⟨rfl, mem_of_loaded monotone covered.tended found stored fresh wanted.matching⟩

/-- What was loaded is sent, as the channel is open. -/
theorem Covered.sending (monotone : Monotone node.env.clock) (covered : Covered node l start s)
    (serves : Serves l s) {l' : Subscriber} {retains : List (TopicName × Retain From)}
    (at_ : s.tasks[k]? = some (.sending l' retains))
    (advanced : Advanced node env now k s (.sending l' retains) s') : Covered node l start s' := by
  have tended := covered.tended.advance at_ advanced
  obtain ⟨dest₀, open_⟩ := serves.channel
  cases advanced with
  | @resent _ topic retain retains dest peer =>
      refine covered.become monotone tended at_ rfl le_rfl rfl rfl ?_
      intro path tv stored fresh wanted owes
      obtain ⟨rfl, member⟩ := owes
      rcases List.mem_cons.mp member with first | member
      · obtain ⟨rfl, rfl⟩ := Prod.mk.inj first
        exact .inr ⟨_, List.mem_singleton.mpr rfl, rfl, rfl, rfl⟩
      · exact .inl ⟨rfl, member⟩
  | @lost _ topic retain retains reason refused =>
      refine covered.become monotone tended at_ rfl le_rfl rfl (List.append_nil _).symm ?_
      intro path tv stored fresh wanted owes
      obtain ⟨rfl, member⟩ := owes
      exact absurd open_ (refused dest₀)
  | @ended _ =>
      refine covered.become monotone tended at_ rfl le_rfl rfl (List.append_nil _).symm ?_
      intro path tv stored fresh wanted owes
      obtain ⟨-, member⟩ := owes
      cases member

theorem Covered.advance (monotone : Monotone node.env.clock)
    (enabled : (node.retainEnable && l.sendRetainEnable) = true)
    (own : l.opts.sharedGroup = none) (here : l.id.nodeId = node.id)
    (covered : Covered node l start s) (serves : Serves l s) {task : Task}
    (at_ : s.tasks[k]? = some task) (advanced : Advanced node env now k s task s') :
    Covered node l start s' := by
  cases task with
  | storing m => exact covered.storing monotone at_ advanced
  | matching m => exact covered.matching monotone serves at_ advanced
  | visiting m items map => exact covered.visiting monotone own here serves at_ advanced
  | forwarding m relations st => exact covered.forwarding monotone serves at_ advanced
  | adding l' =>
      have tended := covered.tended.advance at_ advanced
      cases advanced
      exact covered.become monotone tended at_ rfl le_rfl rfl (List.append_nil _).symm
        fun _ _ _ _ _ owes => owes.elim
  | loading l' => exact covered.loading monotone enabled serves at_ advanced
  | sending l' retains => exact covered.sending monotone serves at_ advanced
  | done => cases advanced

end

/-- A step that leaves the tasks and the channels as they are, and stores nothing. -/
theorem Covered.keep (monotone : Monotone node.env.clock) (covered : Covered node l start s)
    (tended : Tended s') (tasks : ∀ task ∈ s.tasks, task ∈ s'.tasks)
    (later : s.retainer.readings ≤ s'.retainer.readings) (channel : s'.channel = s.channel)
    (stores : ∀ path tv, Stores s' path tv → Stores s path tv) : Covered node l start s' := by
  obtain ⟨new, before, all⟩ := covered.channel
  refine ⟨tended, new, channel.trans before, fun path tv stored fresh wanted => ?_⟩
  rcases all path tv (stores path tv stored) (TimedValue.isExpired_mono (monotone later) fresh)
    wanted with got | ⟨task, member, owes⟩
  · exact .inl got
  · exact .inr ⟨task, tasks task member, owes⟩

theorem Covered.step (monotone : Monotone node.env.clock)
    (enabled : (node.retainEnable && l.sendRetainEnable) = true)
    (own : l.opts.sharedGroup = none) (here : l.id.nodeId = node.id)
    (covered : Covered node l start s) {a : Action} (serves : Serves l s) (named : a.Named)
    (h : step node s a = some s') : Covered node l start s' := by
  have tended := covered.tended.step named h
  have append : ∀ {task : Task}, ∀ task' ∈ s.tasks, task' ∈ s.tasks ++ [task] :=
    fun _ member => List.mem_append_left _ member
  cases a with
  | publish m =>
      rw [Delivery.step, publish] at h
      split at h
      · obtain ⟨retainer, stepped, rfl⟩ := Option.map_eq_some_iff.mp h
        exact covered.keep monotone tended append
          (RetainStorage.RamRetainer.readings_of_step stepped) rfl
          fun _ _ => stores_of_step covered.tended stepped (by simp)
      · cases h
        exact covered.keep monotone tended append le_rfl rfl fun _ _ => id
  | subscribe l' =>
      rw [Delivery.step, subscribe] at h
      split at h
      · cases h
        exact covered
      · split at h
        · split at h
          · cases h
            exact covered
          · obtain ⟨routes, -, rfl⟩ := Option.map_eq_some_iff.mp h
            exact covered.keep monotone tended append le_rfl rfl fun _ _ => id
        · cases h
  | proceed k env now =>
      obtain ⟨task, at_, advanced⟩ := Option.bind_eq_some_iff.mp h
      exact covered.advance monotone enabled own here serves at_ (advance_cases advanced)
  | router action =>
      obtain ⟨routes, -, rfl⟩ := Option.map_eq_some_iff.mp h
      exact covered.keep monotone tended (fun _ => id) le_rfl rfl fun _ _ => id
  | removeExpiredMessages =>
      rw [Delivery.step] at h
      obtain ⟨retainer, stepped, rfl⟩ := Option.map_eq_some_iff.mp h
      exact covered.keep monotone tended (fun _ => id)
        (RetainStorage.RamRetainer.readings_of_step stepped) rfl
        fun _ _ => stores_of_step covered.tended stepped (by simp)
  | peer clientId peer =>
      cases h
      exact covered.keep monotone tended (fun _ => id) le_rfl rfl fun _ _ => id

end

/-- A subscription is in the router and its retained messages are to be loaded.  In every run from
there, with any publishes, subscribes, purges and clients, in which the subscription stays in the
router and the channel of its client is open: when all tasks have ended, every message that is
retained, has not expired and is for the subscription has been put to the channel of the client. -/
theorem retained_reaches (monotone : Monotone node.env.clock)
    (enabled : (node.retainEnable && l.sendRetainEnable) = true)
    (own : l.opts.sharedGroup = none) (here : l.id.nodeId = node.id) {before after : List Action}
    {s s' : State}
    (named : Machine.Guarded (step node) (fun _ a => a.Named) {} before)
    (ran : Machine.run (step node) {} before = some s) (loading : Task.loading l ∈ s.tasks)
    (serves : Machine.Guarded (step node) (fun s a => Serves l s ∧ a.Named) s after)
    (ran' : Machine.run (step node) s after = some s')
    (ended : ∀ task ∈ s'.tasks, task.isDone = true) :
    ∃ new, s'.channel = s.channel ++ new ∧ ∀ topic tv, Stores s' topic tv →
      tv.isExpired (node.env.clock s'.retainer.readings) = false → Wanted l ⟨topic⟩ tv.value →
        Got l.id.clientId new tv.value := by
  have tended : Tended s := Machine.invariant_guarded
    (fun _ _ _ tended named h => Tended.step tended named h) named ran tended_init
  have start : Covered node l s.channel s :=
    ⟨tended, [], (List.append_nil _).symm, fun _ _ _ _ _ => .inr ⟨_, loading, rfl⟩⟩
  have covered : Covered node l s.channel s' := Machine.invariant_guarded
    (fun _ _ _ covered cond h => Covered.step monotone enabled own here covered cond.1 cond.2 h)
    serves ran' start
  obtain ⟨new, channel, all⟩ := covered.channel
  refine ⟨new, channel, fun topic tv stored fresh wanted => ?_⟩
  rcases all topic tv stored fresh wanted with got | ⟨task, member, owes⟩
  · exact got
  · have done := ended task member
    cases task <;> first | exact owes.elim | cases done

/-- The state in which the client of `watcher` has subscribed. -/
def subscribed : State := (Machine.run (step oneNode) {} subscribing).getD {}

/-- The message is published between the subscribe and the load. -/
theorem retained_reaches_one : ∃ s new,
    Machine.run (step oneNode) subscribed publishing = some s ∧
      s.channel = subscribed.channel ++ new ∧ Got "c" new reading.retain := by
  obtain ⟨s, ran, final⟩ := (Option.any_eq_true _ _).mp
    (by decide +kernel : (Machine.run (step oneNode) subscribed publishing).any (fun s =>
      s.retainer.inner.messages.valueAt [.normal "t"] == some ⟨reading.retain, none⟩ &&
        s.tasks.all Task.isDone) = true)
  rw [Bool.and_eq_true, beq_iff_eq, List.all_eq_true] at final
  have shown : ¬(LeadingWildcard [.normal "t"] ∧ LeadingDollar [.normal "t"]) := by
    intro h
    obtain ⟨⟨l, head, wild⟩, -⟩ := h
    cases head
    cases wild
  have wanted : Wanted watcher ⟨[.normal "t"]⟩ reading.retain :=
    ⟨⟨⟨[.normal "t"]⟩, by decide, .literal rfl .nil, shown⟩, by decide, rfl⟩
  have ran₀ : Machine.run (step oneNode) {} subscribing = some subscribed := rfl
  obtain ⟨new, channel, reaches⟩ := @retained_reaches oneNode watcher monotone_id (by decide) rfl
    rfl subscribing publishing subscribed s (by decide +kernel) ran₀ (List.mem_singleton.mpr rfl)
    (by decide +kernel) ran final.2
  exact ⟨s, new, ran, channel, reaches _ _ final.1 rfl wanted⟩

end OxiMqtt.Delivery

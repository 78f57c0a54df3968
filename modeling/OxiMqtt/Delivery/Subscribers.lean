import OxiMqtt.Delivery.Store

/-!
# Only subscribers get a message

What is put to the channel of a client was published in the run, and is for the client: the publish
names it, or it has subscribed to a filter that matches the topic.

* `mem_relations_of_step`, `inserting_of_step`, `parsed_of_step`: where the relations and the
  filters of the router come from.
* `eligible_of_mem_filterFeeds`: where a call of a collector comes from.
* `Traced.step`: everything that a task holds is traced back to the run.
* `only_subscribers_receive`: so is everything in the channels.
-/

namespace OxiMqtt

open Collections

namespace Router

/-! ## Where relations come from -/

theorem mem_of_mem_erase {K A : Type} [DecidableEq K] {m : Assoc K A} {k : K} {e : K × A}
    (h : e ∈ m.erase k) : e ∈ m := List.mem_of_mem_filter h

theorem mem_of_lookup_insert {K A : Type} [DecidableEq K] {m : Assoc K A} {k k' : K} {a a' : A}
    (h : (m.insert k a).lookup k' = some a') : k' = k ∧ a' = a ∨ m.lookup k' = some a' := by
  by_cases same : k' = k
  · subst same
    rw [Assoc.lookup_insert_self] at h
    cases h
    exact .inl ⟨rfl, rfl⟩
  · rw [Assoc.lookup_insert_of_ne _ _ same] at h
    exact .inr h

theorem lookup_of_lookup_erase {K A : Type} [DecidableEq K] {m : Assoc K A} {k k' : K} {a : A}
    (h : (m.erase k).lookup k' = some a) : m.lookup k' = some a := by
  by_cases same : k' = k
  · subst same
    rw [Assoc.lookup_erase_self] at h
    cases h
  · rwa [Assoc.lookup_erase_of_ne _ same] at h

namespace Concurrent

variable {s s' : State} {a : Action}

/-- A relation after a step was there before, or its client was about to insert it. -/
theorem mem_relations_of_step (h : step s a = some s') {f : TopicFilter}
    {rels : Assoc ClientId Relation} (found : s'.router.relations.lookup f = some rels)
    {e : ClientId × Relation} (member : e ∈ rels) :
    (∃ rels₀, s.router.relations.lookup f = some rels₀ ∧ e ∈ rels₀) ∨
      ∃ c, s.busy.lookup c = some (.insertRelation f e.2.1 e.2.2) ∧ e.1 = e.2.1.clientId := by
  cases a with
  | call call =>
      left
      rw [step] at h
      split at h
      · cases h
        cases call with
        | add f' id opts =>
            rw [start] at found
            split at found <;> exact ⟨rels, found, member⟩
        | remove f' id =>
            rw [start] at found
            rcases s.router.takeRelation_cases f' id with ⟨same, -⟩ | ⟨rels', opts, there, -, taken⟩
            · rw [same] at found
              exact ⟨rels, found, member⟩
            · rw [taken] at found
              rcases mem_of_lookup_insert found with ⟨rfl, rfl⟩ | before
              · exact ⟨rels', there, mem_of_mem_erase member⟩
              · exact ⟨rels, before, member⟩
      · cases h
  | step client =>
      obtain ⟨pc, at_, rfl⟩ := Option.map_eq_some_iff.mp h
      cases pc with
      | insertRelation f' id opts =>
          change (s.router.insertRelation f' id opts).1.relations.lookup f = some rels at found
          rw [DefaultRouter.lookup_insertRelation] at found
          split at found
          · rename_i same
            subst same
            cases found
            rcases List.mem_cons.mp member with rfl | member
            · exact .inr ⟨client, at_, rfl⟩
            · left
              cases there : s.router.relations.lookup f with
              | none =>
                  rw [there] at member
                  cases member
              | some rels₀ =>
                  rw [there] at member
                  exact ⟨rels₀, rfl, mem_of_mem_erase member⟩
          · exact .inl ⟨rels, found, member⟩
      | countRelation => exact .inl ⟨rels, found, member⟩
      | dropFilter f' => exact .inl ⟨rels, lookup_of_lookup_erase found, member⟩
      | uncountTopic f' => exact .inl ⟨rels, found, member⟩
      | removeTopic f' =>
          rw [proceed] at found
          split at found <;> exact .inl ⟨rels, found, member⟩

/-- A client that is about to insert a relation has called `add` with it. -/
theorem inserting_of_step (h : step s a = some s') {c : ClientId} {f : TopicFilter} {id : Id}
    {opts : SubscriptionOptions} (at_ : s'.busy.lookup c = some (.insertRelation f id opts)) :
    s.busy.lookup c = some (.insertRelation f id opts) ∨ a = .call (.add f id opts) := by
  -- a client that goes to another place leaves the others where they are
  have put : ∀ {client : ClientId} {next : Option Pc}, s'.busy = s.busy.put client next →
      next = some (.insertRelation f id opts) ∨
        s.busy.lookup c = some (.insertRelation f id opts) := by
    intro client next busy
    rw [busy, Assoc.lookup_put] at at_
    split at at_
    · exact .inl at_
    · exact .inr at_
  cases a with
  | call call =>
      rw [step] at h
      split at h
      · cases h
        cases call with
        | add f' id' opts' =>
            cases read : Topic.fromStr f' with
            | error e =>
                rw [start, read] at at_
                exact .inl at_
            | ok topic =>
                rcases put (by rw [start, read]) with next | before
                · cases next
                  exact .inr rfl
                · exact .inl before
        | remove f' id' =>
            rcases put rfl with next | before
            · split at next <;> cases next
            · exact .inl before
      · cases h
  | step client =>
      left
      obtain ⟨pc, there, rfl⟩ := Option.map_eq_some_iff.mp h
      cases pc with
      | insertRelation f' id' opts' =>
          have busy : (proceed s client (.insertRelation f' id' opts')).busy =
              s.busy.put client
                (if (s.router.insertRelation f' id' opts').2 then some .countRelation else none) :=
            rfl
          rcases put busy with next | before
          · split at next <;> cases next
          · exact before
      | countRelation =>
          have busy : (proceed s client .countRelation).busy = s.busy.put client none := rfl
          rcases put busy with next | before
          · cases next
          · exact before
      | dropFilter f' =>
          have busy : (proceed s client (.dropFilter f')).busy = s.busy.put client
              (some (if (s.router.dropFilter f').2 then .uncountTopic f' else .removeTopic f')) :=
            rfl
          rcases put busy with next | before
          · split at next <;> cases next
          · exact before
      | uncountTopic f' =>
          have busy : (proceed s client (.uncountTopic f')).busy =
              s.busy.put client (some (.removeTopic f')) := rfl
          rcases put busy with next | before
          · cases next
          · exact before
      | removeTopic f' =>
          have busy : (proceed s client (.removeTopic f')).busy = s.busy.put client none := by
            rw [proceed]
            split <;> rfl
          rcases put busy with next | before
          · cases next
          · exact before

/-- What is in the tree was there before, or is a filter that was read. -/
theorem parsed_of_step (h : step s a = some s') {path : List Level}
    (filled : s'.router.topics.valuesAt path ≠ ∅) :
    s.router.topics.valuesAt path ≠ ∅ ∨ ∃ f, Topic.fromStr f = .ok ⟨path⟩ := by
  cases a with
  | call call =>
      rw [step] at h
      split at h
      · cases h
        cases call with
        | add f id opts =>
            rw [start] at filled
            split at filled
            · exact .inl filled
            · rename_i topic read
              change ((s.router.topics.insert topic ()).1).valuesAt path ≠ ∅ at filled
              rw [Node.insert, Node.valuesAt_insertPath] at filled
              split at filled
              · rename_i same
                exact .inr ⟨f, same ▸ read⟩
              · exact .inl filled
        | remove f id =>
            rw [start] at filled
            rcases s.router.takeRelation_cases f id with ⟨same, -⟩ | ⟨rels, opts, -, -, taken⟩
            · rw [same] at filled
              exact .inl filled
            · rw [taken] at filled
              exact .inl filled
      · cases h
  | step client =>
      left
      obtain ⟨pc, there, rfl⟩ := Option.map_eq_some_iff.mp h
      cases pc with
      | insertRelation f id opts =>
          change (s.router.insertRelation f id opts).1.topics.valuesAt path ≠ ∅ at filled
          rw [DefaultRouter.insertRelation_topics] at filled
          exact filled
      | countRelation => exact filled
      | dropFilter f => exact filled
      | uncountTopic f => exact filled
      | removeTopic f =>
          rw [proceed] at filled
          split at filled
          · exact filled
          · rename_i topic read
            change ((s.router.topics.remove topic ()).1).valuesAt path ≠ ∅ at filled
            rw [Node.remove, Node.valuesAt_removePath] at filled
            split at filled
            · rename_i same
              obtain ⟨u, member⟩ := OrdSet.ne_empty_iff.mp filled
              rw [same]
              exact OrdSet.ne_empty_iff.mpr ⟨u, (OrdSet.mem_remove.mp member).2⟩
            · exact filled

end Concurrent

/-! ## Where the calls of a collector come from -/

/-- A call of a collector is for a relation of the filter that No Local does not exclude. -/
theorem eligible_of_mem_filterFeeds {env : MatchEnv} {thisId : Id} {f : TopicFilter}
    {r : DefaultRouter} {n : NodeId} {x : Feed} (fed : (n, x) ∈ filterFeeds env thisId f r) :
    ∃ rels id opts, r.relations.lookup f = some rels ∧ (x.clientId, id, opts) ∈ rels ∧
      excluded thisId (id, opts) = false := by
  -- what is walked is in the map
  have stored : ∀ {c : ClientId} {rel : Relation}, (c, rel) ∈ walked env f r →
      ∃ rels, r.relations.lookup f = some rels ∧ (c, rel) ∈ rels := by
    intro c rel member
    rw [walked, Walk.mem_visit] at member
    cases there : r.relations.lookup f with
    | none =>
        rw [there] at member
        cases member
    | some rels =>
        rw [there] at member
        exact ⟨rels, rfl, member⟩
  rcases List.mem_append.mp fed with own | chosen
  · obtain ⟨⟨c, id, opts⟩, member, same⟩ := List.mem_map.mp own
    obtain ⟨visited, isOwn⟩ := List.mem_filter.mp member
    cases same
    rw [Router.isOwn, Bool.and_eq_true, Bool.not_eq_true'] at isOwn
    obtain ⟨rels, there, relation⟩ := stored visited
    exact ⟨rels, id, opts, there, relation, isOwn.1⟩
  · obtain ⟨⟨g, ms⟩, group, same⟩ := List.mem_filterMap.mp chosen
    rw [Walk.mem_visit] at group
    have lookup := (nodupKeys_groupsOf _).mem_iff_lookup.mp group
    obtain ⟨⟨idx, isOnline⟩, -, picked⟩ := Option.bind_eq_some_iff.mp same
    obtain ⟨m, at_, same⟩ := Option.map_eq_some_iff.mp picked
    cases same
    have member := List.mem_of_getElem? at_
    rw [groupsOf, Assoc.lookup_gather_lists] at lookup
    split at lookup
    · cases lookup
    · cases lookup
      obtain ⟨⟨g', m'⟩, filtered, rfl⟩ := List.mem_map.mp member
      obtain ⟨⟨c, id, opts⟩, visited, candidate⟩ :=
        List.mem_filterMap.mp (List.mem_filter.mp filtered).1
      obtain ⟨remote, -, rfl⟩ := candidate_eq_some.mp candidate
      obtain ⟨rels, there, relation⟩ := stored visited
      exact ⟨rels, id, opts, there, relation, remote⟩

end Router

namespace Delivery

open OxiMqtt.Router
open OxiMqtt.RetainStorage (Retain TimedValue DefaultRetainStorage)

/-! ## Who may get a message -/

/-- The run has a call that adds this subscription. -/
def Added (past : List Action) (f : TopicFilter) (id : Id) (opts : SubscriptionOptions) : Prop :=
  .router (.call (.add f id opts)) ∈ past ∨
    ∃ l, .subscribe l ∈ past ∧ l.topicFilter = f ∧ l.id = id ∧ l.opts = opts

/-- The client has subscribed to a filter that matches the topic, and No Local does not exclude who
the message is from. -/
def HasSubscribed (past : List Action) (clientId : ClientId) (source : Id) (topic : Topic) : Prop :=
  ∃ f id opts, Added past f id opts ∧ id.clientId = clientId ∧ Matching f topic ∧
    excluded source (id, opts) = false

/-- The publish is for the client: by its name, or by a subscription. -/
def IsFor (past : List Action) (clientId : ClientId) (m : Message) : Prop :=
  m.publish.targetClientid = some clientId ∨
    ∃ topic, Topic.fromStr m.publish.inner.topic = .ok topic ∧
      HasSubscribed past clientId m.source.id topic

/-- The message was published to be retained, and the subscriber, who asks for such messages, has a
filter that matches its topic. -/
structure IsRetainedFor (past : List Action) (l : Subscriber) (m : Message) : Prop where
  published : .publish m ∈ past
  retain : m.publish.inner.retain = true
  subscribed : .subscribe l ∈ past
  asks : l.sendRetainEnable = true
  matching : ∃ topic, Topic.fromStr m.publish.inner.topic = .ok topic ∧ Matching l.topicFilter topic

/-- What was put to the channel of the client is the message that was published, with its topic and
its payload, and it was for the client. -/
def Rightful (past : List Action) (clientId : ClientId) (sent : Sent From) : Prop :=
  ∃ m, .publish m ∈ past ∧ sent.source = m.source ∧
    sent.publish.inner.topic = m.publish.inner.topic ∧
    sent.publish.inner.payload = m.publish.inner.payload ∧
    (IsFor past clientId m ∨ ∃ l, l.id.clientId = clientId ∧ IsRetainedFor past l m)

/-- What a task holds comes from the run. -/
def Task.Traced (past : List Action) : Task → Prop
  | .storing m => .publish m ∈ past ∧ m.publish.inner.retain = true
  | .matching m => .publish m ∈ past
  | .visiting m items map => .publish m ∈ past ∧
      ∃ topic, Topic.fromStr m.publish.inner.topic = .ok topic ∧
        (∀ item ∈ items, ∃ f, Topic.fromStr f = .ok ⟨item.1⟩ ∧ MqttMatches ⟨item.1⟩ topic) ∧
        ∃ fs, map = feedAll [] fs ∧ ∀ e ∈ fs, HasSubscribed past e.2.clientId m.source.id topic
  | .forwarding m relations _ => .publish m ∈ past ∧ ∀ e ∈ relations, IsFor past e.1.clientId m
  | .adding l => .subscribe l ∈ past
  | .loading l => .subscribe l ∈ past
  | .sending l retains => ∀ e ∈ retains, ∃ m, e = (m.publish.inner.topic, m.retain) ∧
      IsRetainedFor past l m
  | .done => True

/-- Everything in a state comes from the run. -/
structure Traced (past : List Action) (s : State) : Prop where
  tended : Tended s
  relations : ∀ f rels, s.routes.router.relations.lookup f = some rels → ∀ e ∈ rels,
    Added past f e.2.1 e.2.2 ∧ e.2.1.clientId = e.1
  inserting : ∀ c f id opts, s.routes.busy.lookup c = some (.insertRelation f id opts) →
    Added past f id opts
  filters : ∀ path, s.routes.router.topics.valuesAt path ≠ ∅ →
    ∃ f, Topic.fromStr f = .ok ⟨path⟩
  stored : ∀ path tv, Stores s path tv → ∃ m, tv.value = m.retain ∧ .publish m ∈ past ∧
    m.publish.inner.retain = true
  tasks : ∀ task ∈ s.tasks, task.Traced past
  channel : ∀ e ∈ s.channel, Rightful past e.1 e.2

section

variable {past past' : List Action} (le : past ⊆ past')

include le

theorem Added.mono {f : TopicFilter} {id : Id} {opts : SubscriptionOptions}
    (h : Added past f id opts) : Added past' f id opts :=
  h.imp (le ·) fun h => h.imp fun _ h => ⟨le h.1, h.2⟩

theorem HasSubscribed.mono {clientId : ClientId} {source : Id} {topic : Topic}
    (h : HasSubscribed past clientId source topic) : HasSubscribed past' clientId source topic := by
  obtain ⟨f, id, opts, added, rest⟩ := h
  exact ⟨f, id, opts, added.mono le, rest⟩

theorem IsFor.mono {clientId : ClientId} {m : Message} (h : IsFor past clientId m) :
    IsFor past' clientId m :=
  h.imp id fun h => h.imp fun _ h => ⟨h.1, h.2.mono le⟩

theorem IsRetainedFor.mono {l : Subscriber} {m : Message} (h : IsRetainedFor past l m) :
    IsRetainedFor past' l m :=
  ⟨le h.published, h.retain, le h.subscribed, h.asks, h.matching⟩

theorem Rightful.mono {clientId : ClientId} {sent : Sent From} (h : Rightful past clientId sent) :
    Rightful past' clientId sent := by
  obtain ⟨m, published, source, topic, payload, right⟩ := h
  exact ⟨m, le published, source, topic, payload, right.imp (·.mono le) fun h =>
    h.imp fun _ h => ⟨h.1, h.2.mono le⟩⟩

theorem Task.Traced.mono {task : Task} (h : task.Traced past) : task.Traced past' := by
  cases task with
  | storing m => exact ⟨le h.1, h.2⟩
  | matching m => exact le h
  | visiting m items map =>
      obtain ⟨published, topic, read, filters, fs, fed, subscribed⟩ := h
      exact ⟨le published, topic, read, filters, fs, fed, fun e he => (subscribed e he).mono le⟩
  | forwarding m relations st => exact ⟨le h.1, fun e he => (h.2 e he).mono le⟩
  | adding l => exact le h
  | loading l => exact le h
  | sending l retains =>
      intro e he
      obtain ⟨m, same, right⟩ := h e he
      exact ⟨m, same, right.mono le⟩
  | done => trivial

end

/-! ## Steps -/

section

variable {node : Node} {past : List Action} {s s' : State}

theorem Traced.mono {past' : List Action} (le : past ⊆ past') (traced : Traced past s) :
    Traced past' s where
  tended := traced.tended
  relations f rels found e he := (traced.relations f rels found e he).imp (·.mono le) id
  inserting c f id opts at_ := (traced.inserting c f id opts at_).mono le
  filters := traced.filters
  stored path tv h := (traced.stored path tv h).imp fun _ h => ⟨h.1, le h.2.1, h.2.2⟩
  tasks task member := (traced.tasks task member).mono le
  channel e he := (traced.channel e he).mono le

/-- A task goes on, and puts to a channel what it may. -/
theorem Traced.become (traced : Traced past s) (tended : Tended s') {k : Nat} {task : Task}
    (routes : s'.routes = s.routes)
    (stores : ∀ path tv, Stores s' path tv → Stores s path tv)
    (tasks : s'.tasks = s.tasks.set k task) (held : task.Traced past)
    {more : List (ClientId × Sent From)} (channel : s'.channel = s.channel ++ more)
    (right : ∀ e ∈ more, Rightful past e.1 e.2) : Traced past s' where
  tended := tended
  relations := by
    rw [routes]
    exact traced.relations
  inserting := by
    rw [routes]
    exact traced.inserting
  filters := by
    rw [routes]
    exact traced.filters
  stored path tv h := traced.stored path tv (stores path tv h)
  tasks task' member := by
    rw [tasks] at member
    rcases List.mem_or_eq_of_mem_set member with before | rfl
    · exact traced.tasks task' before
    · exact held
  channel e he := by
    rw [channel] at he
    exact (List.mem_append.mp he).elim (traced.channel e) (right e)

/-- A step of the store for a task that is in `set`. -/
theorem Traced.resume (traced : Traced past s) {k : Nat} {m : Message} {task : Task}
    {retainer : RetainStorage.RamRetainer.State From} (at_ : s.tasks[k]? = some (.storing m))
    (stepped : RetainStorage.RamRetainer.step node.env node.cfg s.retainer (.resume k) =
      some retainer) (tended : Tended ({ s with retainer }.become k task))
    (held : task.Traced past) : Traced past ({ s with retainer }.become k task) where
  tended := tended
  relations := traced.relations
  inserting := traced.inserting
  filters := traced.filters
  stored path tv h := by
    rcases RetainStorage.RamRetainer.stored_of_step traced.tended.store stepped h with
      before | ⟨p, r, hp, place, -, value, -⟩
    · exact traced.stored path tv before
    · cases hp
      obtain rfl := (traced.tended.requests k m at_).2 r (by rw [place]; rfl)
      have published := traced.tasks _ (List.mem_of_getElem? at_)
      exact ⟨m, value, published.1, published.2⟩
  tasks task' member := by
    rcases List.mem_or_eq_of_mem_set member with before | rfl
    · exact traced.tasks task' before
    · exact held
  channel := traced.channel

/-- A filter that was visited adds calls for those who have subscribed to it. -/
theorem hasSubscribed_of_visited (traced : Traced past s) {env : MatchEnv} {source : Id}
    {path : List Level} {topic : Topic} {f : TopicFilter} (read : Topic.fromStr f = .ok ⟨path⟩)
    (rule : MqttMatches ⟨path⟩ topic) {e : NodeId × Feed}
    (fed : e ∈ filterFeeds env source (toTopicFilter path) s.routes.router) :
    HasSubscribed past e.2.clientId source topic := by
  have text : toTopicFilter path = f := Topic.toString_of_fromStr read
  rw [text] at fed
  obtain ⟨rels, id, opts, found, relation, remote⟩ := eligible_of_mem_filterFeeds fed
  obtain ⟨added, client⟩ := traced.relations f rels found _ relation
  exact ⟨f, id, opts, added, client, ⟨⟨path⟩, read, rule⟩, remote⟩

/-- What a load returns was published to be retained. -/
theorem isRetainedFor_of_loaded (traced : Traced past s) {l : Subscriber}
    (subscribed : .subscribe l ∈ past) (asks : l.sendRetainEnable = true)
    {retains : List (TopicName × Retain From)} {readings : Nat}
    (found : s.retainer.inner.getMessage node.env s.retainer.readings l.topicFilter =
      (.ok retains, readings)) {e : TopicName × Retain From} (member : e ∈ retains) :
    ∃ m, e = (m.publish.inner.topic, m.retain) ∧ IsRetainedFor past l m := by
  have tended := traced.tended
  cases read : Topic.fromStr l.topicFilter with
  | error e' =>
      rw [DefaultRetainStorage.getMessage, read] at found
      cases found
  | ok filter =>
      rw [DefaultRetainStorage.getMessage, read] at found
      cases found
      obtain ⟨⟨topic, tv⟩, matched, rfl⟩ := RetainStorage.mem_of_mem_filterMapReading member
      have names := RetainNode.names_of_tidy tended.store.counted.tidy
        fun path v held => (tended.named path v held).2
      have valid : ∀ (t : Topic) (v : TimedValue (Retain From)),
          s.retainer.inner.messages.valueAt t.levels = some v → t.Valid := fun t v held =>
        Topic.valid_of_fromStr (tended.named t.levels v held).1
      obtain ⟨stored, rule⟩ := (RetainNode.mem_matches_of_names names valid
        (Topic.valid_of_fromStr read)).mp matched
      obtain ⟨m, value, published, retain⟩ := traced.stored topic.levels tv stored
      have parsed := (tended.named topic.levels tv stored).1
      rw [value] at parsed
      refine ⟨m, ?_, published, retain, subscribed, asks, topic, parsed, filter, read, rule⟩
      rw [value, Topic.toString_of_fromStr parsed]
      rfl

theorem Traced.advance (traced : Traced past s) (names : ∀ m, .publish m ∈ past → m.Named)
    {env : MatchEnv} {now : Int} {k : Nat} {task : Task} (at_ : s.tasks[k]? = some task)
    (advanced : Advanced node env now k s task s') : Traced past s' := by
  have tended := traced.tended.advance at_ advanced
  have held := traced.tasks task (List.mem_of_getElem? at_)
  have nothing : ∀ e ∈ ([] : List (ClientId × Sent From)), Rightful past e.1 e.2 := by simp
  cases advanced with
  | refused e stepped result => exact traced.resume at_ stepped tended trivial
  | @stored m retainer stepped result =>
      refine traced.resume at_ stepped tended ?_
      unfold afterSet
      split
      · exact held.1
      · exact held
  | @targeted m target named =>
      refine traced.become tended rfl (fun _ _ => id) rfl ⟨held, fun e he => ?_⟩
        (List.append_nil _).symm nothing
      obtain rfl := List.mem_singleton.mp he
      exact .inl named
  | unreadable e target read =>
      exact traced.become tended rfl (fun _ _ => id) rfl trivial (List.append_nil _).symm nothing
  | @yielded m topic target read =>
      refine traced.become tended rfl (fun _ _ => id) rfl ⟨held, topic, read, fun item member => ?_,
        [], rfl, by simp⟩ (List.append_nil _).symm nothing
      obtain ⟨filter, rule, filled, rfl⟩ := (mem_matched_iff_mqttMatches read
        (names m held topic read) s.routes.router.topics item).mp member
      obtain ⟨f, parsed⟩ := traced.filters filter.levels filled
      exact ⟨f, parsed, rule⟩
  | @visited m item items map =>
      obtain ⟨published, topic, read, filters, fs, rfl, subscribed⟩ := held
      have visit := foldl_visitFilter env m.source.id s.routes.router [item] (feedAll [] fs)
      rw [List.flatMap_singleton] at visit
      refine traced.become tended rfl (fun _ _ => id) rfl ⟨published, topic, read,
        fun item' member => filters item' (List.mem_cons_of_mem _ member),
        fs ++ filterFeeds env m.source.id (toTopicFilter item.1) s.routes.router,
        visit.trans (List.foldl_append ..).symm, fun e he => ?_⟩ (List.append_nil _).symm nothing
      rcases List.mem_append.mp he with before | new
      · exact subscribed e before
      · obtain ⟨f, parsed, rule⟩ := filters item List.mem_cons_self
        exact hasSubscribed_of_visited traced parsed rule new
  | @found m map collector found =>
      obtain ⟨published, topic, read, filters, fs, rfl, subscribed⟩ := held
      refine traced.become tended rfl (fun _ _ => id) rfl ⟨published, fun e he => .inr
        ⟨topic, read, ?_⟩⟩ (List.append_nil _).symm nothing
      have all := lookup_feedAll fs node.id
      rw [found, Option.getD_some] at all
      obtain ⟨rel, i⟩ := e
      have relation := List.mem_of_getElem? (List.mem_zipIdx_iff_getElem?.mp he)
      rw [all] at relation
      obtain ⟨x, fed, -, client, -⟩ := mem_toSubRelations relation
      obtain ⟨e', member, rfl⟩ := List.mem_map.mp fed
      dsimp only
      rw [client]
      exact subscribed e' (List.mem_filter.mp member).1
  | unfound none =>
      exact traced.become tended rfl (fun _ _ => id) rfl trivial (List.append_nil _).symm nothing
  | @sent m rel i relations st dest peer =>
      obtain ⟨published, right⟩ := held
      refine traced.become tended rfl (fun _ _ => id) rfl
        ⟨published, fun e he => right e (List.mem_cons_of_mem _ he)⟩ rfl fun e he => ?_
      obtain rfl := List.mem_singleton.mp he
      exact ⟨m, published, rfl, rfl, rfl, .inl (right _ List.mem_cons_self)⟩
  | failed refused =>
      exact traced.become tended rfl (fun _ _ => id) rfl
        ⟨held.1, fun e he => held.2 e (List.mem_cons_of_mem _ he)⟩ (List.append_nil _).symm nothing
  | @forwarded m st =>
      obtain ⟨dropped, nonsubscribed, same⟩ := forwarded_eq k m st s
      rw [same] at tended ⊢
      exact traced.become tended rfl (fun _ _ => id) rfl trivial (List.append_nil _).symm nothing
  | added idle =>
      exact traced.become tended rfl (fun _ _ => id) rfl held (List.append_nil _).symm nothing
  | unloaded why =>
      exact traced.become tended rfl (fun _ _ => id) rfl trivial (List.append_nil _).symm nothing
  | @loaded l retains readings enabled found =>
      rw [Bool.and_eq_true] at enabled
      exact traced.become tended rfl (fun _ _ => id) rfl
        (fun e he => isRetainedFor_of_loaded traced held enabled.2 found he)
        (List.append_nil _).symm nothing
  | @resent l topic retain retains dest peer =>
      refine traced.become tended rfl (fun _ _ => id) rfl
        (fun e he => held e (List.mem_cons_of_mem _ he)) rfl fun e he => ?_
      obtain rfl := List.mem_singleton.mp he
      obtain ⟨m, same, right⟩ := held _ List.mem_cons_self
      obtain ⟨rfl, rfl⟩ := Prod.mk.inj same
      exact ⟨m, right.published, rfl, rfl, rfl, .inr ⟨l, rfl, right⟩⟩
  | lost refused =>
      exact traced.become tended rfl (fun _ _ => id) rfl
        (fun e he => held e (List.mem_cons_of_mem _ he)) (List.append_nil _).symm nothing
  | ended =>
      exact traced.become tended rfl (fun _ _ => id) rfl trivial (List.append_nil _).symm nothing

/-- A step of a client of the router. -/
theorem Traced.routes (traced : Traced past s) {routes : Concurrent.State}
    {action : Concurrent.Action} (h : Concurrent.step s.routes action = some routes)
    (added : ∀ f id opts, action = .call (.add f id opts) → Added past f id opts) :
    Traced past { s with routes } where
  tended := ⟨traced.tended.store, traced.tended.named, traced.tended.requests⟩
  relations f rels found e he := by
    rcases Concurrent.mem_relations_of_step h found he with ⟨rels₀, before, member⟩ | ⟨c, at_, same⟩
    · exact traced.relations f rels₀ before e member
    · exact ⟨traced.inserting c f e.2.1 e.2.2 at_, same.symm⟩
  inserting c f id opts at_ := by
    rcases Concurrent.inserting_of_step h at_ with before | call
    · exact traced.inserting c f id opts before
    · exact added f id opts call
  filters path filled := by
    rcases Concurrent.parsed_of_step h filled with before | parsed
    · exact traced.filters path before
    · exact parsed
  stored := traced.stored
  tasks := traced.tasks
  channel := traced.channel

/-- A step of the store for no task that is in `set`. -/
theorem Traced.keep (traced : Traced past s) (tended : Tended s') (routes : s'.routes = s.routes)
    (stores : ∀ path tv, Stores s' path tv → Stores s path tv)
    (tasks : ∀ task ∈ s'.tasks, task.Traced past) (channel : s'.channel = s.channel) :
    Traced past s' where
  tended := tended
  relations := by
    rw [routes]
    exact traced.relations
  inserting := by
    rw [routes]
    exact traced.inserting
  filters := by
    rw [routes]
    exact traced.filters
  stored path tv h := traced.stored path tv (stores path tv h)
  tasks := tasks
  channel := by
    rw [channel]
    exact traced.channel

theorem Traced.step (traced : Traced past s) {a : Action}
    (names : ∀ m, .publish m ∈ past ++ [a] → m.Named) (h : step node s a = some s') :
    Traced (past ++ [a]) s' := by
  have here : a ∈ past ++ [a] := List.mem_append_right _ (List.mem_singleton.mpr rfl)
  have named : a.Named := by
    cases a with
    | publish m => exact names m here
    | _ => trivial
  have tended := traced.tended.step named h
  replace traced := traced.mono (List.subset_append_left past [a])
  -- a task that begins with what it was called with
  have append : ∀ {task : Task}, task.Traced (past ++ [a]) →
      ∀ task' ∈ s.tasks ++ [task], task'.Traced (past ++ [a]) := by
    intro task held task' member
    rcases List.mem_append.mp member with before | new
    · exact traced.tasks task' before
    · obtain rfl := List.mem_singleton.mp new
      exact held
  cases a with
  | publish m =>
      rw [Delivery.step, publish] at h
      split at h
      · rename_i retained
        rw [Bool.and_eq_true] at retained
        obtain ⟨retainer, stepped, rfl⟩ := Option.map_eq_some_iff.mp h
        refine traced.keep tended rfl
          (fun _ _ => stores_of_step traced.tended stepped (by simp)) (append ?_) rfl
        unfold afterSet
        split
        · exact here
        · exact ⟨here, retained.2⟩
      · cases h
        exact traced.keep tended rfl (fun _ _ => id) (append here) rfl
  | subscribe l =>
      rw [Delivery.step, subscribe] at h
      split at h
      · cases h
        exact traced
      · split at h
        · split at h
          · cases h
            exact traced
          · obtain ⟨routes, called, rfl⟩ := Option.map_eq_some_iff.mp h
            have routed : Traced _ { s with routes } :=
              traced.routes called fun f id opts same => by
                cases same
                exact .inr ⟨l, here, rfl, rfl, rfl⟩
            exact routed.keep tended rfl (fun _ _ => id) (append here) rfl
        · cases h
  | proceed k env now =>
      obtain ⟨task, at_, advanced⟩ := Option.bind_eq_some_iff.mp h
      exact traced.advance names at_ (advance_cases advanced)
  | router action =>
      obtain ⟨routes, called, rfl⟩ := Option.map_eq_some_iff.mp h
      exact traced.routes called fun f id opts same => .inl (same ▸ here)
  | removeExpiredMessages =>
      rw [Delivery.step] at h
      obtain ⟨retainer, stepped, rfl⟩ := Option.map_eq_some_iff.mp h
      exact traced.keep tended rfl
        (fun _ _ => stores_of_step traced.tended stepped (by simp)) traced.tasks rfl
  | peer clientId peer =>
      cases h
      exact traced.keep tended rfl (fun _ _ => id) traced.tasks rfl

end

theorem traced_init : Traced [] ({} : State) where
  tended := tended_init
  relations f rels found := by cases found
  inserting c f id opts at_ := by cases at_
  filters path filled := by
    rw [Node.valuesAt_default] at filled
    exact absurd rfl filled
  stored path tv stored := by
    have absent : RetainNode.valueAt path
        (RetainNode.default : RetainTree (TimedValue (Retain From))) = none :=
      RetainNode.valueAt_default path
    cases absent.symm.trans stored
  tasks task member := by cases member
  channel e member := by cases member

/-- In every run of publishes and subscribes at the same time, over topic names, everything that was
put to the channel of a client was published in the run, with that topic and payload, and was for
the client: the publish named it, or the client had subscribed to a filter that matches the topic
and No Local did not exclude the publisher, or the message was retained and the client had
subscribed, and asked for such messages, with a filter that matches the topic. -/
theorem only_subscribers_receive {node : Node} {actions : List Action} {s : State}
    (names : ∀ a ∈ actions, a.Named) (ran : Machine.run (step node) {} actions = some s)
    {clientId : ClientId} {sent : Sent From} (received : (clientId, sent) ∈ s.channel) :
    Rightful actions clientId sent := by
  have keep : ∀ past s a s', ((∀ m, .publish m ∈ past → m.Named) → Traced past s) →
      step node s a = some s' → (∀ m, .publish m ∈ past ++ [a] → m.Named) →
        Traced (past ++ [a]) s' := by
    intro past s a s' traced h names
    exact (traced fun m before => names m (List.mem_append_left _ before)).step names h
  have traced : Traced actions s := Machine.invariant_trace keep ran (fun _ => traced_init)
    fun m published => names _ published
  exact traced.channel _ received

/-- The message that was published and the one that was retained. -/
theorem only_subscribers_receive_both : ∃ s,
    Machine.run (step oneNode) {} (subscribing ++ publishing) = some s ∧ s.channel.length = 2 ∧
      ∀ e ∈ s.channel, Rightful (subscribing ++ publishing) e.1 e.2 := by
  obtain ⟨s, ran, two⟩ := (Option.any_eq_true _ _).mp
    (by decide +kernel : (Machine.run (step oneNode) {} (subscribing ++ publishing)).any
      (fun s => s.channel.length == 2) = true)
  rw [beq_iff_eq] at two
  exact ⟨s, ran, two, fun e member => only_subscribers_receive (by decide +kernel) ran member⟩

end Delivery

end OxiMqtt

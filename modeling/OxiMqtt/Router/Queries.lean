import OxiMqtt.Lib.Listing
import OxiMqtt.Router.Matches

/-!
# Queries of the router

What the management calls of `DefaultRouter` answer: the subscriptions that a search asks for, and
the routes of a topic.  A search may name a filter, or a topic that the filters have to match; the
topic may hold wildcards, which are then read as plain levels.

* `mem_matched_iff_admits`: what the tree yields for a topic with wildcards.
* `query_subscriptions_answer`: a search finds the subscriptions it asks for, up to its limit.
* `routes_answer`: the routes of a topic are those of the subscriptions that match it, and the
  nodes that a publish goes to are among them.
-/

namespace OxiMqtt.Router

open Collections Listing

/-! ## The calls -/

/-- `SubsSearchParams` -/
structure SubsSearchParams : Type where
  limit : Nat := 0
  clientid : Option String := none
  topic : Option String := none
  qos : Option UInt8 := none
  share : Option SharedGroup := none
  matchTopic : Option String := none
  deriving DecidableEq, Repr

/-- `SubsSearchResult` -/
structure SubsSearchResult : Type where
  nodeId : NodeId
  clientid : ClientId
  clientAddr : Option SocketAddr
  topic : TopicFilter
  opts : SubscriptionOptions
  deriving DecidableEq, Repr

/-- `Route` -/
structure Route : Type where
  nodeId : NodeId
  topic : TopicFilter
  deriving DecidableEq, Repr

/-- An item of `list_relations`. -/
structure RelationItem : Type where
  topicFilter : TopicFilter
  clientId : ClientId
  nodeId : NodeId
  opts : SubscriptionOptions
  deriving DecidableEq, Repr

/-- The orders in which the relation map and its entries are walked. -/
structure Walks : Type where
  filters : Walk (TopicFilter × Assoc ClientId Relation)
  rels : TopicFilter → Walk (ClientId × Relation)

namespace DefaultRouter

/-- `DefaultRouter::_query_subscriptions_filter` -/
def querySubscriptionsFilter (q : SubsSearchParams) (clientId : ClientId)
    (opts : SubscriptionOptions) : Bool :=
  if q.clientid.any fun qClientid => qClientid != clientId then false
  else if q.qos.any fun qQos => qQos != opts.qos.value then false
  else
    match q.share, opts.sharedGroup with
    | some qGroup, some group => qGroup == group
    | some _, none => false
    | none, _ => true

/-- The entries of a filter that pass, as results; `topic_filter` is the filter they show. -/
def searchEntries (w : Walks) (q : SubsSearchParams) (topicFilter : TopicFilter)
    (rels : Assoc ClientId Relation) : List SubsSearchResult :=
  (((w.rels topicFilter).visit rels).filter fun e =>
      querySubscriptionsFilter q e.1 e.2.2).map fun e =>
    ⟨e.2.1.nodeId, e.1, e.2.1.remoteAddr, topicFilter, e.2.2⟩

/-- What `self.relations.get(..)` finds at a filter is listed by `group`; else there is nothing. -/
def ofEntry {α : Type} (r : DefaultRouter) (group : TopicFilter → Assoc ClientId Relation → List α)
    (topicFilter : TopicFilter) : List α :=
  match r.relations.lookup topicFilter with
  | some rels => group topicFilter rels
  | none => []

/-- `DefaultRouter::_query_subscriptions_for_topic` -/
def querySubscriptionsForTopic (w : Walks) (q : SubsSearchParams) (topic : TopicFilter)
    (r : DefaultRouter) : List SubsSearchResult :=
  r.ofEntry (fun f rels => (upTo q.limit 0 (searchEntries w q f rels)).1) topic

/-- `DefaultRouter::_query_subscriptions_for_matches`.  The loops here and below run over `matched`,
which is what the tree's iterator yields (`MatchedIter.exhausts_new`). -/
def querySubscriptionsForMatches (w : Walks) (q : SubsSearchParams) (matchTopic : String)
    (r : DefaultRouter) : List SubsSearchResult :=
  match Topic.fromStr matchTopic with
  | .error _ => []
  | .ok topic =>
      flatUpTo q.limit (fun item : Item Unit =>
        r.ofEntry (searchEntries w q) (toTopicFilter item.1)) 0
        (unique (matched topic.levels r.topics []))

/-- `DefaultRouter::_query_subscriptions_for_other` -/
def querySubscriptionsForOther (w : Walks) (q : SubsSearchParams) (r : DefaultRouter) :
    List SubsSearchResult :=
  flatUpTo q.limit (fun e => searchEntries w q e.1 e.2) 0 (w.filters.visit r.relations)

/-- `DefaultRouter::_query_subscriptions` -/
def querySubscriptions (w : Walks) (q : SubsSearchParams) (r : DefaultRouter) :
    List SubsSearchResult :=
  match q.topic with
  | some topic => querySubscriptionsForTopic w q topic r
  | none =>
      match q.matchTopic with
      | some matchTopic => querySubscriptionsForMatches w q matchTopic r
      | none => querySubscriptionsForOther w q r

/-- `DefaultRouter::_has_matches` -/
def hasMatches (r : DefaultRouter) (topic : String) : Except TopicError Bool := do
  let topic ← Topic.fromStr topic
  return r.topics.isMatch topic

/-- `DefaultRouter::_get_routes`, on the node `nodeId`. -/
def getRoutes (nodeId : NodeId) (r : DefaultRouter) (topic : String) :
    Except TopicError (List Route) := do
  let topic ← Topic.fromStr topic
  return (unique (matched topic.levels r.topics [])).map fun item => ⟨nodeId, toTopicFilter item.1⟩

/-- The routes of a filter: the nodes of its relations, each once. -/
def routesOf (w : Walks) (topicFilter : TopicFilter) (rels : Assoc ClientId Relation) :
    List Route :=
  (unique (((w.rels topicFilter).visit rels).map fun e => e.2.1.nodeId)).map fun nodeId =>
    ⟨nodeId, topicFilter⟩

/-- `Router::get` -/
def get (w : Walks) (r : DefaultRouter) (topic : String) : Except TopicError (List Route) := do
  let topic ← Topic.fromStr topic
  return (unique (matched topic.levels r.topics [])).flatMap fun item =>
    r.ofEntry (routesOf w) (toTopicFilter item.1)

/-- `Router::gets` -/
def gets (w : Walks) (r : DefaultRouter) (limit : Nat) : List Route :=
  flatUpTo limit (fun e => routesOf w e.1 e.2) 0 (w.filters.visit r.relations)

/-- The loops of `Router::list_relations`, with what is pushed and its count. -/
def listLoop (top : Nat) : List RelationItem → List RelationItem → Nat → List RelationItem
  | [], rels, _ => rels
  | item :: rest, rels, count =>
      if count + 1 ≥ top then rels ++ [item] else listLoop top rest (rels ++ [item]) (count + 1)

/-- `Router::list_relations` -/
def listRelations (w : Walks) (r : DefaultRouter) (top : Nat) : List RelationItem :=
  listLoop top ((w.filters.visit r.relations).flatMap fun e =>
    ((w.rels e.1).visit e.2).map fun rel => ⟨e.1, rel.1, rel.2.1.nodeId, rel.2.2⟩) [] 0

end DefaultRouter

/-! ## What is asked for -/

/-- The filter matches the topic, whose wildcards are read as plain levels. -/
def Admitted (f : TopicFilter) (topic : Topic) : Prop :=
  ∃ filter, Topic.fromStr f = .ok filter ∧ Admits filter.levels topic.levels

/-- The subscription is one that the search asks for. -/
structure Wanted (q : SubsSearchParams) (c : ClientId) (opts : SubscriptionOptions) : Prop where
  clientid : ∀ qClientid, q.clientid = some qClientid → c = qClientid
  qos : ∀ qQos, q.qos = some qQos → opts.qos.value = qQos
  share : ∀ qGroup, q.share = some qGroup → opts.sharedGroup = some qGroup

/-- The filter is one that the search asks for; a filter that is named goes before a topic. -/
def Named (q : SubsSearchParams) (f : TopicFilter) : Prop :=
  match q.topic with
  | some topic => f = topic
  | none =>
      ∀ matchTopic, q.matchTopic = some matchTopic →
        ∃ topic, Topic.fromStr matchTopic = .ok topic ∧ Admitted f topic

/-- The result is a subscription that is held and asked for. -/
def Asked (held : Holdings) (q : SubsSearchParams) (res : SubsSearchResult) : Prop :=
  Named q res.topic ∧ Wanted q res.clientid res.opts ∧
    ∃ id, held res.topic res.clientid = some (id, res.opts) ∧ res.nodeId = id.nodeId ∧
      res.clientAddr = id.remoteAddr

/-! ## What is found -/

theorem passes_iff {q : SubsSearchParams} {c : ClientId} {opts : SubscriptionOptions} :
    DefaultRouter.querySubscriptionsFilter q c opts = true ↔ Wanted q c opts := by
  obtain ⟨limit, clientid, topic, qos, share, matchTopic⟩ := q
  have parts : Wanted ⟨limit, clientid, topic, qos, share, matchTopic⟩ c opts ↔
      (∀ x, clientid = some x → c = x) ∧ (∀ x, qos = some x → opts.qos.value = x) ∧
        ∀ x, share = some x → opts.sharedGroup = some x :=
    ⟨fun h => ⟨h.clientid, h.qos, h.share⟩, fun h => ⟨h.1, h.2.1, h.2.2⟩⟩
  rw [parts, DefaultRouter.querySubscriptionsFilter]
  split
  · rename_i other
    cases clientid with
    | none => cases other
    | some x =>
        have ne : x ≠ c := by simpa using other
        exact ⟨nofun, fun h => (ne (h.1 x rfl).symm).elim⟩
  · rename_i same
    have clientidSame : ∀ x, clientid = some x → c = x := by
      intro x named
      rw [named, Option.any_some, bne_iff_ne, not_not] at same
      exact same.symm
    split
    · rename_i other
      cases qos with
      | none => cases other
      | some x =>
          have ne : x ≠ opts.qos.value := by simpa using other
          exact ⟨nofun, fun h => (ne (h.2.1 x rfl).symm).elim⟩
    · rename_i level
      have qosSame : ∀ x, qos = some x → opts.qos.value = x := by
        intro x named
        rw [named, Option.any_some, bne_iff_ne, not_not] at level
        exact level.symm
      cases share with
      | none => exact ⟨fun _ => ⟨clientidSame, qosSame, nofun⟩, fun _ => rfl⟩
      | some x =>
          cases group : opts.sharedGroup with
          | none => exact ⟨nofun, fun h => nomatch h.2.2 x rfl⟩
          | some g =>
              dsimp only
              rw [beq_iff_eq]
              constructor
              · rintro rfl
                exact ⟨clientidSame, qosSame, fun _ eq => eq⟩
              · intro h
                exact (Option.some.inj (h.2.2 x rfl)).symm

section

variable {r : DefaultRouter} {w : Walks} {f : TopicFilter} {rels : Assoc ClientId Relation}

/-- The entries of a filter are the subscriptions that are held there. -/
theorem mem_visit_rels (consistent : r.Consistent) (found : r.relations.lookup f = some rels)
    {c : ClientId} {rel : Relation} :
    (c, rel) ∈ (w.rels f).visit rels ↔ r.held f c = some rel := by
  rw [Walk.mem_visit, DefaultRouter.held, found, Option.bind_some,
    (consistent.clients f rels found).mem_iff_lookup]

theorem mem_searchEntries (consistent : r.Consistent) (found : r.relations.lookup f = some rels)
    {q : SubsSearchParams} {res : SubsSearchResult} :
    res ∈ DefaultRouter.searchEntries w q f rels ↔
      res.topic = f ∧ Wanted q res.clientid res.opts ∧
        ∃ id, r.held f res.clientid = some (id, res.opts) ∧ res.nodeId = id.nodeId ∧
          res.clientAddr = id.remoteAddr := by
  rw [DefaultRouter.searchEntries, List.mem_map]
  constructor
  · rintro ⟨⟨c, id, opts⟩, member, rfl⟩
    obtain ⟨here, passes⟩ := List.mem_filter.mp member
    exact ⟨rfl, passes_iff.mp passes, id, (mem_visit_rels consistent found).mp here, rfl, rfl⟩
  · rintro ⟨rfl, wanted, id, held, node, addr⟩
    refine ⟨(res.clientid, id, res.opts), List.mem_filter.mpr
      ⟨(mem_visit_rels consistent found).mpr held, passes_iff.mpr wanted⟩, ?_⟩
    rw [← node, ← addr]

theorem nodup_searchEntries (consistent : r.Consistent) (found : r.relations.lookup f = some rels)
    (q : SubsSearchParams) : (DefaultRouter.searchEntries w q f rels).Nodup := by
  refine List.Nodup.of_map SubsSearchResult.clientid ?_
  rw [DefaultRouter.searchEntries, List.map_map]
  have keys := (consistent.clients f rels found).perm ((w.rels f).perm rels)
  exact List.Nodup.sublist (List.filter_sublist.map _) keys

/-- The filters that the walk of the relation map visits. -/
theorem mem_visit_filters (consistent : r.Consistent) :
    (f, rels) ∈ w.filters.visit r.relations ↔ r.relations.lookup f = some rels := by
  rw [Walk.mem_visit, consistent.keys.mem_iff_lookup]

end

/-! ## What the tree yields for a topic -/

/-- The items of a topic that may hold wildcards. -/
theorem mem_matched_iff_admits {V : Type} [LinearOrder V] {s : String} {t : Topic}
    (parsed : Topic.fromStr s = .ok t) (n : Node V) (item : Item V) :
    item ∈ matched t.levels n [] ↔ ∃ filter : Topic, Admits filter.levels t.levels ∧
      n.valuesAt filter.levels ≠ ∅ ∧ item = (filter.levels, (n.valuesAt filter.levels).toList) := by
  have valid := Topic.valid_of_fromStr parsed
  rw [mem_matched]
  constructor
  · rintro ⟨q, accepts, shown, values, same⟩
    rw [secluded_root_iff valid.levels_valid] at shown
    exact ⟨⟨q⟩, ⟨accepts, shown⟩, values, same⟩
  · rintro ⟨filter, admits, values, same⟩
    refine ⟨filter.levels, admits.1, ?_, values, same⟩
    rw [secluded_root_iff valid.levels_valid]
    exact admits.2

/-- The filters that the tree yields for a topic. -/
def matchedFilters (r : DefaultRouter) (topic : Topic) : List TopicFilter :=
  (unique (matched topic.levels r.topics [])).map fun item => toTopicFilter item.1

section

variable {r : DefaultRouter} {topicName : String} {topic : Topic}

theorem exists_filter_of_item (consistent : r.Consistent)
    (parsed : Topic.fromStr topicName = .ok topic) {item : Item Unit}
    (member : item ∈ unique (matched topic.levels r.topics [])) :
    ∃ f filter rels, Topic.fromStr f = .ok filter ∧ Admits filter.levels topic.levels ∧
      r.relations.lookup f = some rels ∧ toTopicFilter item.1 = f ∧
      item = (filter.levels, (r.topics.valuesAt filter.levels).toList) := by
  obtain ⟨filter, admits, values, rfl⟩ :=
    (mem_matched_iff_admits parsed _ _).mp (mem_unique.mp member)
  obtain ⟨⟨⟩, stored⟩ := OrdSet.ne_empty_iff.mp values
  obtain ⟨f, rels, valid, found⟩ := (consistent.stored filter).mp stored
  exact ⟨f, filter, rels, valid, admits, found, Topic.toString_of_fromStr valid, rfl⟩

theorem mem_matchedFilters (consistent : r.Consistent)
    (parsed : Topic.fromStr topicName = .ok topic) {f : TopicFilter} :
    f ∈ matchedFilters r topic ↔ Admitted f topic ∧ ∃ rels, r.relations.lookup f = some rels := by
  rw [matchedFilters, List.mem_map]
  constructor
  · rintro ⟨item, member, rfl⟩
    obtain ⟨f, filter, rels, valid, admits, found, same, -⟩ :=
      exists_filter_of_item consistent parsed member
    rw [same]
    exact ⟨⟨filter, valid, admits⟩, rels, found⟩
  · rintro ⟨⟨filter, valid, admits⟩, rels, found⟩
    have stored := (consistent.stored filter).mpr ⟨f, rels, valid, found⟩
    refine ⟨_, mem_unique.mpr ((mem_matched_iff_admits parsed _ _).mpr
      ⟨filter, admits, OrdSet.ne_empty_iff.mpr ⟨(), stored⟩, rfl⟩), ?_⟩
    exact Topic.toString_of_fromStr valid

theorem nodup_matchedFilters (consistent : r.Consistent)
    (parsed : Topic.fromStr topicName = .ok topic) : (matchedFilters r topic).Nodup := by
  refine List.Nodup.map_on ?_ (nodup_unique _)
  intro item member item' member' same
  obtain ⟨f, filter, rels, valid, -, -, text, rfl⟩ :=
    exists_filter_of_item consistent parsed member
  obtain ⟨f', filter', rels', valid', -, -, text', rfl⟩ :=
    exists_filter_of_item consistent parsed member'
  obtain rfl : f = f' := text.symm.trans (same.trans text')
  rw [valid] at valid'
  cases valid'
  rfl

end

/-! ## What is listed by filter -/

section

variable {r : DefaultRouter} {w : Walks} {α : Type} {a : α}
  {group : TopicFilter → Assoc ClientId Relation → List α}

theorem mem_ofEntry {f : TopicFilter} :
    a ∈ r.ofEntry group f ↔ ∃ rels, r.relations.lookup f = some rels ∧ a ∈ group f rels := by
  rw [DefaultRouter.ofEntry]
  cases found : r.relations.lookup f with
  | none => exact ⟨nofun, fun ⟨_, other, _⟩ => nomatch other⟩
  | some rels =>
      constructor
      · intro member
        exact ⟨rels, rfl, member⟩
      · rintro ⟨rels', same, member⟩
        cases same
        exact member

theorem nodup_ofEntry (each : ∀ f rels, r.relations.lookup f = some rels → (group f rels).Nodup)
    (f : TopicFilter) : (r.ofEntry group f).Nodup := by
  rw [DefaultRouter.ofEntry]
  cases found : r.relations.lookup f with
  | none => exact List.nodup_nil
  | some rels => exact each f rels found

/-- The filters that match a topic, in turn. -/
theorem mem_flatMap_matched (consistent : r.Consistent) {topicName : String} {topic : Topic}
    (parsed : Topic.fromStr topicName = .ok topic) :
    a ∈ ((unique (matched topic.levels r.topics [])).flatMap fun item =>
        r.ofEntry group (toTopicFilter item.1)) ↔
      ∃ f rels, Admitted f topic ∧ r.relations.lookup f = some rels ∧ a ∈ group f rels := by
  rw [← List.flatMap_map (f := fun item : Item Unit => toTopicFilter item.1)]
  change a ∈ (matchedFilters r topic).flatMap (r.ofEntry group) ↔ _
  rw [List.mem_flatMap]
  constructor
  · rintro ⟨f, member, here⟩
    obtain ⟨rels, found, listed⟩ := mem_ofEntry.mp here
    exact ⟨f, rels, ((mem_matchedFilters consistent parsed).mp member).1, found, listed⟩
  · rintro ⟨f, rels, admitted, found, listed⟩
    exact ⟨f, (mem_matchedFilters consistent parsed).mpr ⟨admitted, rels, found⟩,
      mem_ofEntry.mpr ⟨rels, found, listed⟩⟩

theorem nodup_flatMap_matched (consistent : r.Consistent) {topicName : String} {topic : Topic}
    (parsed : Topic.fromStr topicName = .ok topic) {key : α → TopicFilter}
    (each : ∀ f rels, r.relations.lookup f = some rels → (group f rels).Nodup)
    (keys : ∀ f rels, ∀ a ∈ group f rels, key a = f) :
    ((unique (matched topic.levels r.topics [])).flatMap fun item =>
      r.ofEntry group (toTopicFilter item.1)).Nodup := by
  refine nodup_flatMap_of_key (fun item : Item Unit => toTopicFilter item.1) key
    (nodup_matchedFilters consistent parsed) (fun item _ => nodup_ofEntry each _) ?_
  intro item _ a member
  obtain ⟨rels, -, listed⟩ := mem_ofEntry.mp member
  exact keys _ _ a listed

/-- All filters, in turn. -/
theorem mem_flatMap_filters (consistent : r.Consistent) :
    a ∈ ((w.filters.visit r.relations).flatMap fun e => group e.1 e.2) ↔
      ∃ f rels, r.relations.lookup f = some rels ∧ a ∈ group f rels := by
  rw [List.mem_flatMap]
  constructor
  · rintro ⟨⟨f, rels⟩, member, here⟩
    exact ⟨f, rels, (mem_visit_filters consistent).mp member, here⟩
  · rintro ⟨f, rels, found, here⟩
    exact ⟨(f, rels), (mem_visit_filters consistent).mpr found, here⟩

theorem nodup_flatMap_filters (consistent : r.Consistent) {key : α → TopicFilter}
    (each : ∀ f rels, r.relations.lookup f = some rels → (group f rels).Nodup)
    (keys : ∀ f rels, ∀ a ∈ group f rels, key a = f) :
    ((w.filters.visit r.relations).flatMap fun e => group e.1 e.2).Nodup := by
  refine nodup_flatMap_of_key Prod.fst key
    (consistent.keys.perm (w.filters.perm r.relations)) ?_ (fun e _ => keys e.1 e.2)
  intro e member
  exact each e.1 e.2 ((mem_visit_filters consistent).mp member)

end

/-! ## Searches -/

section

variable {r : DefaultRouter} {w : Walks} {q : SubsSearchParams}

theorem topic_searchEntries (w : Walks) (q : SubsSearchParams) (f : TopicFilter)
    (rels : Assoc ClientId Relation) :
    ∀ res ∈ DefaultRouter.searchEntries w q f rels, res.topic = f := by
  intro res member
  obtain ⟨e, -, rfl⟩ := List.mem_map.mp member
  rfl

/-- The results of some filters are what is asked for, where the search names these filters. -/
theorem asked_iff (consistent : r.Consistent) {P : TopicFilter → Prop}
    (named : ∀ f, Named q f ↔ P f) {res : SubsSearchResult} :
    (∃ f rels, P f ∧ r.relations.lookup f = some rels ∧
        res ∈ DefaultRouter.searchEntries w q f rels) ↔ Asked r.held q res := by
  constructor
  · rintro ⟨f, rels, here, found, member⟩
    obtain ⟨rfl, wanted, held⟩ := (mem_searchEntries consistent found).mp member
    exact ⟨(named _).mpr here, wanted, held⟩
  · rintro ⟨here, wanted, id, held, node, addr⟩
    obtain ⟨rels, found, -⟩ := Option.bind_eq_some_iff.mp held
    exact ⟨res.topic, rels, (named _).mp here, found,
      (mem_searchEntries consistent found).mpr ⟨rfl, wanted, id, held, node, addr⟩⟩

theorem querySubscriptions_upTo (consistent : r.Consistent) :
    UpTo q.limit (Asked r.held q) (DefaultRouter.querySubscriptions w q r) := by
  have each : ∀ f rels, r.relations.lookup f = some rels →
      (DefaultRouter.searchEntries w q f rels).Nodup :=
    fun f rels found => nodup_searchEntries consistent found q
  rw [DefaultRouter.querySubscriptions]
  split
  · rename_i topic isTopic
    have named : ∀ f, Named q f ↔ f = topic := by
      intro f
      rw [Named, isTopic]
    have cut : DefaultRouter.querySubscriptionsForTopic w q topic r =
        (r.ofEntry (DefaultRouter.searchEntries w q) topic).take q.limit := by
      rw [DefaultRouter.querySubscriptionsForTopic, DefaultRouter.ofEntry, DefaultRouter.ofEntry]
      cases r.relations.lookup topic with
      | none => exact List.take_nil.symm
      | some rels =>
          dsimp only
          rw [upTo_eq, Nat.sub_zero]
    rw [cut]
    refine UpTo.take (nodup_ofEntry each topic) ?_ q.limit
    intro res
    rw [mem_ofEntry, ← asked_iff (w := w) consistent named]
    simp only [exists_and_left, exists_eq_left]
  · rename_i noTopic
    split
    · rename_i matchTopic isMatch
      rw [DefaultRouter.querySubscriptionsForMatches]
      cases parsed : Topic.fromStr matchTopic with
      | error e =>
          refine UpTo.nil ?_ q.limit
          rintro res ⟨named, -⟩
          rw [Named, noTopic] at named
          obtain ⟨topic, ok, -⟩ := named matchTopic isMatch
          rw [parsed] at ok
          cases ok
      | ok topic =>
          have named : ∀ f, Named q f ↔ Admitted f topic := by
            intro f
            rw [Named, noTopic]
            constructor
            · intro all
              obtain ⟨topic', ok, admitted⟩ := all matchTopic isMatch
              rw [parsed] at ok
              cases ok
              exact admitted
            · intro admitted matchTopic' same
              rw [isMatch] at same
              cases same
              exact ⟨topic, parsed, admitted⟩
          dsimp only
          rw [flatUpTo_eq, Nat.sub_zero]
          have nodup : ((unique (matched topic.levels r.topics [])).flatMap fun item =>
              r.ofEntry (DefaultRouter.searchEntries w q) (toTopicFilter item.1)).Nodup :=
            nodup_flatMap_matched consistent parsed each (topic_searchEntries w q)
          refine UpTo.take nodup ?_ q.limit
          intro res
          rw [mem_flatMap_matched consistent parsed, asked_iff consistent named]
    · rename_i noMatch
      have named : ∀ f, Named q f ↔ True := by
        intro f
        rw [Named, noTopic]
        refine iff_true_intro ?_
        intro matchTopic same
        rw [noMatch] at same
        cases same
      rw [DefaultRouter.querySubscriptionsForOther, flatUpTo_eq, Nat.sub_zero]
      have nodup : ((w.filters.visit r.relations).flatMap fun e =>
          DefaultRouter.searchEntries w q e.1 e.2).Nodup :=
        nodup_flatMap_filters consistent each (topic_searchEntries w q)
      refine UpTo.take nodup ?_ q.limit
      intro res
      rw [mem_flatMap_filters consistent, ← asked_iff (w := w) consistent named]
      simp only [true_and]

/-- What the loops of `list_relations` push is the front of what they visit, one item at least. -/
theorem listLoop_eq (top : Nat) (items rels : List RelationItem) (count : Nat) :
    DefaultRouter.listLoop top items rels count = rels ++ items.take (max 1 (top - count)) := by
  induction items generalizing rels count with
  | nil => rw [DefaultRouter.listLoop, List.take_nil, List.append_nil]
  | cons item rest ih =>
      unfold DefaultRouter.listLoop
      split
      · rename_i last
        have one : max 1 (top - count) = 1 := by omega
        rw [one, List.take_succ_cons, List.take_zero]
      · rename_i more
        have next : max 1 (top - count) = max 1 (top - (count + 1)) + 1 := by omega
        rw [ih, next, List.take_succ_cons, List.append_assoc, List.singleton_append]

/-- The item is a subscription that is held. -/
def Shown (held : Holdings) (item : RelationItem) : Prop :=
  ∃ id, held item.topicFilter item.clientId = some (id, item.opts) ∧ item.nodeId = id.nodeId

theorem listRelations_upTo (consistent : r.Consistent) (top : Nat) :
    UpTo (max 1 top) (Shown r.held) (r.listRelations w top) := by
  rw [DefaultRouter.listRelations, listLoop_eq, List.nil_append, Nat.sub_zero]
  refine UpTo.take ?_ ?_ (max 1 top)
  · refine nodup_flatMap_of_key Prod.fst RelationItem.topicFilter
      (consistent.keys.perm (w.filters.perm r.relations)) ?_ ?_
    · rintro ⟨f, rels⟩ member
      have found := (mem_visit_filters consistent).mp member
      refine List.Nodup.of_map RelationItem.clientId ?_
      rw [List.map_map]
      exact (consistent.clients f rels found).perm ((w.rels f).perm rels)
    · intro e _ item shown
      obtain ⟨rel, -, rfl⟩ := List.mem_map.mp shown
      rfl
  · intro item
    rw [List.mem_flatMap]
    constructor
    · rintro ⟨⟨f, rels⟩, member, shown⟩
      obtain ⟨⟨c, id, opts⟩, here, rfl⟩ := List.mem_map.mp shown
      have found := (mem_visit_filters consistent).mp member
      exact ⟨id, (mem_visit_rels consistent found).mp here, rfl⟩
    · rintro ⟨id, held, node⟩
      obtain ⟨rels, found, -⟩ := Option.bind_eq_some_iff.mp held
      refine ⟨(item.topicFilter, rels), (mem_visit_filters consistent).mpr found,
        List.mem_map.mpr ⟨(item.clientId, id, item.opts),
          (mem_visit_rels consistent found).mpr held, ?_⟩⟩
      rw [← node]

end

/-- After any calls of `add` and `remove`, and however the maps are walked, a search finds the
subscriptions that are held and that it asks for, each once, and all of them below its limit; and
`list_relations` lists the subscriptions that are held, and one of them also for a limit of 0. -/
theorem query_subscriptions_answer (calls : List Call) (w : Walks) (q : SubsSearchParams)
    (top : Nat) :
    UpTo q.limit (Asked (heldBy calls) q) (DefaultRouter.querySubscriptions w q (routerOf calls)) ∧
      UpTo (max 1 top) (Shown (heldBy calls)) ((routerOf calls).listRelations w top) := by
  have consistent := consistent_routerOf calls
  rw [← held_routerOf]
  exact ⟨querySubscriptions_upTo consistent, listRelations_upTo consistent top⟩

/-! ## Routes -/

/-- A subscription of a client of the node is held at the filter. -/
def Leads (held : Holdings) (route : Route) : Prop :=
  ∃ c id opts, held route.topic c = some (id, opts) ∧ id.nodeId = route.nodeId

theorem admitted_iff_matching {topic : Topic} (free : topic.WildcardFree) {f : TopicFilter} :
    Admitted f topic ↔ Matching f topic := by
  refine exists_congr fun filter => and_congr_right fun _ => ?_
  rw [Admits, MqttMatches, accepts_iff_matches free]

section

variable {r : DefaultRouter} {w : Walks} {topicName : String} {topic : Topic}

theorem mem_routesOf (consistent : r.Consistent) {f : TopicFilter} {rels : Assoc ClientId Relation}
    (found : r.relations.lookup f = some rels) {route : Route} :
    route ∈ DefaultRouter.routesOf w f rels ↔ route.topic = f ∧ Leads r.held route := by
  rw [DefaultRouter.routesOf, List.mem_map]
  constructor
  · rintro ⟨n, member, rfl⟩
    obtain ⟨⟨c, id, opts⟩, here, rfl⟩ := List.mem_map.mp (mem_unique.mp member)
    exact ⟨rfl, c, id, opts, (mem_visit_rels consistent found).mp here, rfl⟩
  · rintro ⟨rfl, c, id, opts, held, node⟩
    refine ⟨route.nodeId, mem_unique.mpr (List.mem_map.mpr ⟨(c, id, opts), ?_, node⟩), rfl⟩
    exact (mem_visit_rels consistent found).mpr held

theorem nodup_routesOf (w : Walks) (f : TopicFilter) (rels : Assoc ClientId Relation) :
    (DefaultRouter.routesOf w f rels).Nodup := by
  refine (nodup_unique _).map ?_
  intro n n' same
  exact (Route.mk.inj same).1

theorem topic_routesOf (w : Walks) (f : TopicFilter) (rels : Assoc ClientId Relation) :
    ∀ route ∈ DefaultRouter.routesOf w f rels, route.topic = f := by
  intro route member
  obtain ⟨n, -, rfl⟩ := List.mem_map.mp member
  rfl

/-- The routes of some filters are those that lead somewhere. -/
theorem leads_iff (consistent : r.Consistent) {P : TopicFilter → Prop} {route : Route} :
    (∃ f rels, P f ∧ r.relations.lookup f = some rels ∧
        route ∈ DefaultRouter.routesOf w f rels) ↔ P route.topic ∧ Leads r.held route := by
  constructor
  · rintro ⟨f, rels, here, found, member⟩
    obtain ⟨rfl, leads⟩ := (mem_routesOf consistent found).mp member
    exact ⟨here, leads⟩
  · rintro ⟨here, c, id, opts, held, node⟩
    obtain ⟨rels, found, -⟩ := Option.bind_eq_some_iff.mp held
    exact ⟨route.topic, rels, here, found,
      (mem_routesOf consistent found).mpr ⟨rfl, c, id, opts, held, node⟩⟩

theorem gets_upTo (consistent : r.Consistent) (limit : Nat) :
    UpTo limit (Leads r.held) (r.gets w limit) := by
  rw [DefaultRouter.gets, flatUpTo_eq, Nat.sub_zero]
  have nodup : ((w.filters.visit r.relations).flatMap fun e =>
      DefaultRouter.routesOf w e.1 e.2).Nodup :=
    nodup_flatMap_filters consistent (fun f rels _ => nodup_routesOf w f rels) (topic_routesOf w)
  refine UpTo.take nodup ?_ limit
  intro route
  have all := @leads_iff r w consistent (fun _ => True) route
  simp only [true_and] at all
  rw [mem_flatMap_filters consistent, all]

/-- The filters of the routes of a topic. -/
theorem leads_of_entry (consistent : r.Consistent) {f : TopicFilter}
    {rels : Assoc ClientId Relation} (found : r.relations.lookup f = some rels) :
    ∃ n, Leads r.held ⟨n, f⟩ := by
  obtain ⟨⟨c, id, opts⟩, member⟩ := List.exists_mem_of_ne_nil _ (consistent.nonempty f rels found)
  have held : r.held f c = some (id, opts) := by
    rw [DefaultRouter.held, found, Option.bind_some]
    exact (consistent.clients f rels found).mem_iff_lookup.mp member
  exact ⟨id.nodeId, c, id, opts, held, rfl⟩

/-- A publish goes to nodes that the routes name; it goes to the node of every subscription that is
not shared, and to a node of some member of every group. -/
structure Follows (env : MatchEnv) (held : Holdings) (thisId : Id) (topic : Topic)
    (rels : SubRelationsMap) : Prop where
  named : ∀ n, SubRelationsMap.at rels n ≠ [] → ∃ f, Admitted f topic ∧ Leads held ⟨n, f⟩
  reached : ∀ f c id opts, held f c = some (id, opts) → Admitted f topic →
    excluded thisId (id, opts) = false →
      ∃ n, SubRelationsMap.at rels n ≠ [] ∧ Leads held ⟨n, f⟩ ∧
        (opts.sharedGroup = none → n = id.nodeId)

theorem Routes.at_ne_nil {env : MatchEnv} {held : Holdings} {thisId : Id}
    {chosen : TopicFilter → SharedGroup → Option ClientId} {rels : SubRelationsMap}
    (routes : Routes env held thisId topic chosen rels) {f : TopicFilter} {c : ClientId} {id : Id}
    {opts : SubscriptionOptions} (selected : Selected held thisId topic chosen f c id opts) :
    SubRelationsMap.at rels id.nodeId ≠ [] := by
  intro empty
  cases isV3 : opts.isV3 with
  | true =>
      obtain ⟨group, single⟩ := routes.v3 f c id opts selected isV3
      rw [empty, List.filter_nil] at single
      cases single
  | false =>
      obtain ⟨rel, single⟩ := routes.v5 f c id opts selected isV3
      rw [empty] at single
      cases single

theorem Routes.follows {env : MatchEnv} {held : Holdings} {thisId : Id} (free : topic.WildcardFree)
    {chosen : TopicFilter → SharedGroup → Option ClientId} {rels : SubRelationsMap}
    (chooses : Chooses env held thisId topic chosen)
    (routes : Routes env held thisId topic chosen rels) :
    Follows env held thisId topic rels where
  named n filled := by
    obtain ⟨rel, member⟩ := List.exists_mem_of_ne_nil _ filled
    obtain ⟨id, node, ⟨entitled, -⟩, -⟩ := routes.only n rel member
    exact ⟨rel.topicFilter, (admitted_iff_matching free).mpr entitled.matching, rel.clientId, id,
      rel.opts, entitled.eligible.1, node⟩
  reached f c id opts isHeld admitted kept := by
    have matching := (admitted_iff_matching free).mp admitted
    have entitled : Entitled held thisId topic f c id opts := ⟨⟨isHeld, kept⟩, matching⟩
    cases shared : opts.sharedGroup with
    | none =>
        have selected : Selected held thisId topic chosen f c id opts :=
          ⟨entitled, fun g other => by rw [shared] at other; cases other⟩
        exact ⟨id.nodeId, routes.at_ne_nil selected, ⟨c, id, opts, isHeld, rfl⟩, fun _ => rfl⟩
    | some g =>
        obtain ⟨c', picked⟩ := chooses.total f g c id opts entitled shared
        obtain ⟨id', opts', entitled', shared', -⟩ := chooses.member f g c' matching picked
        have selected : Selected held thisId topic chosen f c' id' opts' := by
          refine ⟨entitled', fun g' same => ?_⟩
          rw [shared'] at same
          cases same
          exact picked
        exact ⟨id'.nodeId, routes.at_ne_nil selected, ⟨c', id', opts', entitled'.eligible.1, rfl⟩,
          nofun⟩

end

/-- After any calls of `add` and `remove`, the routes of a topic, which may hold wildcards, are the
filters that match it with the nodes of the clients that subscribed to them, each once; there are
some exactly if the tree has a match; the routes that a node gives out as its own are those of the
same filters; the routes of all topics are listed up to the limit; and a publish of a topic name
follows the routes. -/
theorem routes_answer (calls : List Call) (w : Walks) (nodeId : NodeId) {topicName : String}
    {topic : Topic} (parsed : Topic.fromStr topicName = .ok topic) :
    ∃ routes own, (routerOf calls).get w topicName = .ok routes ∧
      (routerOf calls).getRoutes nodeId topicName = .ok own ∧
      (routerOf calls).hasMatches topicName = .ok (!routes.isEmpty) ∧
      routes.Nodup ∧
      (∀ route, route ∈ routes ↔ Admitted route.topic topic ∧ Leads (heldBy calls) route) ∧
      own.Nodup ∧
      (∀ route, route ∈ own ↔ route.nodeId = nodeId ∧ ∃ n, ⟨n, route.topic⟩ ∈ routes) ∧
      (∀ limit, UpTo limit (Leads (heldBy calls)) ((routerOf calls).gets w limit)) ∧
      (topic.WildcardFree → ∀ env thisId, ∃ rels,
        DefaultRouter._matches env thisId (routerOf calls) topicName = .ok rels ∧
          Follows env (heldBy calls) thisId topic rels) := by
  have consistent := consistent_routerOf calls
  rw [← held_routerOf]
  have mem : ∀ route, route ∈ ((unique (matched topic.levels (routerOf calls).topics [])).flatMap
      fun item => (routerOf calls).ofEntry (DefaultRouter.routesOf w) (toTopicFilter item.1)) ↔
        Admitted route.topic topic ∧ Leads (routerOf calls).held route := by
    intro route
    rw [mem_flatMap_matched consistent parsed]
    exact leads_iff (P := fun f => Admitted f topic) consistent
  have filters : ∀ f, f ∈ matchedFilters (routerOf calls) topic ↔
      ∃ n, Admitted f topic ∧ Leads (routerOf calls).held ⟨n, f⟩ := by
    intro f
    rw [mem_matchedFilters consistent parsed]
    constructor
    · rintro ⟨admitted, rels, found⟩
      obtain ⟨n, leads⟩ := leads_of_entry consistent found
      exact ⟨n, admitted, leads⟩
    · rintro ⟨n, admitted, c, id, opts, held, -⟩
      obtain ⟨rels, found, -⟩ := Option.bind_eq_some_iff.mp held
      exact ⟨admitted, rels, found⟩
  refine ⟨_, (matchedFilters (routerOf calls) topic).map fun f => ⟨nodeId, f⟩, ?_, ?_, ?_,
    nodup_flatMap_matched consistent parsed (fun f rels _ => nodup_routesOf w f rels)
      (topic_routesOf w), mem, ?_, ?_, gets_upTo consistent, ?_⟩
  · rw [DefaultRouter.get, parsed]
    rfl
  · rw [DefaultRouter.getRoutes, parsed, matchedFilters, List.map_map]
    rfl
  · rw [DefaultRouter.hasMatches, parsed]
    refine congrArg Except.ok (Bool.eq_iff_iff.mpr ?_)
    rw [Node.isMatch_iff, Bool.not_eq_true', List.isEmpty_eq_false_iff]
    constructor
    · intro some
      obtain ⟨item, member⟩ := List.exists_mem_of_ne_nil _ some
      obtain ⟨n, route⟩ := (filters _).mp (List.mem_map_of_mem (mem_unique.mpr member))
      exact List.ne_nil_of_mem ((mem ⟨n, _⟩).mpr route)
    · intro some
      obtain ⟨⟨n, f⟩, route⟩ := List.exists_mem_of_ne_nil _ some
      have leads := (mem ⟨n, f⟩).mp route
      obtain ⟨item, member, -⟩ := List.mem_map.mp ((filters f).mpr ⟨n, leads⟩)
      exact List.ne_nil_of_mem (mem_unique.mp member)
  · refine (nodup_matchedFilters consistent parsed).map ?_
    intro f f' same
    exact (Route.mk.inj same).2
  · intro route
    rw [List.mem_map]
    simp only [mem]
    constructor
    · rintro ⟨f, member, rfl⟩
      exact ⟨rfl, (filters f).mp member⟩
    · rintro ⟨rfl, n, admitted, leads⟩
      exact ⟨route.topic, (filters _).mpr ⟨n, admitted, leads⟩, rfl⟩
  · intro free env thisId
    obtain ⟨rels, found, nodes, collected⟩ := _matches_eq env thisId (routerOf calls) parsed
    exact ⟨rels, found, Routes.follows free (chooses_pick consistent)
      (routes_matches consistent parsed free nodes collected)⟩

/-- A wildcard of the topic is a level that `+` and `#` of a filter take. -/
theorem routes_answer_wildcard :
    ∃ routes, DefaultRouter.get ⟨.inOrder, fun _ => .inOrder⟩ (routerOf
        [.add "a/+" (.ofClient 1 "c") (.v3 ⟨.atMostOnce, none, none⟩),
          .add "#" (.ofClient 2 "d") (.v3 ⟨.atMostOnce, none, none⟩)]) "a/+" = .ok routes ∧
      routes.Nodup ∧ (∀ route ∈ routes, Admitted route.topic ⟨[.normal "a", .singleWildcard]⟩) ∧
      (⟨1, "a/+"⟩ : Route) ∈ routes ∧ (⟨2, "#"⟩ : Route) ∈ routes := by
  obtain ⟨routes, own, found, -, -, nodup, mem, -⟩ := @routes_answer
    [.add "a/+" (.ofClient 1 "c") (.v3 ⟨.atMostOnce, none, none⟩),
      .add "#" (.ofClient 2 "d") (.v3 ⟨.atMostOnce, none, none⟩)]
    ⟨.inOrder, fun _ => .inOrder⟩ 1 "a/+" ⟨[.normal "a", .singleWildcard]⟩ (by decide)
  refine ⟨routes, found, nodup, fun route member => ((mem route).mp member).1, ?_⟩
  have both : DefaultRouter.get ⟨.inOrder, fun _ => .inOrder⟩ (routerOf
      [.add "a/+" (.ofClient 1 "c") (.v3 ⟨.atMostOnce, none, none⟩),
        .add "#" (.ofClient 2 "d") (.v3 ⟨.atMostOnce, none, none⟩)]) "a/+" =
      .ok [⟨2, "#"⟩, ⟨1, "a/+"⟩] := by
    rfl
  rw [found] at both
  cases both
  exact ⟨.tail _ (.head _), .head _⟩

end OxiMqtt.Router

import OxiMqtt.Router.Table

/-!
# What a match selects

`_matches` runs three nested loops over a map of collectors.  Its effect is that of
feeding one list of calls to the collectors of their nodes (`_matches_eq`): for every
matching filter the subscriptions that are not shared, then the chosen member of
every shared group.

* `choice_spec`: a group with candidates has one chosen, an online one if there is one.
* `nodup_feeds`: no client is fed twice for one filter.
* `matches_selects`: the relations of a match, over the table of any calls.
-/

namespace OxiMqtt.Router

open Collections

/-! ## The choice of a member -/

/-- Every position is visited by the loop that starts at `start`. -/
theorem exists_rotation {len start idx : Nat} (hidx : idx < len) (hstart : start < len) :
    ∃ i < len, (start + i) % len = idx := by
  by_cases h : start ≤ idx
  · refine ⟨idx - start, by omega, ?_⟩
    rw [show start + (idx - start) = idx by omega, Nat.mod_eq_of_lt hidx]
  · refine ⟨len + idx - start, by omega, ?_⟩
    rw [show start + (len + idx - start) = idx + len by omega, Nat.add_mod_right,
      Nat.mod_eq_of_lt hidx]

theorem choice_spec (seq : UInt64) {ncs : List Member} (nonempty : ncs ≠ []) :
    ∃ idx isOnline m, choice seq ncs = some (idx, isOnline) ∧ ncs[idx]? = some m ∧
      isOnline = m.isOnline.getD false ∧
      (isOnline = false → ∀ m' ∈ ncs, m'.isOnline ≠ some true) := by
  have pos : 0 < ncs.length := List.length_pos_iff.mpr nonempty
  have start : seq.toNat % ncs.length < ncs.length := Nat.mod_lt _ pos
  unfold choice
  dsimp only
  rw [if_neg (by omega)]
  cases found : (List.range ncs.length).find? fun i =>
      onlineAt ncs ((seq.toNat % ncs.length + i) % ncs.length) with
  | some i =>
      have online := List.find?_some found
      rw [onlineAt, Option.any_eq_true] at online
      rcases online with ⟨m, hm, honline⟩
      refine ⟨_, true, m, rfl, hm, ?_, nofun⟩
      rw [beq_iff_eq.mp honline]
      rfl
  | none =>
      -- No position has an online candidate, the first one included.
      have offline : ∀ m ∈ ncs, m.isOnline ≠ some true := by
        intro m hm online
        rcases List.mem_iff_getElem?.mp hm with ⟨idx, hidx⟩
        obtain ⟨i, hi, rotated⟩ := exists_rotation (List.getElem?_eq_some_iff.mp hidx).1 start
        refine List.find?_eq_none.mp found i (List.mem_range.mpr hi) ?_
        rw [rotated, onlineAt, hidx]
        simp [online]
      obtain ⟨m, hm⟩ : ∃ m, ncs[seq.toNat % ncs.length]? = some m :=
        ⟨_, List.getElem?_eq_getElem start⟩
      refine ⟨_, (m.isOnline.getD false), m, by rw [hm]; rfl, hm, rfl, fun _ => offline⟩

/-! ## Calls that are fed to the collectors -/

/-- Feed calls to the collectors of their nodes. -/
def feedAll (map : SubscriptioRelationsCollectorMap) (feeds : List (NodeId × Feed)) :
    SubscriptioRelationsCollectorMap :=
  feeds.foldl (fun map e => SubscriptioRelationsCollectorMap.add map e.1 e.2) map

section

variable (env : MatchEnv) (thisId : Id) (topicFilter : TopicFilter)

/-- The relation is one that is collected without a choice. -/
def isOwn (e : ClientId × Relation) : Bool := !excluded thisId e.2 && e.2.2.sharedGroup.isNone

/-- The calls for the subscriptions that are not shared. -/
def ownFeeds (rels : List (ClientId × Relation)) : List (NodeId × Feed) :=
  (rels.filter (isOwn thisId)).map fun e => (e.2.1.nodeId, ⟨topicFilter, e.1, e.2.2, none⟩)

/-- The candidate that a relation puts to a shared group. -/
def candidate : ClientId × Relation → Option (SharedGroup × Member)
  | (clientId, id, opts) =>
      if excluded thisId (id, opts) then none
      else opts.sharedGroup.map fun group =>
        (group, ⟨id.nodeId, clientId, opts, none, some (env.online id.nodeId clientId)⟩)

/-- The shared groups of a filter with their candidates. -/
def groupsOf (rels : List (ClientId × Relation)) : Assoc SharedGroup (List Member) :=
  Assoc.gather Prod.fst (fun subs e => subs.getD [] ++ [e.2])
    (rels.filterMap (candidate env thisId)) []

/-- The call for the chosen member of a group. -/
def groupFeed : SharedGroup × List Member → Option (NodeId × Feed)
  | (group, sSubs) =>
      (choice (env.seq topicFilter group) sSubs).bind fun e =>
        sSubs[e.1]?.map fun m =>
          (m.nodeId,
            ⟨topicFilter, m.clientId, m.opts, some ⟨group, e.2, sSubs.map Member.clientId⟩⟩)

/-- The relations of a filter, as the loop walks them. -/
def walked (r : DefaultRouter) : List (ClientId × Relation) :=
  (env.relsWalk topicFilter).visit ((r.relations.lookup topicFilter).getD [])

/-- The calls for a filter. -/
def filterFeeds (r : DefaultRouter) : List (NodeId × Feed) :=
  ownFeeds thisId topicFilter (walked env topicFilter r) ++
    ((env.groupsWalk topicFilter).visit (groupsOf env thisId (walked env topicFilter r))).filterMap
      (groupFeed env topicFilter)

theorem foldl_visitRelation (rels : List (ClientId × Relation))
    (map : SubscriptioRelationsCollectorMap) (groups : Assoc SharedGroup (List Member)) :
    rels.foldl (DefaultRouter.visitRelation env thisId topicFilter) (map, groups) =
      (feedAll map (ownFeeds thisId topicFilter rels),
        Assoc.gather Prod.fst (fun subs e => subs.getD [] ++ [e.2])
          (rels.filterMap (candidate env thisId)) groups) := by
  induction rels generalizing map groups with
  | nil => rfl
  | cons e rels ih =>
      rcases e with ⟨clientId, id, opts⟩
      rw [List.foldl_cons]
      cases hex : excluded thisId (id, opts) with
      | true => simp [DefaultRouter.visitRelation, ownFeeds, isOwn, candidate, hex, ih]
      | false =>
          cases hgroup : opts.sharedGroup with
          | none =>
              simp [DefaultRouter.visitRelation, ownFeeds, isOwn, candidate, hex, hgroup, ih, feedAll]
          | some group =>
              simp [DefaultRouter.visitRelation, ownFeeds, isOwn, candidate, hex, hgroup, ih,
                Assoc.gather]

theorem foldl_visitGroup (groups : List (SharedGroup × List Member))
    (map : SubscriptioRelationsCollectorMap) :
    groups.foldl (DefaultRouter.visitGroup env topicFilter) map =
      feedAll map (groups.filterMap (groupFeed env topicFilter)) := by
  induction groups generalizing map with
  | nil => rfl
  | cons e groups ih =>
      rcases e with ⟨group, sSubs⟩
      rw [List.foldl_cons, ih, DefaultRouter.visitGroup, List.filterMap_cons, groupFeed]
      cases choice (env.seq topicFilter group) sSubs with
      | none => rfl
      | some e =>
          dsimp only [Option.bind_some]
          cases sSubs[e.1]? <;> rfl

theorem foldl_visitFilter (r : DefaultRouter) (items : List (Item Unit))
    (map : SubscriptioRelationsCollectorMap) :
    items.foldl (DefaultRouter.visitFilter env thisId r) map =
      feedAll map (items.flatMap fun item => filterFeeds env thisId (toTopicFilter item.1) r) := by
  induction items generalizing map with
  | nil => rfl
  | cons item items ih =>
      rw [List.foldl_cons, ih, DefaultRouter.visitFilter, foldl_visitRelation, foldl_visitGroup,
        List.flatMap_cons]
      simp only [feedAll, filterFeeds, List.foldl_append]
      rfl

/-- All the calls of a match. -/
def feeds (r : DefaultRouter) (topic : Topic) : List (NodeId × Feed) :=
  (matched topic.levels r.topics []).flatMap fun item =>
    filterFeeds env thisId (toTopicFilter item.1) r

/-- The calls of a match to the collector of a node. -/
def nodeFeeds (r : DefaultRouter) (topic : Topic) (nodeId : NodeId) : List Feed :=
  ((feeds env thisId r topic).filter fun e => e.1 = nodeId).map Prod.snd

end

/-- The relations that a match returns for a node. -/
def SubRelationsMap.at (rels : SubRelationsMap) (nodeId : NodeId) : SubRelations :=
  (rels.lookup nodeId).getD []

theorem feedAll_eq_gather (feeds : List (NodeId × Feed)) :
    feedAll [] feeds = Assoc.gather Prod.fst
      (fun (c : Option SubscriptioRelationsCollector) e =>
        (c.getD {}).add e.2.topicFilter e.2.clientId e.2.opts e.2.group) feeds [] := rfl

theorem nodupKeys_feedAll (feeds : List (NodeId × Feed)) :
    Assoc.NodupKeys (feedAll [] feeds) := by
  rw [feedAll_eq_gather]
  exact Assoc.nodupKeys_nil.gather _ _ _

theorem lookup_feedAll (feeds : List (NodeId × Feed)) (nodeId : NodeId) :
    ((feedAll [] feeds).lookup nodeId).getD {} =
      collect ((feeds.filter fun e => e.1 = nodeId).map Prod.snd) := by
  have fold : ∀ (l : List (NodeId × Feed)) (c : Option SubscriptioRelationsCollector),
      (l.foldl (fun c e => some
        ((c.getD {}).add e.2.topicFilter e.2.clientId e.2.opts e.2.group)) c).getD {} =
        collectFrom (c.getD {}) (l.map Prod.snd) := by
    intro l
    induction l with
    | nil => exact fun c => rfl
    | cons e l ih =>
        intro c
        rw [List.foldl_cons, ih]
        rfl
  rw [feedAll_eq_gather, Assoc.lookup_gather, fold]
  rfl

/-- A match feeds one list of calls to the collectors of their nodes. -/
theorem _matches_eq (env : MatchEnv) (thisId : Id) (r : DefaultRouter) {topicName : TopicName}
    {topic : Topic} (parsed : Topic.fromStr topicName = .ok topic) :
    ∃ rels, DefaultRouter._matches env thisId r topicName = .ok rels ∧ rels.NodupKeys ∧
      ∀ nodeId, SubRelationsMap.at rels nodeId =
        (collect (nodeFeeds env thisId r topic nodeId)).toSubRelations (env.v5Walk nodeId) := by
  refine ⟨(feedAll [] (feeds env thisId r topic)).map fun e =>
    (e.1, e.2.toSubRelations (env.v5Walk e.1)), ?_, ?_, fun nodeId => ?_⟩
  · rw [DefaultRouter._matches, parsed]
    change Except.ok _ = _
    rw [foldl_visitFilter]
    rfl
  · exact (nodupKeys_feedAll _).map fun nodeId c => c.toSubRelations (env.v5Walk nodeId)
  · have lookup := Assoc.lookup_map (feedAll [] (feeds env thisId r topic))
      (fun nodeId c => SubscriptioRelationsCollector.toSubRelations (env.v5Walk nodeId) c) nodeId
    rw [SubRelationsMap.at, nodeFeeds, ← lookup_feedAll, lookup]
    cases (feedAll [] (feeds env thisId r topic)).lookup nodeId with
    | some c => rfl
    | none => simp [SubscriptioRelationsCollector.toSubRelations, Walk.visit_nil]

/-- The client has no shared subscription. -/
def DefaultRouter.Unshared (r : DefaultRouter) (clientId : ClientId) : Prop :=
  ∀ topicFilter, ∀ e ∈ (r.relations.lookup topicFilter).getD [], e.1 = clientId →
    e.2.2.sharedGroup = none

theorem candidate_congr {env env' : MatchEnv} {thisId : Id} {e : ClientId × Relation}
    (same : e.2.2.sharedGroup ≠ none → env.online e.2.1.nodeId e.1 = env'.online e.2.1.nodeId e.1) :
    candidate env thisId e = candidate env' thisId e := by
  obtain ⟨clientId, id, opts⟩ := e
  dsimp only [candidate]
  cases hgroup : opts.sharedGroup with
  | none => rfl
  | some group =>
      have online : env.online id.nodeId clientId = env'.online id.nodeId clientId :=
        same (by simp [hgroup])
      rw [online]

/-- A match does not ask whether a client without a shared subscription is online. -/
theorem _matches_online {r : DefaultRouter} {clientId : ClientId} (unshared : r.Unshared clientId)
    (env : MatchEnv) {online : NodeId → ClientId → Bool}
    (same : ∀ nodeId c, c ≠ clientId → env.online nodeId c = online nodeId c) (thisId : Id)
    (topicName : TopicName) :
    DefaultRouter._matches env thisId r topicName =
      DefaultRouter._matches { env with online } thisId r topicName := by
  have visits : DefaultRouter.visitFilter env thisId r =
      DefaultRouter.visitFilter { env with online } thisId r := by
    funext map item
    have candidates : (walked env (toTopicFilter item.1) r).filterMap (candidate env thisId) =
        (walked env (toTopicFilter item.1) r).filterMap
          (candidate { env with online } thisId) := by
      apply List.filterMap_congr
      intro e member
      apply candidate_congr
      intro shared
      apply same
      exact fun own => shared (unshared _ e ((Walk.mem_visit _).mp member) own)
    have groups := congrArg (fun l => Assoc.gather Prod.fst
      (fun (subs : Option (List Member)) (e : SharedGroup × Member) => subs.getD [] ++ [e.2]) l [])
      candidates
    rw [DefaultRouter.visitFilter, DefaultRouter.visitFilter, foldl_visitRelation,
      foldl_visitRelation]
    exact congrArg (fun groups => ((env.groupsWalk (toTopicFilter item.1)).visit groups).foldl
      (DefaultRouter.visitGroup env (toTopicFilter item.1))
      (feedAll map (ownFeeds thisId (toTopicFilter item.1)
        (walked env (toTopicFilter item.1) r)))) groups
  rw [DefaultRouter._matches, DefaultRouter._matches, visits]

/-! ## The calls for one filter -/

/-- The client holds this subscription at the filter, and No Local does not exclude
it. -/
def Eligible (held : Holdings) (thisId : Id) (topicFilter : TopicFilter) (clientId : ClientId)
    (id : Id) (opts : SubscriptionOptions) : Prop :=
  held topicFilter clientId = some (id, opts) ∧ excluded thisId (id, opts) = false

/-- The client is an eligible member of the group at the filter. -/
def IsMember (held : Holdings) (thisId : Id) (topicFilter : TopicFilter) (group : SharedGroup)
    (clientId : ClientId) : Prop :=
  ∃ id opts, Eligible held thisId topicFilter clientId id opts ∧ opts.sharedGroup = some group

theorem Eligible.unique {held : Holdings} {thisId : Id} {f : TopicFilter} {c : ClientId}
    {id id' : Id} {opts opts' : SubscriptionOptions} (h : Eligible held thisId f c id opts)
    (h' : Eligible held thisId f c id' opts') : id = id' ∧ opts = opts' := by
  have same := h.1.symm.trans h'.1
  simpa using same

section

variable {env : MatchEnv} {thisId : Id} {r : DefaultRouter} {f : TopicFilter}

theorem nodup_walked (consistent : r.Consistent) : Assoc.NodupKeys (walked env f r) := by
  refine Assoc.NodupKeys.perm ?_ ((env.relsWalk f).perm _)
  cases hrels : r.relations.lookup f with
  | none => exact Assoc.nodupKeys_nil
  | some rels => exact consistent.clients f rels hrels

theorem mem_walked (consistent : r.Consistent) {c : ClientId} {rel : Relation} :
    (c, rel) ∈ walked env f r ↔ r.held f c = some rel := by
  rw [walked, Walk.mem_visit, DefaultRouter.held]
  cases hrels : r.relations.lookup f with
  | none => simp
  | some rels => exact (consistent.clients f rels hrels).mem_iff_lookup

theorem mem_ownFeeds (consistent : r.Consistent) {n : NodeId} {x : Feed} :
    (n, x) ∈ ownFeeds thisId f (walked env f r) ↔
      x.topicFilter = f ∧ x.group = none ∧ x.opts.sharedGroup = none ∧
        ∃ id, Eligible r.held thisId f x.clientId id x.opts ∧ id.nodeId = n := by
  simp only [ownFeeds, List.mem_map, List.mem_filter, isOwn, Bool.and_eq_true, Bool.not_eq_true',
    Option.isNone_iff_eq_none]
  constructor
  · rintro ⟨⟨c, id, opts⟩, ⟨hmem, hex, hgroup⟩, heq⟩
    cases heq
    exact ⟨rfl, rfl, hgroup, id, ⟨(mem_walked consistent).mp hmem, hex⟩, rfl⟩
  · rcases x with ⟨xf, xc, xopts, xgroup⟩
    rintro ⟨rfl, rfl, hgroup, id, ⟨hheld, hex⟩, rfl⟩
    exact ⟨(xc, id, xopts), ⟨(mem_walked consistent).mpr hheld, hex, hgroup⟩, rfl⟩

theorem candidate_eq_some {c : ClientId} {id : Id} {opts : SubscriptionOptions}
    {e : SharedGroup × Member} :
    candidate env thisId (c, id, opts) = some e ↔ excluded thisId (id, opts) = false ∧
      opts.sharedGroup = some e.1 ∧
        e.2 = ⟨id.nodeId, c, opts, none, some (env.online id.nodeId c)⟩ := by
  rcases e with ⟨g, m⟩
  rw [candidate]
  cases hex : excluded thisId (id, opts) with
  | true => simp
  | false =>
      cases hgroup : opts.sharedGroup with
      | none => simp
      | some g' =>
          simp only [Bool.false_eq_true, if_false, Option.map_some, Option.some.injEq,
            Prod.mk.injEq, true_and]
          exact and_congr Iff.rfl eq_comm

/-- The candidates of a group are its eligible members. -/
theorem mem_groupsOf (consistent : r.Consistent) {g : SharedGroup} {ms : List Member}
    (h : (groupsOf env thisId (walked env f r)).lookup g = some ms) (m : Member) :
    m ∈ ms ↔ ∃ c id opts, Eligible r.held thisId f c id opts ∧ opts.sharedGroup = some g ∧
      m = ⟨id.nodeId, c, opts, none, some (env.online id.nodeId c)⟩ := by
  rw [groupsOf, Assoc.lookup_gather_lists] at h
  split at h
  · cases h
  · cases h
    simp only [List.mem_map, List.mem_filter, List.mem_filterMap, decide_eq_true_eq]
    constructor
    · rintro ⟨⟨g', m'⟩, ⟨⟨⟨c, id, opts⟩, hmem, hcand⟩, rfl⟩, rfl⟩
      rcases candidate_eq_some.mp hcand with ⟨hex, hgroup, hm⟩
      exact ⟨c, id, opts, ⟨(mem_walked consistent).mp hmem, hex⟩, hgroup, hm⟩
    · rintro ⟨c, id, opts, ⟨hheld, hex⟩, hgroup, rfl⟩
      exact ⟨(g, _), ⟨⟨(c, id, opts), (mem_walked consistent).mpr hheld,
        candidate_eq_some.mpr ⟨hex, hgroup, rfl⟩⟩, rfl⟩, rfl⟩

/-- A group with an eligible member has candidates, and no group has an empty list
of them. -/
theorem groupsOf_isSome (consistent : r.Consistent) {g : SharedGroup} {c : ClientId}
    (member : IsMember r.held thisId f g c) :
    ∃ ms, (groupsOf env thisId (walked env f r)).lookup g = some ms := by
  rcases member with ⟨id, opts, ⟨hheld, hex⟩, hgroup⟩
  rw [groupsOf, Assoc.lookup_gather_lists, if_neg]
  · exact ⟨_, rfl⟩
  · intro hnil
    have hmem : (g, (⟨id.nodeId, c, opts, none, some (env.online id.nodeId c)⟩ : Member)) ∈
        (walked env f r).filterMap (candidate env thisId) :=
      List.mem_filterMap.mpr ⟨(c, id, opts), (mem_walked consistent).mpr hheld,
        candidate_eq_some.mpr ⟨hex, hgroup, rfl⟩⟩
    exact List.filter_eq_nil_iff.mp hnil _ hmem (by simp)

theorem groupsOf_ne_nil {rels : List (ClientId × Relation)} {g : SharedGroup} {ms : List Member}
    (h : (groupsOf env thisId rels).lookup g = some ms) : ms ≠ [] := by
  rw [groupsOf, Assoc.lookup_gather_lists] at h
  split at h
  · cases h
  · rename_i hne
    cases h
    simpa using hne

/-- The candidates of a group are different clients. -/
theorem nodup_groupsOf (consistent : r.Consistent) {g : SharedGroup} {ms : List Member}
    (h : (groupsOf env thisId (walked env f r)).lookup g = some ms) :
    (ms.map Member.clientId).Nodup := by
  have keys : Assoc.NodupKeys (walked env f r) := nodup_walked consistent
  have clients : (((walked env f r).filterMap (candidate env thisId)).map
      fun e => e.2.clientId).Nodup := by
    rw [List.Nodup, List.pairwise_map, List.pairwise_filterMap]
    refine (List.pairwise_map.mp keys).imp ?_
    rintro ⟨c, id, opts⟩ ⟨c', id', opts'⟩ different m hm m' hm' same
    rw [(candidate_eq_some.mp hm).2.2, (candidate_eq_some.mp hm').2.2] at same
    exact different same
  rw [groupsOf, Assoc.lookup_gather_lists] at h
  split at h
  · cases h
  · cases h
    rw [List.map_map]
    exact clients.sublist (List.filter_sublist.map _)

/-- The call for a group with candidates: one of them, and an online one if there
is one. -/
theorem groupFeed_spec (g : SharedGroup) {ms : List Member} (nonempty : ms ≠ []) :
    ∃ m ∈ ms, ∃ isOnline, groupFeed env f (g, ms) =
        some (m.nodeId, ⟨f, m.clientId, m.opts, some ⟨g, isOnline, ms.map Member.clientId⟩⟩) ∧
      isOnline = m.isOnline.getD false ∧
      (isOnline = false → ∀ m' ∈ ms, m'.isOnline ≠ some true) := by
  rcases choice_spec (env.seq f g) nonempty with ⟨idx, isOnline, m, hchoice, hm, honline, best⟩
  refine ⟨m, List.mem_of_getElem? hm, isOnline, ?_, honline, best⟩
  rw [groupFeed, hchoice, Option.bind_some, hm]
  rfl

/-- The member that is chosen from a group. -/
def pick (env : MatchEnv) (thisId : Id) (r : DefaultRouter) (f : TopicFilter) (g : SharedGroup) :
    Option ClientId :=
  ((groupsOf env thisId (walked env f r)).lookup g).bind fun ms =>
    (groupFeed env f (g, ms)).map fun e => e.2.clientId

/-- The group part of the relation of a selected subscription: none, or the group with
the clients it was chosen from. -/
def Groups (env : MatchEnv) (held : Holdings) (thisId : Id) (f : TopicFilter) (c : ClientId)
    (id : Id) (opts : SubscriptionOptions) (group : Option SharedGroupType) : Prop :=
  match opts.sharedGroup with
  | none => group = none
  | some g => ∃ cids, group = some ⟨g, env.online id.nodeId c, cids⟩ ∧ cids.Nodup ∧
      ∀ c', c' ∈ cids ↔ IsMember held thisId f g c'

/-- A call that a group adds to the calls of a filter. -/
theorem groupFeed_eligible (consistent : r.Consistent) {g : SharedGroup} {ms : List Member}
    (h : (groupsOf env thisId (walked env f r)).lookup g = some ms) :
    ∃ c id opts group, groupFeed env f (g, ms) = some (id.nodeId, ⟨f, c, opts, group⟩) ∧
      Eligible r.held thisId f c id opts ∧ opts.sharedGroup = some g ∧
      Groups env r.held thisId f c id opts group ∧
      (env.online id.nodeId c = false → ∀ c' id' opts', Eligible r.held thisId f c' id' opts' →
        opts'.sharedGroup = some g → env.online id'.nodeId c' = false) := by
  have nonempty := groupsOf_ne_nil h
  rcases @groupFeed_spec env f g ms nonempty with ⟨m, hm, isOnline, feed, honline, best⟩
  rcases (mem_groupsOf consistent h m).mp hm with ⟨c, id, opts, eligible, hgroup, rfl⟩
  refine ⟨c, id, opts, _, feed, eligible, hgroup, ?_, ?_⟩
  · rw [Groups, hgroup]
    refine ⟨ms.map Member.clientId, by rw [honline]; rfl, nodup_groupsOf consistent h, fun c' => ?_⟩
    rw [List.mem_map]
    constructor
    · rintro ⟨m', hm', rfl⟩
      rcases (mem_groupsOf consistent h m').mp hm' with ⟨c', id', opts', eligible', hgroup', rfl⟩
      exact ⟨id', opts', eligible', hgroup'⟩
    · rintro ⟨id', opts', eligible', hgroup'⟩
      exact ⟨_, (mem_groupsOf consistent h _).mpr ⟨c', id', opts', eligible', hgroup', rfl⟩, rfl⟩
  · intro offline c' id' opts' eligible' hgroup'
    have nobody := best (honline.trans offline) _
      ((mem_groupsOf consistent h _).mpr ⟨c', id', opts', eligible', hgroup', rfl⟩)
    simpa using nobody

theorem nodupKeys_groupsOf (rels : List (ClientId × Relation)) :
    (groupsOf env thisId rels).NodupKeys := Assoc.nodupKeys_nil.gather _ _ _

/-- Every call for a filter is the call of a selected subscription. -/
theorem mem_filterFeeds (consistent : r.Consistent) {n : NodeId} {x : Feed}
    (h : (n, x) ∈ filterFeeds env thisId f r) :
    x.topicFilter = f ∧ ∃ id, id.nodeId = n ∧ Eligible r.held thisId f x.clientId id x.opts ∧
      (∀ g, x.opts.sharedGroup = some g → pick env thisId r f g = some x.clientId) ∧
      Groups env r.held thisId f x.clientId id x.opts x.group := by
  rcases List.mem_append.mp h with own | chosen
  · rcases (mem_ownFeeds consistent).mp own with ⟨hf, hgroup, hnone, id, eligible, rfl⟩
    refine ⟨hf, id, rfl, eligible, fun g hg => ?_, ?_⟩
    · rw [hnone] at hg
      cases hg
    · rw [Groups, hnone]
      exact hgroup
  · rcases List.mem_filterMap.mp chosen with ⟨⟨g, ms⟩, hms, feed⟩
    have lookup := (nodupKeys_groupsOf _).mem_iff_lookup.mp ((env.groupsWalk f).mem_visit.mp hms)
    obtain ⟨c, id, opts, group, feed', eligible, hgroup, groups, -⟩ :=
      groupFeed_eligible consistent lookup
    rw [feed] at feed'
    cases feed'
    refine ⟨rfl, id, rfl, eligible, fun g' hg' => ?_, groups⟩
    rw [hgroup] at hg'
    cases hg'
    rw [pick, lookup, Option.bind_some, feed]
    rfl

/-- Every selected subscription has a call. -/
theorem exists_filterFeeds (consistent : r.Consistent) {c : ClientId} {id : Id}
    {opts : SubscriptionOptions} (eligible : Eligible r.held thisId f c id opts)
    (picked : ∀ g, opts.sharedGroup = some g → pick env thisId r f g = some c) :
    ∃ group, (id.nodeId, ⟨f, c, opts, group⟩) ∈ filterFeeds env thisId f r := by
  cases hgroup : opts.sharedGroup with
  | none =>
      refine ⟨none, List.mem_append_left _ ?_⟩
      exact (mem_ownFeeds consistent).mpr ⟨rfl, rfl, hgroup, id, eligible, rfl⟩
  | some g =>
      obtain ⟨ms, lookup⟩ : ∃ ms, (groupsOf env thisId (walked env f r)).lookup g = some ms :=
        groupsOf_isSome consistent ⟨id, opts, eligible, hgroup⟩
      obtain ⟨c', id', opts', group, feed, eligible', -, -, -⟩ :=
        groupFeed_eligible consistent lookup
      have same := picked g hgroup
      rw [pick, lookup, Option.bind_some, feed] at same
      cases same
      rcases eligible.unique eligible' with ⟨rfl, rfl⟩
      refine ⟨group, List.mem_append_right _ (List.mem_filterMap.mpr ⟨(g, ms), ?_, feed⟩)⟩
      exact (env.groupsWalk f).mem_visit.mpr ((nodupKeys_groupsOf _).mem_iff_lookup.mpr lookup)

/-- No client has two calls for one filter. -/
theorem nodup_filterFeeds (consistent : r.Consistent) :
    ((filterFeeds env thisId f r).map fun e => e.2.clientId).Nodup := by
  have keys : Assoc.NodupKeys (walked env f r) := nodup_walked consistent
  rw [filterFeeds, List.map_append, List.nodup_append]
  refine ⟨?_, ?_, ?_⟩
  · rw [ownFeeds, List.map_map]
    exact keys.sublist (List.filter_sublist.map _)
  · -- A client is a candidate of one group only.
    rw [List.Nodup, List.pairwise_map, List.pairwise_filterMap]
    have walk := ((env.groupsWalk f).perm (groupsOf env thisId (walked env f r)))
    have keys' : (groupsOf env thisId (walked env f r)).NodupKeys := nodupKeys_groupsOf _
    have groups := keys'.perm walk
    refine (List.pairwise_map.mp groups).imp_of_mem ?_
    rintro ⟨g, ms⟩ ⟨g', ms'⟩ hms hms' different x hx y hy same
    have lookup := (nodupKeys_groupsOf _).mem_iff_lookup.mp (walk.mem_iff.mp hms)
    have lookup' := (nodupKeys_groupsOf _).mem_iff_lookup.mp (walk.mem_iff.mp hms')
    rcases groupFeed_eligible consistent lookup with ⟨c, id, opts, group, feed, eligible, hgroup, -⟩
    obtain ⟨c', id', opts', group', feed', eligible', hgroup', -⟩ :=
      groupFeed_eligible consistent lookup'
    rw [feed] at hx
    rw [feed'] at hy
    cases hx
    cases hy
    cases same
    rcases eligible.unique eligible' with ⟨-, rfl⟩
    exact different (Option.some.inj (hgroup.symm.trans hgroup'))
  · -- A subscription is shared or it is not.
    intro c hc c' hc' same
    rcases List.mem_map.mp hc with ⟨⟨n, x⟩, hx, rfl⟩
    rcases List.mem_map.mp hc' with ⟨⟨n', y⟩, hy, rfl⟩
    rcases (mem_ownFeeds consistent).mp hx with ⟨-, -, unshared, id, eligible, -⟩
    rcases List.mem_filterMap.mp hy with ⟨⟨g, ms⟩, hms, feed⟩
    have lookup := (nodupKeys_groupsOf _).mem_iff_lookup.mp ((env.groupsWalk f).mem_visit.mp hms)
    obtain ⟨c', id', opts', group', feed', eligible', hgroup', -⟩ :=
      groupFeed_eligible consistent lookup
    rw [feed] at feed'
    cases feed'
    rw [show x.clientId = c' from same] at eligible
    rcases eligible.unique eligible' with ⟨-, hopts⟩
    rw [hopts, hgroup'] at unshared
    cases unshared

end

/-! ## The calls of a match -/

/-- The text is a filter that matches the topic. -/
def Matching (f : TopicFilter) (topic : Topic) : Prop :=
  ∃ filter, Topic.fromStr f = .ok filter ∧ MqttMatches filter topic

section

variable {env : MatchEnv} {thisId : Id} {r : DefaultRouter} {topicName : TopicName} {topic : Topic}

/-- What the tree yields: the filters with relations that match. -/
theorem mem_items (consistent : r.Consistent) (parsed : Topic.fromStr topicName = .ok topic)
    (free : topic.WildcardFree) {item : Item Unit} (h : item ∈ matched topic.levels r.topics []) :
    ∃ f filter, Topic.fromStr f = .ok filter ∧ MqttMatches filter topic ∧
      item.1 = filter.levels ∧ toTopicFilter item.1 = f := by
  rcases (mem_matched_iff_mqttMatches parsed free _ _).mp h with ⟨filter, hmatch, hvalues, rfl⟩
  rcases OrdSet.ne_empty_iff.mp hvalues with ⟨⟨⟩, hmem⟩
  rcases (consistent.stored filter).mp hmem with ⟨f, rels, hf, -⟩
  exact ⟨f, filter, hf, hmatch, rfl, Topic.toString_of_fromStr hf⟩

/-- Every matching filter with relations is among what the tree yields. -/
theorem exists_item (consistent : r.Consistent) (parsed : Topic.fromStr topicName = .ok topic)
    (free : topic.WildcardFree) {f : TopicFilter} (matching : Matching f topic) {c : ClientId}
    {rel : Relation} (held : r.held f c = some rel) :
    ∃ item ∈ matched topic.levels r.topics [], toTopicFilter item.1 = f := by
  rcases matching with ⟨filter, hf, hmatch⟩
  rcases Option.bind_eq_some_iff.mp held with ⟨rels, hrels, -⟩
  have stored := (consistent.stored filter).mpr ⟨f, rels, hf, hrels⟩
  refine ⟨_, (mem_matched_iff_mqttMatches parsed free _ _).mpr ⟨filter, hmatch, ?_, rfl⟩, ?_⟩
  · exact OrdSet.ne_empty_iff.mpr ⟨(), stored⟩
  · exact Topic.toString_of_fromStr hf

theorem nodup_filters (consistent : r.Consistent) (parsed : Topic.fromStr topicName = .ok topic)
    (free : topic.WildcardFree) :
    ((matched topic.levels r.topics []).map fun item => toTopicFilter item.1).Nodup := by
  have levels := nodup_matched free r.topics []
  rw [List.Nodup, List.pairwise_map] at levels ⊢
  refine levels.imp_of_mem ?_
  intro item item' hitem hitem' different same
  rcases mem_items consistent parsed free hitem with ⟨f, filter, hf, -, hlevels, rfl⟩
  rcases mem_items consistent parsed free hitem' with ⟨f', filter', hf', -, hlevels', rfl⟩
  rw [same, hf'] at hf
  cases hf
  exact different (hlevels.trans hlevels'.symm)

/-- No client is fed twice for one filter. -/
theorem nodup_feeds (consistent : r.Consistent) (parsed : Topic.fromStr topicName = .ok topic)
    (free : topic.WildcardFree) :
    ((feeds env thisId r topic).map fun e => (e.2.topicFilter, e.2.clientId)).Nodup := by
  rw [feeds, List.map_flatMap, List.nodup_flatMap]
  refine ⟨fun item _ => ?_, ?_⟩
  · refine List.Nodup.of_map Prod.snd ?_
    rw [List.map_map]
    exact nodup_filterFeeds consistent
  · refine (List.pairwise_map.mp (nodup_filters consistent parsed free)).imp ?_
    intro item item' different
    apply List.disjoint_left.mpr
    intro pair hpair hpair'
    rcases List.mem_map.mp hpair with ⟨⟨n, x⟩, hx, rfl⟩
    rcases List.mem_map.mp hpair' with ⟨⟨n', x'⟩, hx', heq⟩
    have filters := (Prod.mk.inj heq).1
    rw [(mem_filterFeeds consistent hx).1, (mem_filterFeeds consistent hx').1] at filters
    exact different filters.symm

end

/-! ## What a match returns -/

/-- The client may get the publish by this subscription. -/
structure Entitled (held : Holdings) (thisId : Id) (topic : Topic) (f : TopicFilter) (c : ClientId)
    (id : Id) (opts : SubscriptionOptions) : Prop where
  eligible : Eligible held thisId f c id opts
  matching : Matching f topic

/-- The client gets the publish by this subscription: it is not shared, or the client
is the chosen member of its group. -/
def Selected (held : Holdings) (thisId : Id) (topic : Topic)
    (chosen : TopicFilter → SharedGroup → Option ClientId) (f : TopicFilter) (c : ClientId) (id : Id)
    (opts : SubscriptionOptions) : Prop :=
  Entitled held thisId topic f c id opts ∧ ∀ g, opts.sharedGroup = some g → chosen f g = some c

/-- One eligible member is chosen from every group of a matching filter that has one,
and an online member if there is one. -/
structure Chooses (env : MatchEnv) (held : Holdings) (thisId : Id) (topic : Topic)
    (chosen : TopicFilter → SharedGroup → Option ClientId) : Prop where
  total : ∀ f g c id opts, Entitled held thisId topic f c id opts → opts.sharedGroup = some g →
    ∃ c', chosen f g = some c'
  member : ∀ f g c, Matching f topic → chosen f g = some c →
    ∃ id opts, Entitled held thisId topic f c id opts ∧ opts.sharedGroup = some g ∧
      (env.online id.nodeId c = false → ∀ c' id' opts', Entitled held thisId topic f c' id' opts' →
        opts'.sharedGroup = some g → env.online id'.nodeId c' = false)

/-- The relations reach the selected subscriptions: each v3 one by a relation of its
own, the v5 ones of a client by one, and nobody else. -/
structure Routes (env : MatchEnv) (held : Holdings) (thisId : Id) (topic : Topic)
    (chosen : TopicFilter → SharedGroup → Option ClientId) (rels : SubRelationsMap) : Prop where
  nodes : rels.NodupKeys
  v3 : ∀ f c id opts, Selected held thisId topic chosen f c id opts → opts.isV3 = true →
    ∃ group, ((SubRelationsMap.at rels id.nodeId).filter fun rel =>
        rel.opts.isV3 && (rel.topicFilter == f && rel.clientId == c)) =
      [⟨f, c, opts, none, group⟩]
  v5 : ∀ f c id opts, Selected held thisId topic chosen f c id opts → opts.isV3 = false →
    ∃ rel, relationsOf c (SubRelationsMap.at rels id.nodeId) = [rel]
  single : ∀ c n, (∀ f id opts, Selected held thisId topic chosen f c id opts → id.nodeId = n) →
    relationsOf c (rels.flatMap Prod.snd) = relationsOf c (SubRelationsMap.at rels n)
  only : ∀ n, ∀ rel ∈ SubRelationsMap.at rels n, ∃ id, id.nodeId = n ∧
    Selected held thisId topic chosen rel.topicFilter rel.clientId id rel.opts ∧
    Groups env held thisId rel.topicFilter rel.clientId id rel.opts rel.group

section

variable {env : MatchEnv} {thisId : Id} {r : DefaultRouter} {topicName : TopicName} {topic : Topic}

/-- Every call of a match is that of a selected subscription. -/
theorem selected_of_mem_feeds (consistent : r.Consistent)
    (parsed : Topic.fromStr topicName = .ok topic) (free : topic.WildcardFree) {n : NodeId}
    {x : Feed} (h : (n, x) ∈ feeds env thisId r topic) :
    ∃ id, id.nodeId = n ∧
      Selected r.held thisId topic (pick env thisId r) x.topicFilter x.clientId id x.opts ∧
      Groups env r.held thisId x.topicFilter x.clientId id x.opts x.group := by
  rcases List.mem_flatMap.mp h with ⟨item, hitem, hx⟩
  rcases mem_items consistent parsed free hitem with ⟨f, filter, hf, hmatch, -, hfilter⟩
  rw [hfilter] at hx
  rcases mem_filterFeeds consistent hx with ⟨hxf, id, hn, eligible, picked, groups⟩
  rw [hxf]
  exact ⟨id, hn, ⟨⟨eligible, filter, hf, hmatch⟩, picked⟩, groups⟩

/-- Every selected subscription has a call. -/
theorem mem_feeds_of_selected (consistent : r.Consistent)
    (parsed : Topic.fromStr topicName = .ok topic) (free : topic.WildcardFree) {f : TopicFilter}
    {c : ClientId} {id : Id} {opts : SubscriptionOptions}
    (h : Selected r.held thisId topic (pick env thisId r) f c id opts) :
    ∃ group, (id.nodeId, ⟨f, c, opts, group⟩) ∈ feeds env thisId r topic := by
  rcases h with ⟨entitled, picked⟩
  rcases exists_filterFeeds consistent entitled.eligible picked with ⟨group, hfeed⟩
  obtain ⟨item, hitem, hfilter⟩ :=
    exists_item consistent parsed free entitled.matching entitled.eligible.1
  exact ⟨group, List.mem_flatMap.mpr ⟨item, hitem, by rw [hfilter]; exact hfeed⟩⟩

theorem chooses_pick (consistent : r.Consistent) :
    Chooses env r.held thisId topic (pick env thisId r) where
  total f g c id opts entitled hgroup := by
    obtain ⟨ms, lookup⟩ : ∃ ms, (groupsOf env thisId (walked env f r)).lookup g = some ms :=
      groupsOf_isSome consistent ⟨id, opts, entitled.eligible, hgroup⟩
    rcases groupFeed_eligible consistent lookup with ⟨c', id', opts', group, feed, -⟩
    exact ⟨c', by rw [pick, lookup, Option.bind_some, feed]; rfl⟩
  member f g c matching picked := by
    rcases Option.bind_eq_some_iff.mp picked with ⟨ms, lookup, hfeed⟩
    obtain ⟨c', id, opts, group, feed, eligible, hgroup, -, best⟩ :=
      groupFeed_eligible consistent lookup
    rw [feed] at hfeed
    cases hfeed
    exact ⟨id, opts, ⟨eligible, matching⟩, hgroup, fun offline c' id' opts' entitled' hgroup' =>
      best offline c' id' opts' entitled'.eligible hgroup'⟩

theorem mem_nodeFeeds {n : NodeId} {x : Feed} :
    x ∈ nodeFeeds env thisId r topic n ↔ (n, x) ∈ feeds env thisId r topic := by
  simp [nodeFeeds]

/-- The relations of a match, over a consistent router. -/
theorem routes_matches (consistent : r.Consistent) (parsed : Topic.fromStr topicName = .ok topic)
    (free : topic.WildcardFree) {rels : SubRelationsMap} (nodes : rels.NodupKeys)
    (collected : ∀ nodeId, SubRelationsMap.at rels nodeId =
      (collect (nodeFeeds env thisId r topic nodeId)).toSubRelations (env.v5Walk nodeId)) :
    Routes env r.held thisId topic (pick env thisId r) rels := by
  have only : ∀ n, ∀ rel ∈ SubRelationsMap.at rels n, ∃ id, id.nodeId = n ∧
      Selected r.held thisId topic (pick env thisId r) rel.topicFilter rel.clientId id rel.opts ∧
      Groups env r.held thisId rel.topicFilter rel.clientId id rel.opts rel.group := by
    intro n rel hrel
    rw [collected] at hrel
    rcases mem_toSubRelations hrel with ⟨x, hx, hf, hc, hopts, hgroup⟩
    rw [hf, hc, hopts, hgroup]
    exact selected_of_mem_feeds consistent parsed free (mem_nodeFeeds.mp hx)
  refine ⟨nodes, fun f c id opts selected isV3 => ?_, fun f c id opts selected isV3 => ?_,
    fun c n oneNode => ?_, only⟩
  · rcases mem_feeds_of_selected consistent parsed free selected with ⟨group, hfeed⟩
    have nodup : ((nodeFeeds env thisId r topic id.nodeId).map
        fun x => (x.topicFilter, x.clientId)).Nodup := by
      rw [nodeFeeds, List.map_map]
      exact (nodup_feeds consistent parsed free).sublist (List.filter_sublist.map _)
    have single := filter_key_eq_singleton nodup (mem_nodeFeeds.mpr hfeed)
    have calls : ((nodeFeeds env thisId r topic id.nodeId).filter fun x =>
        x.opts.isV3 && (x.relation.topicFilter == f && x.relation.clientId == c)) =
          [⟨f, c, opts, group⟩] := by
      have split := List.filter_filter (p := fun x : Feed => x.opts.isV3)
        (q := fun x => (x.topicFilter, x.clientId) = (f, c))
        (l := nodeFeeds env thisId r topic id.nodeId)
      rw [single] at split
      rw [show ([⟨f, c, opts, group⟩] : List Feed) =
        [⟨f, c, opts, group⟩].filter fun x => x.opts.isV3 by simp [isV3], split]
      refine List.filter_congr fun x _ => ?_
      simp [Feed.relation, beq_eq_decide]
    refine ⟨group, ?_⟩
    rw [collected, filter_v3_toSubRelations, calls]
    cases opts with
    | v3 opts => rfl
    | v5 opts => cases isV3
  · rcases mem_feeds_of_selected consistent parsed free selected with ⟨group, hfeed⟩
    rw [collected]
    cases split : (nodeFeeds env thisId r topic id.nodeId).filter (Feed.isFor c) with
    | nil =>
        exact absurd (List.filter_eq_nil_iff.mp split _ (mem_nodeFeeds.mpr hfeed))
          (by simp [Feed.isFor, isV3])
    | cons first rest => exact ⟨_, relationsOf_of_cons split _⟩
  · -- No other node has a relation of the client.
    have elsewhere : ∀ e ∈ rels, e.1 ≠ n → relationsOf c e.2 = [] := by
      intro e he hne
      rw [relationsOf, List.filter_eq_nil_iff]
      intro rel hrel hfor
      have at_node : SubRelationsMap.at rels e.1 = e.2 := by
        rw [SubRelationsMap.at, nodes.mem_iff_lookup.mp he]
        rfl
      rcases only e.1 rel (by rw [at_node]; exact hrel) with ⟨id, hid, selected, -⟩
      simp only [Bool.and_eq_true, beq_iff_eq] at hfor
      rw [hfor.2] at selected
      exact hne (hid.symm.trans (oneNode _ _ _ selected))
    have all := nodes.flatMap_key (relationsOf c) n elsewhere
    rw [relationsOf, List.filter_flatMap]
    refine all.trans ?_
    rw [SubRelationsMap.at]
    cases rels.lookup n <;> rfl

end

/-- Routing selects exactly the right clients.  After any calls of `add` and `remove`,
a match of a topic name chooses one eligible member from every shared group, an online
one if there is one, and returns the relations of the selected subscriptions. -/
theorem matches_selects (calls : List Call) (env : MatchEnv) (thisId : Id) {topicName : TopicName}
    {topic : Topic} (parsed : Topic.fromStr topicName = .ok topic) (free : topic.WildcardFree) :
    ∃ rels chosen, DefaultRouter._matches env thisId (routerOf calls) topicName = .ok rels ∧
      Chooses env (heldBy calls) thisId topic chosen ∧
      Routes env (heldBy calls) thisId topic chosen rels := by
  have consistent := consistent_routerOf calls
  rcases _matches_eq env thisId (routerOf calls) parsed with ⟨rels, found, nodes, collected⟩
  rw [← held_routerOf]
  exact ⟨rels, _, found, chooses_pick consistent,
    routes_matches consistent parsed free nodes collected⟩

/-- Two overlapping subscriptions of a v5 client give it one relation. -/
theorem matches_selects_overlapping :
    ∃ rels, DefaultRouter._matches ⟨fun _ _ => true, fun _ _ => 0, fun _ => .inOrder,
        fun _ => .inOrder, fun _ => .inOrder⟩ (Id.ofClient 1 "publisher")
      (routerOf [
        .add "a/+" (Id.ofClient 1 "c")
          (.v5 ⟨.atMostOnce, none, none, false, false, .atSubscribe, none⟩),
        .add "a/b" (Id.ofClient 1 "c")
          (.v5 ⟨.atLeastOnce, none, none, true, false, .atSubscribe, none⟩)])
      "a/b" = .ok rels ∧ ∃ rel, relationsOf "c" (SubRelationsMap.at rels 1) = [rel] := by
  obtain ⟨rels, chosen, found, -, routes⟩ := @matches_selects
    [.add "a/+" (Id.ofClient 1 "c")
        (.v5 ⟨.atMostOnce, none, none, false, false, .atSubscribe, none⟩),
      .add "a/b" (Id.ofClient 1 "c")
        (.v5 ⟨.atLeastOnce, none, none, true, false, .atSubscribe, none⟩)]
    ⟨fun _ _ => true, fun _ _ => 0, fun _ => .inOrder, fun _ => .inOrder, fun _ => .inOrder⟩
    (Id.ofClient 1 "publisher") "a/b" ⟨[.normal "a", .normal "b"]⟩
    (by decide) (by decide)
  refine ⟨rels, found, ?_⟩
  have matching : Matching "a/b" ⟨[.normal "a", .normal "b"]⟩ := by
    refine ⟨⟨[.normal "a", .normal "b"]⟩, by decide, ?_, ?_⟩
    · exact .literal rfl (.literal rfl .nil)
    · rintro ⟨⟨l, hl, wild⟩, -⟩
      cases hl
      cases wild
  exact routes.v5 "a/b" "c" (Id.ofClient 1 "c")
    (.v5 ⟨.atLeastOnce, none, none, true, false, .atSubscribe, none⟩)
    ⟨⟨⟨by decide, by decide⟩, matching⟩, fun g hg => by cases hg⟩ rfl

end OxiMqtt.Router

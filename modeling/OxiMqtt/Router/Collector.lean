import OxiMqtt.Codec.V5.Subscribe
import OxiMqtt.Lib.Gather

/-!
# Subscription relations

The data a match hands on, from `types.rs`: client identities, subscription
options, the relations a publish is forwarded along, and the collector that
merges the relations of one node.

`collect` feeds a list of calls to `SubscriptioRelationsCollector::add`.  What it
keeps of a list is `v3Rels_collect` and `lookup_v5Rels_collect`: every v3 call
has its own relation; the v5 calls of a client share the relation of the first of
them, which gains the subscription identifiers of the others.

* `merged_faithfully_iff`: for which calls this merge is faithful, whatever their
  order.
-/

namespace OxiMqtt.Router

open Collections
open OxiMqtt.Codec (QoS NonZeroU32)
open OxiMqtt.Codec.V5 (RetainHandling)

/-! ## Identities and options -/

abbrev NodeId : Type := UInt64
abbrev ListenerId : Type := UInt16
abbrev ClientId : Type := String
abbrev UserName : Type := String
abbrev TimestampMillis : Type := Int
abbrev TopicFilter : Type := String
abbrev TopicName : Type := String
abbrev SharedGroup : Type := String
abbrev SubscriptionIdentifier : Type := NonZeroU32

/-- `SocketAddr` -/
inductive SocketAddr : Type
  | v4 (ip : BitVec 32) (port : UInt16)
  | v6 (ip : BitVec 128) (port : UInt16) (flowinfo scopeId : UInt32)
  deriving DecidableEq, Repr

/-- `Id`; two ids are equal when all their fields are. -/
structure Id : Type where
  nodeId : NodeId
  lid : ListenerId
  localAddr : Option SocketAddr
  remoteAddr : Option SocketAddr
  clientId : ClientId
  username : Option UserName
  createTime : TimestampMillis
  deriving DecidableEq, Repr

/-- `Id::from(node_id, client_id)` -/
def Id.ofClient (nodeId : NodeId) (clientId : ClientId) : Id :=
  ⟨nodeId, 0, none, none, clientId, none, 0⟩

/-- `SubOptionsV3` -/
structure SubOptionsV3 : Type where
  qos : QoS
  sharedGroup : Option SharedGroup
  limitSubs : Option Nat
  deriving DecidableEq, Repr

/-- `SubOptionsV5` -/
structure SubOptionsV5 : Type where
  qos : QoS
  sharedGroup : Option SharedGroup
  limitSubs : Option Nat
  noLocal : Bool
  retainAsPublished : Bool
  retainHandling : RetainHandling
  id : Option SubscriptionIdentifier
  deriving DecidableEq, Repr

/-- `SubscriptionOptions` -/
inductive SubscriptionOptions : Type
  | v3 (opts : SubOptionsV3)
  | v5 (opts : SubOptionsV5)
  deriving DecidableEq, Repr

namespace SubscriptionOptions

/-- `SubscriptionOptions::no_local` -/
def noLocal : SubscriptionOptions → Option Bool
  | v3 _ => none
  | v5 opts => some opts.noLocal

/-- `SubscriptionOptions::retain_as_published` -/
def retainAsPublished : SubscriptionOptions → Option Bool
  | v3 _ => none
  | v5 opts => some opts.retainAsPublished

/-- `SubscriptionOptions::subscription_identifier` -/
def subscriptionIdentifier : SubscriptionOptions → Option SubscriptionIdentifier
  | v3 _ => none
  | v5 opts => opts.id

/-- `SubscriptionOptions::qos` -/
def qos : SubscriptionOptions → QoS
  | v3 opts => opts.qos
  | v5 opts => opts.qos

/-- `SubscriptionOptions::shared_group` -/
def sharedGroup : SubscriptionOptions → Option SharedGroup
  | v3 opts => opts.sharedGroup
  | v5 opts => opts.sharedGroup

/-- `SubscriptionOptions::limit_subs` -/
def limitSubs : SubscriptionOptions → Option Nat
  | v3 opts => opts.limitSubs
  | v5 opts => opts.limitSubs

/-- `SubscriptionOptions::is_v3` -/
def isV3 : SubscriptionOptions → Bool
  | v3 _ => true
  | v5 _ => false

end SubscriptionOptions

/-! ## The collector -/

/-- `SharedGroupType`: the group, whether the chosen member is online, and the
client ids of the group. -/
structure SharedGroupType : Type where
  group : SharedGroup
  isOnline : Bool
  clientIds : List ClientId
  deriving DecidableEq, Repr

/-- `SubRelation` -/
structure SubRelation : Type where
  topicFilter : TopicFilter
  clientId : ClientId
  opts : SubscriptionOptions
  subIds : Option (List SubscriptionIdentifier)
  group : Option SharedGroupType
  deriving DecidableEq, Repr

abbrev SubRelations : Type := List SubRelation

/-- The value of `v5_rels`: a relation without its client. -/
structure V5Relation : Type where
  topicFilter : TopicFilter
  opts : SubscriptionOptions
  subIds : Option (List SubscriptionIdentifier)
  group : Option SharedGroupType
  deriving DecidableEq, Repr

def V5Relation.of (rel : V5Relation) (clientId : ClientId) : SubRelation :=
  ⟨rel.topicFilter, clientId, rel.opts, rel.subIds, rel.group⟩

/-- `SubscriptioRelationsCollector` -/
structure SubscriptioRelationsCollector : Type where
  v3Rels : List SubRelation := []
  v5Rels : Assoc ClientId V5Relation := []
  deriving DecidableEq, Repr

namespace SubscriptioRelationsCollector

/-- `sub_ids.push(sub_id)`, or `Some(vec![sub_id])` where there are none yet. -/
def pushId (subIds : Option (List SubscriptionIdentifier)) :
    Option SubscriptionIdentifier → Option (List SubscriptionIdentifier)
  | none => subIds
  | some subId => some (subIds.getD [] ++ [subId])

/-- `SubscriptioRelationsCollector::add` -/
def add (c : SubscriptioRelationsCollector) (topicFilter : TopicFilter) (clientId : ClientId)
    (opts : SubscriptionOptions) (group : Option SharedGroupType) :
    SubscriptioRelationsCollector :=
  if opts.isV3 then
    { c with v3Rels := c.v3Rels ++ [⟨topicFilter, clientId, opts, none, group⟩] }
  else
    { c with
      v5Rels := c.v5Rels.upsert clientId fun
        | some rel => { rel with subIds := pushId rel.subIds opts.subscriptionIdentifier }
        | none => ⟨topicFilter, opts, opts.subscriptionIdentifier.map ([·]), group⟩ }

/-- `From<SubscriptioRelationsCollector> for SubRelations` -/
def toSubRelations (walk : Walk (ClientId × V5Relation)) (c : SubscriptioRelationsCollector) :
    SubRelations :=
  c.v3Rels ++ (walk.visit c.v5Rels).map fun e => e.2.of e.1

end SubscriptioRelationsCollector

/-- The arguments of a call of `SubscriptioRelationsCollector::add`. -/
structure Feed : Type where
  topicFilter : TopicFilter
  clientId : ClientId
  opts : SubscriptionOptions
  group : Option SharedGroupType
  deriving DecidableEq, Repr

namespace Feed

/-- The relation of a call that is merged with no other. -/
def relation (x : Feed) : SubRelation :=
  ⟨x.topicFilter, x.clientId, x.opts, x.opts.subscriptionIdentifier.map ([·]), x.group⟩

/-- The call is one of the v5 client. -/
def isFor (client : ClientId) (x : Feed) : Bool := !x.opts.isV3 && x.clientId == client

/-- The subscription identifiers of the calls, in their order. -/
def identifiers (feeds : List Feed) : List SubscriptionIdentifier :=
  feeds.filterMap fun x => x.opts.subscriptionIdentifier

/-- The identifier field of a relation with the calls' identifiers. -/
def subIds (feeds : List Feed) : Option (List SubscriptionIdentifier) :=
  match identifiers feeds with
  | [] => none
  | ids => some ids

theorem subIds_singleton (x : Feed) : x.opts.subscriptionIdentifier.map ([·]) = subIds [x] := by
  cases hx : x.opts.subscriptionIdentifier <;> simp [subIds, identifiers, hx]

theorem subIds_getD (feeds : List Feed) : (subIds feeds).getD [] = identifiers feeds := by
  unfold subIds
  split
  · rename_i h
    rw [h]
    rfl
  · rfl

end Feed

/-- The collector a list of calls is fed to. -/
def collectFrom (c : SubscriptioRelationsCollector) (feeds : List Feed) :
    SubscriptioRelationsCollector :=
  feeds.foldl (fun c x => c.add x.topicFilter x.clientId x.opts x.group) c

/-- The collector after a list of calls. -/
def collect (feeds : List Feed) : SubscriptioRelationsCollector := collectFrom {} feeds

/-! ## What the collector keeps -/

/-- What a v5 call does to the relation of its client. -/
def mergeFeed (rel : Option V5Relation) (x : Feed) : V5Relation :=
  match rel with
  | some rel =>
      { rel with
        subIds := SubscriptioRelationsCollector.pushId rel.subIds x.opts.subscriptionIdentifier }
  | none => ⟨x.topicFilter, x.opts, x.opts.subscriptionIdentifier.map ([·]), x.group⟩

theorem collectFrom_eq (c : SubscriptioRelationsCollector) (feeds : List Feed) :
    collectFrom c feeds =
      ⟨c.v3Rels ++ (feeds.filter fun x => x.opts.isV3).map Feed.relation,
        Assoc.gather Feed.clientId mergeFeed (feeds.filter fun x => !x.opts.isV3) c.v5Rels⟩ := by
  induction feeds generalizing c with
  | nil => simp [collectFrom, Assoc.gather]
  | cons x feeds ih =>
      rw [collectFrom, List.foldl_cons, ← collectFrom, ih]
      cases hx : x.opts with
      | v3 opts =>
          simp [SubscriptioRelationsCollector.add, SubscriptionOptions.isV3, Feed.relation, hx,
            SubscriptionOptions.subscriptionIdentifier]
      | v5 opts =>
          simp [SubscriptioRelationsCollector.add, SubscriptionOptions.isV3, Assoc.gather,
            mergeFeed, hx]

/-- Every v3 call has a relation of its own, in the order of the calls. -/
theorem v3Rels_collect (feeds : List Feed) :
    (collect feeds).v3Rels = (feeds.filter fun x => x.opts.isV3).map Feed.relation := by
  rw [collect, collectFrom_eq]
  rfl

theorem nodupKeys_v5Rels_collect (feeds : List Feed) : (collect feeds).v5Rels.NodupKeys := by
  rw [collect, collectFrom_eq]
  exact Assoc.nodupKeys_nil.gather _ _ _

theorem pushId_subIds (feeds : List Feed) (x : Feed) :
    SubscriptioRelationsCollector.pushId (Feed.subIds feeds) x.opts.subscriptionIdentifier =
      Feed.subIds (feeds ++ [x]) := by
  cases hx : x.opts.subscriptionIdentifier with
  | none => simp [SubscriptioRelationsCollector.pushId, Feed.subIds, Feed.identifiers, hx]
  | some id =>
      cases hids : Feed.identifiers feeds <;>
        simp_all [SubscriptioRelationsCollector.pushId, Feed.subIds, Feed.identifiers]

/-- The relation of a client keeps the filter, the options and the group of the
first call, and has the identifiers of all of them. -/
theorem foldl_mergeFeed (seen feeds : List Feed) (rel : V5Relation)
    (ids : rel.subIds = Feed.subIds seen) :
    feeds.foldl (fun o x => some (mergeFeed o x)) (some rel) =
      some { rel with subIds := Feed.subIds (seen ++ feeds) } := by
  induction feeds generalizing seen rel with
  | nil => rw [List.append_nil, ← ids]; rfl
  | cons x feeds ih =>
      have next : (mergeFeed (some rel) x).subIds = Feed.subIds (seen ++ [x]) := by
        rw [mergeFeed, ids, pushId_subIds]
      rw [List.foldl_cons, ih _ _ next, List.append_assoc]
      rfl

theorem filter_isFor (client : ClientId) (feeds : List Feed) :
    ((feeds.filter fun x => !x.opts.isV3).filter fun x => x.clientId = client) =
      feeds.filter (Feed.isFor client) := by
  rw [List.filter_filter]
  refine List.filter_congr fun x _ => ?_
  simp [Feed.isFor, Bool.and_comm, beq_eq_decide]

/-- The relation of a v5 client. -/
theorem lookup_v5Rels_collect (feeds : List Feed) (client : ClientId) :
    (collect feeds).v5Rels.lookup client =
      (feeds.filter (Feed.isFor client)).foldl (fun o x => some (mergeFeed o x)) none := by
  rw [collect, collectFrom_eq, Assoc.lookup_gather, filter_isFor]
  rfl

/-- The single relation of a client with a call: the first call's, with the
identifiers of every call. -/
theorem lookup_v5Rels_of_cons {feeds rest : List Feed} {client : ClientId} {first : Feed}
    (split : feeds.filter (Feed.isFor client) = first :: rest) :
    (collect feeds).v5Rels.lookup client =
      some ⟨first.topicFilter, first.opts, Feed.subIds (first :: rest), first.group⟩ := by
  rw [lookup_v5Rels_collect, split, List.foldl_cons,
    foldl_mergeFeed [first] rest _ (Feed.subIds_singleton first)]
  rfl

theorem lookup_v5Rels_of_nil {feeds : List Feed} {client : ClientId}
    (none_of : feeds.filter (Feed.isFor client) = []) :
    (collect feeds).v5Rels.lookup client = none := by
  rw [lookup_v5Rels_collect, none_of]
  rfl

theorem isV3_of_mem_filter {feeds : List Feed} {client : ClientId} {x : Feed}
    (h : x ∈ feeds.filter (Feed.isFor client)) : x.opts.isV3 = false := by
  have hx := List.of_mem_filter h
  simp only [Feed.isFor, Bool.and_eq_true, Bool.not_eq_true'] at hx
  exact hx.1

/-- The map of v5 relations holds v5 options. -/
theorem isV3_of_lookup {feeds : List Feed} {client : ClientId} {rel : V5Relation}
    (h : (collect feeds).v5Rels.lookup client = some rel) : rel.opts.isV3 = false := by
  cases split : feeds.filter (Feed.isFor client) with
  | nil => rw [lookup_v5Rels_of_nil split] at h; cases h
  | cons first rest =>
      rw [lookup_v5Rels_of_cons split] at h
      cases h
      exact isV3_of_mem_filter (x := first) (by rw [split]; exact List.mem_cons_self)

/-- The relations of a v5 client. -/
def relationsOf (client : ClientId) (rels : SubRelations) : SubRelations :=
  rels.filter fun r => !r.opts.isV3 && r.clientId == client

/-- A v5 client has the one relation that the map holds for it. -/
theorem relationsOf_collect (walk : Walk (ClientId × V5Relation)) (feeds : List Feed)
    (client : ClientId) :
    relationsOf client ((collect feeds).toSubRelations walk) =
      ((collect feeds).v5Rels.lookup client).toList.map fun rel => rel.of client := by
  have keys := nodupKeys_v5Rels_collect feeds
  have v3 : (collect feeds).v3Rels.filter (fun r => !r.opts.isV3 && r.clientId == client) = [] := by
    rw [List.filter_eq_nil_iff, v3Rels_collect]
    intro r hr
    rcases List.mem_map.mp hr with ⟨x, hx, rfl⟩
    simp [Feed.relation, (List.mem_filter.mp hx).2]
  have v5 : ((walk.visit (collect feeds).v5Rels).map fun e => e.2.of e.1).filter
      (fun r => !r.opts.isV3 && r.clientId == client) =
      ((walk.visit (collect feeds).v5Rels).filter fun e => e.1 = client).map fun e => e.2.of e.1 := by
    rw [List.filter_map]
    refine congrArg _ (List.filter_congr fun e he => ?_)
    have held := keys.mem_iff_lookup.mp (walk.mem_visit.mp he)
    simp [V5Relation.of, isV3_of_lookup held, beq_eq_decide]
  rw [relationsOf, SubscriptioRelationsCollector.toSubRelations, List.filter_append, v3, v5,
    (keys.perm (walk.perm _)).filter_key, keys.lookup_perm (walk.perm _)]
  simp

/-! ## Faithful merging -/

/-- A relation stands for the subscriptions that are not shared: it has no group,
the highest of their QoS, and their identifiers. -/
structure Carries (own : List Feed) (r : SubRelation) : Prop where
  ungrouped : r.group = none
  highest : ∀ x ∈ own, x.opts.qos.value ≤ r.opts.qos.value
  granted : ∃ x ∈ own, x.opts.qos = r.opts.qos
  identifiers : (r.subIds.getD []).Perm (Feed.identifiers own)

/-- The relations `rels` of a client keep the calls `feeds` for it: one relation for
those that are not shared, and for each selection from a shared group a relation
of its own. -/
structure MergedFaithfully (feeds : List Feed) (rels : SubRelations) : Prop where
  own : feeds.filter (fun x => x.group.isNone) = [] ∧ rels.filter (fun r => r.group.isNone) = [] ∨
    ∃ r, rels.filter (fun r => r.group.isNone) = [r] ∧
      Carries (feeds.filter fun x => x.group.isNone) r
  shared : (rels.filter fun r => r.group.isSome).Perm
    ((feeds.filter fun x => x.group.isSome).map Feed.relation)

theorem Carries.perm {own own' : List Feed} {r : SubRelation} (h : Carries own r)
    (p : own.Perm own') : Carries own' r where
  ungrouped := h.ungrouped
  highest x hx := h.highest x (p.mem_iff.mpr hx)
  granted := h.granted.imp fun _ hx => ⟨p.mem_iff.mp hx.1, hx.2⟩
  identifiers := h.identifiers.trans (p.filterMap _)

/-- Faithfulness does not depend on the order of the calls. -/
theorem MergedFaithfully.perm {feeds feeds' : List Feed} {rels : SubRelations}
    (h : MergedFaithfully feeds rels) (p : feeds.Perm feeds') : MergedFaithfully feeds' rels where
  own := by
    rcases h.own with ⟨hown, hrels⟩ | ⟨r, hrels, carried⟩
    · refine .inl ⟨?_, hrels⟩
      have := (p.filter fun x => x.group.isNone)
      rw [hown] at this
      exact this.nil_eq.symm
    · exact .inr ⟨r, hrels, carried.perm (p.filter _)⟩
  shared := h.shared.trans ((p.filter _).map _)

/-- The relation that the calls of a client leave: the first call's, with the
identifiers of all. -/
def Feed.merged (first : Feed) (rest : List Feed) : SubRelation :=
  ⟨first.topicFilter, first.clientId, first.opts, Feed.subIds (first :: rest), first.group⟩

theorem Feed.merged_nil (x : Feed) : x.merged [] = x.relation := by
  rw [Feed.merged, Feed.relation, Feed.subIds_singleton]

theorem mergedFaithfully_of_own {first : Feed} {rest : List Feed}
    (own : ∀ x ∈ first :: rest, x.group = none ∧ x.opts.qos.value ≤ first.opts.qos.value) :
    MergedFaithfully (first :: rest) [first.merged rest] := by
  have ungrouped : first.group = none := (own first List.mem_cons_self).1
  have all_own : (first :: rest).filter (fun x => x.group.isNone) = first :: rest := by
    rw [List.filter_eq_self]
    intro x hx
    rw [(own x hx).1]
    rfl
  have none_shared : (first :: rest).filter (fun x => x.group.isSome) = [] := by
    rw [List.filter_eq_nil_iff]
    intro x hx
    rw [(own x hx).1]
    exact Bool.false_ne_true
  refine ⟨.inr ⟨first.merged rest, ?_, ?_⟩, ?_⟩
  · simp [Feed.merged, ungrouped]
  · rw [all_own]
    refine ⟨ungrouped, fun x hx => (own x hx).2, ⟨first, List.mem_cons_self, rfl⟩, ?_⟩
    rw [Feed.merged, Feed.subIds_getD]
  · rw [none_shared]
    simp [Feed.merged, ungrouped]

theorem mergedFaithfully_singleton (x : Feed) : MergedFaithfully [x] [x.merged []] := by
  cases hg : x.group with
  | none =>
      refine mergedFaithfully_of_own fun y hy => ?_
      rw [List.mem_singleton.mp hy]
      exact ⟨hg, UInt8.le_refl _⟩
  | some g =>
      refine ⟨.inl ⟨by simp [hg], by simp [Feed.merged, hg]⟩, ?_⟩
      rw [Feed.merged_nil]
      simp [Feed.relation, hg]

/-- The relation of the first call, with the identifiers of all, is a faithful merge
exactly when no call is shared and the first has the highest QoS, or there is no
other call. -/
theorem mergedFaithfully_cons_iff (first : Feed) (rest : List Feed) :
    MergedFaithfully (first :: rest) [first.merged rest] ↔
      (∀ x ∈ first :: rest, x.group = none ∧ x.opts.qos.value ≤ first.opts.qos.value) ∨
        rest = [] := by
  constructor
  · rintro ⟨own, shared⟩
    cases hg : first.group with
    | none =>
        -- The relation has no group, so no call may have one.
        left
        simp only [Feed.merged, hg, Option.isSome_none, List.filter_cons, Bool.false_eq_true, if_false,
          List.filter_nil] at shared
        have none_shared := List.map_eq_nil_iff.mp shared.nil_eq.symm
        have ungrouped : ∀ x ∈ rest, x.group.isNone = true := by
          intro x hx
          have := List.filter_eq_nil_iff.mp none_shared x hx
          simpa using this
        simp only [Feed.merged, hg, Option.isNone_none, List.filter_cons, if_true, List.filter_nil,
          List.filter_eq_self.mpr ungrouped] at own
        rcases own with ⟨hnil, -⟩ | ⟨r, hr, carried⟩
        · cases hnil
        · cases hr
          intro x hx
          refine ⟨?_, carried.highest x hx⟩
          rcases List.mem_cons.mp hx with rfl | hx
          · exact hg
          · exact Option.isNone_iff_eq_none.mp (ungrouped x hx)
    | some g =>
        -- The relation has a group, so no call is without one, and only one has one.
        right
        simp only [Feed.merged, hg, Option.isNone_some, Option.isSome_some, List.filter_cons,
          Bool.false_eq_true, if_false, if_true, List.filter_nil] at own shared
        rcases own with ⟨hnone, -⟩ | ⟨r, hr, -⟩
        · have grouped : ∀ x ∈ rest, x.group.isSome = true := by
            intro x hx
            have := List.filter_eq_nil_iff.mp hnone x hx
            simpa [Option.isSome_iff_ne_none] using this
          have length := shared.length_eq
          rw [List.filter_eq_self.mpr grouped] at length
          simpa using length
        · cases hr
  · rintro (own | rfl)
    · exact mergedFaithfully_of_own own
    · exact mergedFaithfully_singleton first

theorem relationsOf_of_cons {feeds rest : List Feed} {client : ClientId} {first : Feed}
    (split : feeds.filter (Feed.isFor client) = first :: rest)
    (walk : Walk (ClientId × V5Relation)) :
    relationsOf client ((collect feeds).toSubRelations walk) = [first.merged rest] := by
  have isFor : first.isFor client = true :=
    List.of_mem_filter (by rw [split]; exact List.mem_cons_self)
  simp only [Feed.isFor, Bool.and_eq_true, beq_iff_eq] at isFor
  rw [relationsOf_collect, lookup_v5Rels_of_cons split, ← isFor.2]
  rfl

theorem relationsOf_of_nil {feeds : List Feed} {client : ClientId}
    (none_of : feeds.filter (Feed.isFor client) = []) (walk : Walk (ClientId × V5Relation)) :
    relationsOf client ((collect feeds).toSubRelations walk) = [] := by
  rw [relationsOf_collect, lookup_v5Rels_of_nil none_of]
  rfl

/-- Every relation of a collector is that of some call, up to its identifiers. -/
theorem mem_toSubRelations {feeds : List Feed} {walk : Walk (ClientId × V5Relation)}
    {rel : SubRelation} (h : rel ∈ (collect feeds).toSubRelations walk) :
    ∃ x ∈ feeds, rel.topicFilter = x.topicFilter ∧ rel.clientId = x.clientId ∧
      rel.opts = x.opts ∧ rel.group = x.group := by
  rcases List.mem_append.mp h with v3 | v5
  · rw [v3Rels_collect] at v3
    rcases List.mem_map.mp v3 with ⟨x, hx, rfl⟩
    exact ⟨x, List.mem_of_mem_filter hx, rfl, rfl, rfl, rfl⟩
  · rcases List.mem_map.mp v5 with ⟨⟨client, rel'⟩, hrel, rfl⟩
    have lookup := (nodupKeys_v5Rels_collect feeds).mem_iff_lookup.mp (walk.mem_visit.mp hrel)
    cases split : feeds.filter (Feed.isFor client) with
    | nil => rw [lookup_v5Rels_of_nil split] at lookup; cases lookup
    | cons first rest =>
        rw [lookup_v5Rels_of_cons split] at lookup
        cases lookup
        have mem : first ∈ feeds.filter (Feed.isFor client) := by
          rw [split]
          exact List.mem_cons_self
        have isFor := List.of_mem_filter mem
        simp only [Feed.isFor, Bool.and_eq_true, beq_iff_eq] at isFor
        exact ⟨first, List.mem_of_mem_filter mem, rfl, isFor.2.symm, rfl, rfl⟩

/-- Every v3 relation of a collector is that of a v3 call. -/
theorem filter_v3_toSubRelations (feeds : List Feed) (walk : Walk (ClientId × V5Relation))
    (p : SubRelation → Bool) :
    ((collect feeds).toSubRelations walk).filter (fun rel => rel.opts.isV3 && p rel) =
      (feeds.filter fun x => x.opts.isV3 && p x.relation).map Feed.relation := by
  rw [SubscriptioRelationsCollector.toSubRelations, List.filter_append, v3Rels_collect,
    List.filter_map, List.filter_filter]
  have v5 : ((walk.visit (collect feeds).v5Rels).map fun e => e.2.of e.1).filter
      (fun rel => rel.opts.isV3 && p rel) = [] := by
    rw [List.filter_eq_nil_iff]
    intro rel hrel
    rcases List.mem_map.mp hrel with ⟨e, he, rfl⟩
    have held := (nodupKeys_v5Rels_collect feeds).mem_iff_lookup.mp (walk.mem_visit.mp he)
    simp [V5Relation.of, isV3_of_lookup held]
  rw [v5, List.append_nil]
  refine congrArg _ (List.filter_congr fun x _ => ?_)
  cases h : x.opts.isV3 <;> simp [Feed.relation, h]

theorem qos_eq_of_value_le {q q' : QoS} (h : q.value ≤ q'.value) (h' : q'.value ≤ q.value) :
    q = q' := by
  cases q <;> cases q' <;> first | rfl | exact absurd h (by decide) | exact absurd h' (by decide)

/-- The subscriptions of a v5 client are merged faithfully, whatever the order in
which they are fed to the collector, exactly when none of them is a shared
selection and all have the same QoS, or there is at most one. -/
theorem merged_faithfully_iff (feeds : List Feed) (client : ClientId) :
    (∀ (order : List Feed) (walk : Walk (ClientId × V5Relation)), order.Perm feeds →
      MergedFaithfully (feeds.filter (Feed.isFor client))
        (relationsOf client ((collect order).toSubRelations walk))) ↔
      (∀ x ∈ feeds.filter (Feed.isFor client), ∀ y ∈ feeds.filter (Feed.isFor client),
        x.group = none ∧ x.opts.qos = y.opts.qos) ∨
      (feeds.filter (Feed.isFor client)).length ≤ 1 := by
  constructor
  · intro faithful
    by_cases few : (feeds.filter (Feed.isFor client)).length ≤ 1
    · exact .inr few
    · left
      -- Each call can come first, and then it has no group and the highest QoS.
      have leads : ∀ x ∈ feeds.filter (Feed.isFor client), ∀ y ∈ feeds.filter (Feed.isFor client),
          x.group = none ∧ y.opts.qos.value ≤ x.opts.qos.value := by
        intro x hx y hy
        have order := (List.perm_cons_erase (List.mem_of_mem_filter hx)).symm
        have split : (x :: feeds.erase x).filter (Feed.isFor client) =
            x :: (feeds.erase x).filter (Feed.isFor client) :=
          List.filter_cons_of_pos (List.of_mem_filter hx)
        have calls := order.filter (Feed.isFor client)
        rw [split] at calls
        have merged := faithful _ Walk.inOrder order
        rw [relationsOf_of_cons split] at merged
        rcases (mergedFaithfully_cons_iff _ _).mp (merged.perm calls.symm) with own | alone
        · exact ⟨(own x List.mem_cons_self).1, (own y (calls.mem_iff.mpr hy)).2⟩
        · rw [alone] at calls
          exact absurd calls.length_eq.symm.le few
      intro x hx y hy
      exact ⟨(leads x hx y hy).1, qos_eq_of_value_le (leads y hy x hx).2 (leads x hx y hy).2⟩
  · intro cond order walk perm
    have calls := perm.filter (Feed.isFor client)
    refine MergedFaithfully.perm ?_ calls
    cases split : order.filter (Feed.isFor client) with
    | nil =>
        rw [relationsOf_of_nil split]
        exact ⟨.inl ⟨rfl, rfl⟩, .refl _⟩
    | cons first rest =>
        rw [split] at calls
        rw [relationsOf_of_cons split, mergedFaithfully_cons_iff]
        rcases cond with same | few
        · left
          intro x hx
          have pair := same x (calls.mem_iff.mp hx) first (calls.mem_iff.mp List.mem_cons_self)
          exact ⟨pair.1, by rw [pair.2]; exact UInt8.le_refl _⟩
        · right
          rw [← calls.length_eq, List.length_cons] at few
          exact List.eq_nil_of_length_eq_zero (by omega)

/-- A subscription at QoS 0 that is fed before one at QoS 1 keeps the delivery at
QoS 0. -/
theorem merge_keeps_first_qos :
    ¬ ∀ (feeds order : List Feed) (client : ClientId) (walk : Walk (ClientId × V5Relation)),
      order.Perm feeds →
        MergedFaithfully (feeds.filter (Feed.isFor client))
          (relationsOf client ((collect order).toSubRelations walk)) := by
  intro faithful
  let wide : Feed :=
    ⟨"a/+", "c", .v5 ⟨.atMostOnce, none, none, false, false, .atSubscribe, none⟩, none⟩
  let named : Feed :=
    ⟨"a/b", "c", .v5 ⟨.atLeastOnce, none, none, false, false, .atSubscribe, none⟩, none⟩
  have merged := faithful [wide, named] [wide, named] "c" Walk.inOrder (.refl _)
  rcases merged.own with ⟨none_own, -⟩ | ⟨r, only, carried⟩
  · exact absurd none_own (by decide)
  · have rel : [r] = [wide.merged [named]] := only.symm
    cases rel
    exact absurd (carried.highest named (by decide)) (by decide)

end OxiMqtt.Router

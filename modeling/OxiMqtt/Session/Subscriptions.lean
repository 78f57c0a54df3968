import OxiMqtt.Acl
import OxiMqtt.Lib.Text
import OxiMqtt.Router.Table

/-!
# The subscriptions of a client

SUBSCRIBE and UNSUBSCRIBE from the text of a topic filter to the session map and the router:
`parse_topic_filter`, `SessionState::_subscribe`, `LockEntry::subscribe` and `unsubscribe`, and
`SessionSubs::_add` and `_remove`.  A client is connected once, so that the entry of `peers` for it
is its session.

`parse_topic_filter` takes the group off a shared filter.  What is left is the key of the
subscription in the session map and in the router alike, and the group one of its options; `_add`
counts what it means when a shared subscription takes the place of another one.

* `heldBy`: the subscriptions of a history of requests and their answers, by client and key.
* `subscriptions_by_key`: the session maps and the router hold these after any requests.
* `shared_replaces_plain`: a client that subscribes to `a` and to `$share/g/a`.
-/

namespace OxiMqtt.Session.Subscriptions

open Collections Text
open OxiMqtt.Codec (QoS NonZeroU32 ByteString)
open OxiMqtt.Codec.V5 (SubscribeAckReason)
open Router (TopicFilter SharedGroup ClientId Id SubscriptionOptions DefaultRouter Counter)

/-! ## Topic filters -/

/-- `usize` has `2 ^ 64` values. -/
def usizeSize : Nat := 2 ^ 64

def invalidFilter (topicFilter : ByteString) : String :=
  "Illegal topic filter, " ++ topicFilter.quote

/-- The filter without what `parse_topic_filter` reads in front of it, the group, and the limit. -/
def splitTopicFilter (topicFilter : ByteString) (sharedSubscription limitSubscription : Bool) :
    Except String (TopicFilter × Option SharedGroup × Option Nat) :=
  let levels := (splitn '/' 3 topicFilter.toList).map String.ofList
  match levels with
  | "$share" :: rest =>
      if sharedSubscription then
        match rest with
        | [group, tf] => .ok (tf, some group, none)
        | _ => .error (invalidFilter topicFilter)
      else .error ("Shared subscription is not enabled, " ++ topicFilter.quote)
  | "$limit" :: rest =>
      if limitSubscription then
        match rest with
        | [limit, tf] =>
            match parseUnsigned usizeSize limit.toList with
            | .ok limit => .ok (tf, none, some limit)
            | .error _ => .error (invalidFilter topicFilter)
        | _ => .error (invalidFilter topicFilter)
      else .error ("Limit subscription is not enabled, " ++ topicFilter.quote)
  | "$exclusive" :: _ =>
      if limitSubscription then
        .ok (String.ofList (trimStartMatches "$exclusive/".toList topicFilter.toList), none, some 1)
      else .error ("Limit subscription is not enabled, " ++ topicFilter.quote)
  | _ => .ok (topicFilter, none, none)

/-- `parse_topic_filter` -/
def parseTopicFilter (topicFilter : ByteString) (sharedSubscription limitSubscription : Bool) :
    Except String (TopicFilter × Option SharedGroup × Option Nat) := do
  let parsed ←
    if sharedSubscription || limitSubscription then
      splitTopicFilter topicFilter sharedSubscription limitSubscription
    else .ok (topicFilter, none, none)
  if parsed.1 = "" then .error (invalidFilter topicFilter) else .ok parsed

/-- The key of a shared filter is the filter behind its group. -/
theorem parse_shared {group filter : String} (slashless : '/' ∉ group.toList)
    (nonempty : filter ≠ "") (limitSubscription : Bool) :
    parseTopicFilter ("$share/" ++ group ++ "/" ++ filter) true limitSubscription =
      .ok (filter, some group, none) := by
  have text : ("$share/" ++ group ++ "/" ++ filter).toList =
      "$share".toList ++ '/' :: (group.toList ++ '/' :: filter.toList) := by
    simp [String.toList_append]
  have levels : (splitn '/' 3 ("$share/" ++ group ++ "/" ++ filter).toList).map String.ofList =
      ["$share", group, filter] := by
    rw [text, splitn_append (by decide), splitn_append slashless, splitn]
    simp
  have split : splitTopicFilter ("$share/" ++ group ++ "/" ++ filter) true limitSubscription =
      .ok (filter, some group, none) := by
    rw [splitTopicFilter, levels]
    rfl
  rw [parseTopicFilter, Bool.true_or, if_pos rfl, split]
  change (if filter = "" then _ else _) = _
  rw [if_neg nonempty]

/-- A filter that does not start with `$` is its own key. -/
theorem parse_plain {filter : String} (plain : filter.toList.head? ≠ some '$')
    (nonempty : filter ≠ "") (sharedSubscription limitSubscription : Bool) :
    parseTopicFilter filter sharedSubscription limitSubscription = .ok (filter, none, none) := by
  have other : ∀ (word : String) (rest : List String), word.toList.head? = some '$' →
      (splitn '/' 3 filter.toList).map String.ofList ≠ word :: rest := by
    intro word rest dollar eq
    obtain ⟨first, pieces, split, rfl, -⟩ := List.map_eq_cons_iff.mp eq
    obtain ⟨behind, same⟩ := prefix_of_splitn split
    apply plain
    rw [← same, List.head?_append]
    rw [String.toList_ofList] at dollar
    rw [dollar]
    rfl
  have split : splitTopicFilter filter sharedSubscription limitSubscription =
      .ok (filter, none, none) := by
    unfold splitTopicFilter
    dsimp only
    split
    · rename_i eq
      exact absurd eq (other _ _ rfl)
    · rename_i eq
      exact absurd eq (other _ _ rfl)
    · rename_i eq
      exact absurd eq (other _ _ rfl)
    · rfl
  rw [parseTopicFilter, split, ite_self]
  change (if filter = "" then _ else _) = _
  rw [if_neg nonempty]

/-- `Subscribe` -/
structure Subscribe : Type where
  topicFilter : TopicFilter
  opts : SubscriptionOptions

/-- `SubscriptionOptions::set_qos` -/
def setQos (qos : QoS) : SubscriptionOptions → SubscriptionOptions
  | .v3 opts => .v3 { opts with qos }
  | .v5 opts => .v5 { opts with qos }

@[simp] theorem qos_setQos (qos : QoS) (opts : SubscriptionOptions) : (setQos qos opts).qos = qos := by
  cases opts <;> rfl

@[simp] theorem setQos_setQos (qos qos' : QoS) (opts : SubscriptionOptions) :
    setQos qos (setQos qos' opts) = setQos qos opts := by
  cases opts <;> rfl

/-- `SubscribeReturn` -/
structure SubscribeReturn : Type where
  ackReason : SubscribeAckReason
  prevOpts : Option SubscriptionOptions
  deriving DecidableEq

namespace SubscribeReturn

/-- `SubscribeReturn::new_success` -/
def newSuccess (qos : QoS) (prevOpts : Option SubscriptionOptions) : SubscribeReturn :=
  ⟨Acl.newSuccess qos, prevOpts⟩

/-- `SubscribeReturn::success` -/
def success (ret : SubscribeReturn) : Option QoS :=
  match ret.ackReason with
  | .grantedQos0 => some .atMostOnce
  | .grantedQos1 => some .atLeastOnce
  | .grantedQos2 => some .exactlyOnce
  | _ => none

@[simp] theorem success_newSuccess (qos : QoS) (prevOpts : Option SubscriptionOptions) :
    (newSuccess qos prevOpts).success = some qos := by
  cases qos <;> rfl

end SubscribeReturn

/-! ## The server -/

/-- The configuration of the listener, the id of every client's session, and the answer of the ACL
check to its `n`-th call.  No handler under `src` replaces a filter, so these hooks are left out. -/
structure Env : Type where
  sharedSubscription : Bool
  limitSubscription : Bool
  maxSubscriptions : Nat
  maxTopicLevels : Nat
  maxQosAllowed : QoS
  idOf : ClientId → Id
  clientId_idOf : ∀ c, (idOf c).clientId = c
  clientSubscribeCheckAcl : Nat → ClientId → Subscribe → Option SubscribeReturn

/-- The router, the subscription map of every client's session, the two statistics of `_add` and
`_remove`, and the number of ACL checks so far. -/
structure State : Type where
  router : DefaultRouter := {}
  subs : ClientId → Assoc TopicFilter SubscriptionOptions := fun _ => []
  subscriptions : Counter := {}
  subscriptionsShared : Counter := {}
  calls : Nat := 0

/-- The errors of `_subscribe`. -/
inductive SubscribeError : Type
  | tooManySubscriptions
  | tooManyTopicLevels
  | subscribeLimited (text : String)
  | topic (e : TopicError)
  deriving DecidableEq

namespace State

/-- `SessionSubs::_add` -/
def addSub (s : State) (c : ClientId) (topicFilter : TopicFilter) (opts : SubscriptionOptions) :
    State × Option SubscriptionOptions :=
  let prev := (s.subs c).lookup topicFilter
  let s := { s with subs := Function.update s.subs c ((s.subs c).insert topicFilter opts) }
  let isShared := opts.sharedGroup.isSome
  let s :=
    match prev with
    | some prevOpts =>
        match prevOpts.sharedGroup.isSome, isShared with
        | true, false => { s with subscriptionsShared := s.subscriptionsShared.dec }
        | false, true => { s with subscriptionsShared := s.subscriptionsShared.inc }
        | false, false => s
        | true, true => s
    | none =>
        { s with
          subscriptions := s.subscriptions.inc
          subscriptionsShared :=
            if isShared then s.subscriptionsShared.inc else s.subscriptionsShared }
  (s, prev)

/-- `SessionSubs::_remove` -/
def removeSub (s : State) (c : ClientId) (topicFilter : TopicFilter) :
    State × Option SubscriptionOptions :=
  let removed := (s.subs c).lookup topicFilter
  let s := { s with subs := Function.update s.subs c ((s.subs c).erase topicFilter) }
  let s :=
    match removed with
    | some opts =>
        { s with
          subscriptions := s.subscriptions.dec
          subscriptionsShared :=
            if opts.sharedGroup.isSome then s.subscriptionsShared.dec else s.subscriptionsShared }
    | none => s
  (s, removed)

def withRouter (s : State) (router : DefaultRouter) : State := { s with router }

/-- The subscription of a client in its session map. -/
def held (s : State) (c : ClientId) (f : TopicFilter) : Option SubscriptionOptions :=
  (s.subs c).lookup f

end State

variable (env : Env)

/-- `LockEntry::subscribe` -/
def entrySubscribe (s : State) (c : ClientId) (sub : Subscribe) :
    State × Except SubscribeError SubscribeReturn :=
  match s.router.add sub.topicFilter (env.idOf c) sub.opts with
  | .error e => (s, .error (.topic e))
  | .ok router =>
      let added := (s.withRouter router).addSub c sub.topicFilter sub.opts
      (added.1, .ok (.newSuccess sub.opts.qos added.2))

/-- `LockEntry::unsubscribe`; an error of the router is logged. -/
def entryUnsubscribe (s : State) (c : ClientId) (topicFilter : TopicFilter) : State × Bool :=
  let router := (s.router.remove topicFilter (env.idOf c)).1
  let removed := (s.withRouter router).removeSub c topicFilter
  (removed.1, removed.2.isSome)

/-- The bound on the levels of a filter. -/
def checkTopicLevels (topicFilter : TopicFilter) : Except SubscribeError Unit :=
  if env.maxTopicLevels > 0 then
    match Topic.fromStr topicFilter with
    | .error e => .error (.topic e)
    | .ok topic =>
        if topic.levels.length > env.maxTopicLevels then .error .tooManyTopicLevels else .ok ()
  else .ok ()

/-- The bound that the filter itself puts on the clients that subscribe to it. -/
def checkLimitSubs (s : State) (c : ClientId) (sub : Subscribe) : Except SubscribeError Unit :=
  match sub.opts.limitSubs with
  | none => .ok ()
  | some limit =>
      let (allow, count) : Bool × Nat :=
        match s.router.relations.lookup sub.topicFilter with
        | some rels =>
            if (rels.lookup c).isSome then (true, rels.length - 1)
            else (rels.length < limit, rels.length)
        | none => (true, 0)
      if allow then .ok ()
      else
        .error (.subscribeLimited ("limited: " ++ toString limit ++ ", current count: " ++
          toString count ++ ", topic_filter: " ++ sub.topicFilter))

/-- The checks at the start of `_subscribe`. -/
def checkSubscribe (s : State) (c : ClientId) (sub : Subscribe) : Except SubscribeError Unit := do
  if env.maxSubscriptions > 0 ∧ (s.subs c).length ≥ env.maxSubscriptions then
    .error .tooManySubscriptions
  checkTopicLevels env sub.topicFilter
  checkLimitSubs s c sub

/-- `SessionState::_subscribe` -/
def subscribe (s : State) (c : ClientId) (sub : Subscribe) :
    State × Except SubscribeError SubscribeReturn :=
  match checkSubscribe env s c sub with
  | .error e => (s, .error e)
  | .ok () =>
      let sub := { sub with opts := setQos (sub.opts.qos.lessValue env.maxQosAllowed) sub.opts }
      let acl := env.clientSubscribeCheckAcl s.calls c sub
      let s := { s with calls := s.calls + 1 }
      match acl with
      | none => entrySubscribe env s c sub
      | some ret =>
          match ret.success with
          | some qos =>
              entrySubscribe env s c { sub with opts := setQos (sub.opts.qos.lessValue qos) sub.opts }
          | none => (s, .ok ret)

/-! ## Requests -/

/-- A topic filter of a SUBSCRIBE or an UNSUBSCRIBE. -/
inductive Request : Type
  | subscribeV3 (topicFilter : ByteString) (qos : QoS)
  | subscribeV5 (topicFilter : ByteString) (opts : Codec.V5.SubscriptionOptions)
      (subId : Option NonZeroU32)
  | unsubscribe (topicFilter : ByteString)

/-- The key of a request and, for a SUBSCRIBE, its options: `Subscribe::from_v3`, `from_v5` and
`Unsubscribe::from`. -/
def Request.parse : Request → Except String (TopicFilter × Option SubscriptionOptions)
  | .subscribeV3 topicFilter qos => do
      let (key, group, limit) ←
        parseTopicFilter topicFilter env.sharedSubscription env.limitSubscription
      return (key, some (.v3 ⟨qos, group, limit⟩))
  | .subscribeV5 topicFilter opts subId => do
      let (key, group, limit) ←
        parseTopicFilter topicFilter env.sharedSubscription env.limitSubscription
      return (key, some (.v5 ⟨opts.qos, group, limit, opts.noLocal, opts.retainAsPublished,
        opts.retainHandling, subId⟩))
  | .unsubscribe topicFilter => do
      let (key, _, _) ← parseTopicFilter topicFilter env.sharedSubscription env.limitSubscription
      return (key, none)

/-- What a request is answered: the packet is refused for its filter, `subscribe` returns, or
`unsubscribe` says whether there was a subscription. -/
inductive Answer : Type
  | refused (text : String)
  | subscribed (ret : Except SubscribeError SubscribeReturn)
  | unsubscribed (removeOk : Bool)

/-- `subscribes_v3`, `subscribes_v5`, `unsubscribes_v3` and `unsubscribes_v5` on one filter. -/
def serve (s : State) (c : ClientId) (request : Request) : State × Answer :=
  match request.parse env with
  | .error text => (s, .refused text)
  | .ok (topicFilter, some opts) =>
      let r := subscribe env s c ⟨topicFilter, opts⟩
      (r.1, .subscribed r.2)
  | .ok (topicFilter, none) =>
      let r := entryUnsubscribe env s c topicFilter
      (r.1, .unsubscribed r.2)

/-- The requests that were served, with the client of each and the answer. -/
abbrev History : Type := List (ClientId × Request × Answer)

/-- The next request of a client. -/
def next (run : State × History) (request : ClientId × Request) : State × History :=
  let r := serve env run.1 request.1 request.2
  (r.1, run.2 ++ [(request.1, request.2, r.2)])

/-- The server and the history after any requests. -/
def run (requests : List (ClientId × Request)) : State × History := requests.foldl (next env) ({}, [])

/-! ## The subscriptions of a history -/

/-- A subscription of every client at every key. -/
abbrev Table : Type := ClientId → TopicFilter → Option SubscriptionOptions

def Table.set (table : Table) (c : ClientId) (key : TopicFilter)
    (opts : Option SubscriptionOptions) : Table :=
  fun c' f => if c' = c ∧ f = key then opts else table c' f

/-- A granted SUBSCRIBE puts its options, with the QoS that was granted, at its key. -/
def Table.grant (table : Table) (c : ClientId) (key : TopicFilter) (opts : SubscriptionOptions) :
    Except SubscribeError SubscribeReturn → Table
  | .error _ => table
  | .ok ret =>
      match ret.success with
      | some qos => table.set c key (some (setQos qos opts))
      | none => table

/-- What a request does to the subscriptions; an UNSUBSCRIBE clears its key. -/
def record (table : Table) : ClientId × Request × Answer → Table
  | (c, request, answer) =>
      match request.parse env, answer with
      | .ok (key, some opts), .subscribed ret => table.grant c key opts ret
      | .ok (key, none), .unsubscribed _ => table.set c key none
      | _, _ => table

/-- The subscriptions of a history. -/
def heldBy (history : History) : Table := history.foldl (record env) fun _ _ => none

theorem heldBy_snoc (history : History) (entry : ClientId × Request × Answer) :
    heldBy env (history ++ [entry]) = record env (heldBy env history) entry := by
  rw [heldBy, List.foldl_append]
  rfl

/-! ## One request -/

/-- The router holds for every client what its session map holds, with the id of its session. -/
structure Agrees (s : State) : Prop where
  consistent : s.router.Consistent
  same : ∀ c f, s.router.held f c = (s.held c f).map fun opts => (env.idOf c, opts)

theorem subs_addSub (s : State) (c : ClientId) (f : TopicFilter) (opts : SubscriptionOptions) :
    (s.addSub c f opts).1.held = Table.set s.held c f (some opts) ∧
      (s.addSub c f opts).1.router = s.router := by
  have fields : (s.addSub c f opts).1.subs = Function.update s.subs c ((s.subs c).insert f opts) ∧
      (s.addSub c f opts).1.router = s.router := by
    unfold State.addSub
    dsimp only
    split
    · split <;> exact ⟨rfl, rfl⟩
    · exact ⟨rfl, rfl⟩
  refine ⟨?_, fields.2⟩
  funext c' f'
  rw [State.held, fields.1, Table.set]
  by_cases hc : c' = c
  · rw [hc, Function.update_self]
    by_cases hf : f' = f
    · rw [hf, Assoc.lookup_insert_self, if_pos ⟨rfl, rfl⟩]
    · rw [Assoc.lookup_insert_of_ne _ _ hf, if_neg fun h => hf h.2]
      rfl
  · rw [Function.update_of_ne hc, if_neg fun h => hc h.1]
    rfl

theorem subs_removeSub (s : State) (c : ClientId) (f : TopicFilter) :
    (s.removeSub c f).1.held = Table.set s.held c f none ∧
      (s.removeSub c f).1.router = s.router := by
  have fields : (s.removeSub c f).1.subs = Function.update s.subs c ((s.subs c).erase f) ∧
      (s.removeSub c f).1.router = s.router := by
    unfold State.removeSub
    dsimp only
    split <;> exact ⟨rfl, rfl⟩
  refine ⟨?_, fields.2⟩
  funext c' f'
  rw [State.held, fields.1, Table.set]
  by_cases hc : c' = c
  · rw [hc, Function.update_self]
    by_cases hf : f' = f
    · rw [hf, Assoc.lookup_erase_self, if_pos ⟨rfl, rfl⟩]
    · rw [Assoc.lookup_erase_of_ne _ hf, if_neg fun h => hf h.2]
      rfl
  · rw [Function.update_of_ne hc, if_neg fun h => hc h.1]
    rfl

variable {env} {s : State} {c : ClientId}

/-- An id stands for its client alone. -/
theorem held_set (agrees : Agrees env s) (key : TopicFilter) (opts : Option SubscriptionOptions)
    (c' : ClientId) (f : TopicFilter) :
    s.router.held.set key (env.idOf c).clientId (opts.map fun opts => (env.idOf c, opts)) f c' =
      (Table.set s.held c key opts c' f).map fun opts => (env.idOf c', opts) := by
  rw [Router.Holdings.set_apply, Table.set, env.clientId_idOf]
  by_cases here : c' = c ∧ f = key
  · rw [if_pos here, if_pos ⟨here.2, here.1⟩, here.1]
  · rw [if_neg here, if_neg fun h => here ⟨h.2, h.1⟩]
    exact agrees.same c' f

theorem entrySubscribe_cases (agrees : Agrees env s) (sub : Subscribe) :
    (∃ e, entrySubscribe env s c sub = (s, .error e)) ∨
      ∃ s' ret, entrySubscribe env s c sub = (s', .ok ret) ∧ ret.success = some sub.opts.qos ∧
        Agrees env s' ∧ s'.held = Table.set s.held c sub.topicFilter (some sub.opts) := by
  unfold entrySubscribe
  cases added : s.router.add sub.topicFilter (env.idOf c) sub.opts with
  | error e => exact .inl ⟨_, rfl⟩
  | ok router =>
      obtain ⟨held, same⟩ := subs_addSub (s.withRouter router) c sub.topicFilter sub.opts
      refine .inr ⟨((s.withRouter router).addSub c sub.topicFilter sub.opts).1, _, rfl,
        SubscribeReturn.success_newSuccess _ _, ⟨?_, ?_⟩, held⟩
      · rw [same]
        exact agrees.consistent.add added
      · intro c' f
        rw [same, held, State.withRouter, DefaultRouter.held_add added]
        exact held_set agrees sub.topicFilter (some sub.opts) c' f

theorem entryUnsubscribe_spec (agrees : Agrees env s) (key : TopicFilter) :
    Agrees env (entryUnsubscribe env s c key).1 ∧
      (entryUnsubscribe env s c key).1.held = Table.set s.held c key none ∧
      (entryUnsubscribe env s c key).2 = (s.held c key).isSome := by
  obtain ⟨held, same⟩ :=
    subs_removeSub (s.withRouter (s.router.remove key (env.idOf c)).1) c key
  refine ⟨⟨?_, ?_⟩, held, rfl⟩
  · rw [entryUnsubscribe, same]
    exact agrees.consistent.remove key (env.idOf c)
  · intro c' f
    rw [entryUnsubscribe, same, held, State.withRouter]
    rw [DefaultRouter.held_remove agrees.consistent, Router.Call.record]
    split
    · exact held_set agrees key none c' f
    · rename_i absent
      have missing : s.held c key = none := by
        rw [env.clientId_idOf, agrees.same] at absent
        cases h : s.held c key with
        | none => rfl
        | some opts => simp [h] at absent
      rw [agrees.same c' f, Table.set]
      by_cases here : c' = c ∧ f = key
      · rw [here.1, here.2, missing, if_pos ⟨rfl, rfl⟩]
      · rw [if_neg here]
        rfl

theorem entrySubscribe_spec (agrees : Agrees env s) {key : TopicFilter} {opts : SubscriptionOptions}
    (qos : QoS) :
    Agrees env (entrySubscribe env s c ⟨key, setQos qos opts⟩).1 ∧
      (entrySubscribe env s c ⟨key, setQos qos opts⟩).1.held =
        Table.grant s.held c key opts (entrySubscribe env s c ⟨key, setQos qos opts⟩).2 := by
  rcases entrySubscribe_cases (c := c) agrees ⟨key, setQos qos opts⟩ with
    ⟨e, eq⟩ | ⟨s', ret, eq, success, agrees', held⟩
  · rw [eq]
    exact ⟨agrees, rfl⟩
  · rw [eq]
    refine ⟨agrees', ?_⟩
    rw [held, Table.grant, success]
    simp

theorem subscribe_spec (agrees : Agrees env s) (key : TopicFilter) (opts : SubscriptionOptions) :
    Agrees env (subscribe env s c ⟨key, opts⟩).1 ∧
      (subscribe env s c ⟨key, opts⟩).1.held =
        Table.grant s.held c key opts (subscribe env s c ⟨key, opts⟩).2 := by
  have called : Agrees env { s with calls := s.calls + 1 } := ⟨agrees.consistent, agrees.same⟩
  unfold subscribe
  cases checkSubscribe env s c ⟨key, opts⟩ with
  | error e => exact ⟨agrees, rfl⟩
  | ok _ =>
      dsimp only
      split
      · exact entrySubscribe_spec called _
      · rename_i ret _
        cases success : ret.success with
        | some qos =>
            dsimp only
            rw [setQos_setQos]
            exact entrySubscribe_spec called _
        | none =>
            refine ⟨called, ?_⟩
            rw [Table.grant, success]
            rfl

/-- One request does to the session maps what `record` says, and the router agrees again. -/
theorem serve_spec (agrees : Agrees env s) (c : ClientId) (request : Request) :
    Agrees env (serve env s c request).1 ∧
      (serve env s c request).1.held = record env s.held (c, request, (serve env s c request).2) ∧
      ∀ key, request.parse env = .ok (key, none) →
        (serve env s c request).2 = .unsubscribed (s.held c key).isSome := by
  cases parsed : request.parse env with
  | error text =>
      have served : serve env s c request = (s, .refused text) := by rw [serve, parsed]
      have recorded : record env s.held (c, request, .refused text) = s.held := by
        simp only [record, parsed]
      rw [served, recorded]
      refine ⟨agrees, rfl, ?_⟩
      intro key eq
      cases eq
  | ok entry =>
      rcases entry with ⟨key, _ | opts⟩
      · have served : serve env s c request = ((entryUnsubscribe env s c key).1,
            .unsubscribed (entryUnsubscribe env s c key).2) := by rw [serve, parsed]
        have recorded : ∀ removeOk, record env s.held (c, request, .unsubscribed removeOk) =
            Table.set s.held c key none := by
          intro removeOk
          simp only [record, parsed]
        obtain ⟨agrees', held, answer⟩ := entryUnsubscribe_spec (c := c) agrees key
        rw [served, recorded]
        refine ⟨agrees', held, ?_⟩
        intro key' eq
        cases eq
        rw [answer]
      · have served : serve env s c request = ((subscribe env s c ⟨key, opts⟩).1,
            .subscribed (subscribe env s c ⟨key, opts⟩).2) := by rw [serve, parsed]
        have recorded : ∀ ret, record env s.held (c, request, .subscribed ret) =
            Table.grant s.held c key opts ret := by
          intro ret
          simp only [record, parsed]
        obtain ⟨agrees', held⟩ := subscribe_spec (c := c) agrees key opts
        rw [served, recorded]
        refine ⟨agrees', held, ?_⟩
        intro key' eq
        cases eq

/-! ## Any requests -/

/-- After some requests with this history: the session maps are the table of the history, and every
UNSUBSCRIBE was told whether the table before it had its key. -/
structure Keyed (env : Env) (s : State) (history : History) : Prop where
  agrees : Agrees env s
  held : s.held = heldBy env history
  told : ∀ before c request answer after key,
    history = before ++ (c, request, answer) :: after → request.parse env = .ok (key, none) →
      answer = .unsubscribed (heldBy env before c key).isSome

theorem keyed_empty (env : Env) : Keyed env {} [] where
  agrees := ⟨Router.consistent_empty, fun _ _ => rfl⟩
  held := rfl
  told before c request answer after key eq := by simp at eq

theorem Keyed.next {history : History} (keyed : Keyed env s history)
    (request : ClientId × Request) :
    Keyed env (next env (s, history) request).1 (next env (s, history) request).2 := by
  obtain ⟨agrees, held, answer⟩ := serve_spec keyed.agrees request.1 request.2
  refine ⟨agrees, ?_, ?_⟩
  · change (serve env s request.1 request.2).1.held =
      heldBy env (history ++ [(request.1, request.2, (serve env s request.1 request.2).2)])
    rw [held, heldBy_snoc, keyed.held]
  · intro before c request' answer' after key eq parsed
    rcases List.eq_nil_or_concat after with rfl | ⟨after', last, rfl⟩
    · obtain ⟨rfl, same⟩ := List.append_inj' eq rfl
      cases same
      rw [← keyed.held]
      exact answer key parsed
    · refine keyed.told before c request' answer' after' key ?_ parsed
      have split : (before ++ (c, request', answer') :: after') ++ [last] =
          before ++ (c, request', answer') :: (after' ++ [last]) := by simp
      rw [List.concat_eq_append, ← split] at eq
      exact (List.append_inj' eq rfl).1

theorem keyed_run (env : Env) (requests : List (ClientId × Request)) :
    Keyed env (run env requests).1 (run env requests).2 := by
  have all : ∀ run : State × History, Keyed env run.1 run.2 →
      Keyed env (requests.foldl (Subscriptions.next env) run).1
        (requests.foldl (Subscriptions.next env) run).2 := by
    induction requests with
    | nil => exact fun _ h => h
    | cons request requests ih => exact fun run h => ih _ (h.next request)
  exact all ({}, []) (keyed_empty env)

theorem requests_run (env : Env) (requests : List (ClientId × Request)) :
    (run env requests).2.map (fun entry => (entry.1, entry.2.1)) = requests := by
  have all : ∀ run : State × History,
      (requests.foldl (next env) run).2.map (fun entry => (entry.1, entry.2.1)) =
        run.2.map (fun entry => (entry.1, entry.2.1)) ++ requests := by
    induction requests with
    | nil =>
        intro run
        rw [List.foldl_nil, List.append_nil]
    | cons request requests ih =>
        intro run
        rw [List.foldl_cons, ih, next, List.map_append, List.append_assoc]
        rfl
  exact all ({}, [])

/-- After any requests of any clients, the session map of a client and its relations in the router
are the subscriptions of the history, where a subscription is kept by the client and the key of its
filter.  The key of a shared filter is the filter behind the group.  An UNSUBSCRIBE says whether
there was a subscription at its key. -/
theorem subscriptions_by_key (env : Env) (requests : List (ClientId × Request)) :
    (∀ shared limit filter, filter ≠ "" → filter.toList.head? ≠ some '$' →
        parseTopicFilter filter shared limit = .ok (filter, none, none)) ∧
      (∀ limit group filter, filter ≠ "" → '/' ∉ group.toList →
        parseTopicFilter ("$share/" ++ group ++ "/" ++ filter) true limit =
          .ok (filter, some group, none)) ∧
      (run env requests).2.map (fun entry => (entry.1, entry.2.1)) = requests ∧
      (∀ c f, (run env requests).1.held c f = heldBy env (run env requests).2 c f ∧
        (run env requests).1.router.held f c =
          (heldBy env (run env requests).2 c f).map fun opts => (env.idOf c, opts)) ∧
      ∀ before c request answer after key,
        (run env requests).2 = before ++ (c, request, answer) :: after →
          request.parse env = .ok (key, none) →
            answer = .unsubscribed (heldBy env before c key).isSome := by
  have keyed := keyed_run env requests
  refine ⟨?_, ?_, requests_run env requests, ?_, keyed.told⟩
  · intro shared limit filter nonempty plain
    exact parse_plain plain nonempty shared limit
  · intro limit group filter nonempty slashless
    exact parse_shared slashless nonempty limit
  · intro c f
    rw [← keyed.held]
    exact ⟨rfl, keyed.agrees.same c f⟩

/-- A listener with shared subscriptions, and no ACL handler. -/
def exampleEnv : Env where
  sharedSubscription := true
  limitSubscription := false
  maxSubscriptions := 0
  maxTopicLevels := 0
  maxQosAllowed := .exactlyOnce
  idOf := Id.ofClient 1
  clientId_idOf _ := rfl
  clientSubscribeCheckAcl _ _ _ := none

def subscribeTwice : List (ClientId × Request) :=
  [("c", .subscribeV3 "a" .atLeastOnce), ("c", .subscribeV3 "$share/g/a" .atLeastOnce)]

/-- A client subscribes to `a`, and then to `$share/g/a`.  Both are granted and only the second one
is held; an UNSUBSCRIBE from `a` removes that, with success. -/
theorem shared_replaces_plain :
    (run exampleEnv subscribeTwice).1.subs "c" = [("a", .v3 ⟨.atLeastOnce, some "g", none⟩)] ∧
      (run exampleEnv subscribeTwice).1.router.held "a" "c" =
        some (Id.ofClient 1 "c", .v3 ⟨.atLeastOnce, some "g", none⟩) ∧
      (run exampleEnv (subscribeTwice ++ [("c", .unsubscribe "a")])).1.subs "c" = [] ∧
      (run exampleEnv (subscribeTwice ++ [("c", .unsubscribe "a")])).2.map (fun e => e.2.2) =
        [.subscribed (.ok ⟨.grantedQos1, none⟩),
          .subscribed (.ok ⟨.grantedQos1, some (.v3 ⟨.atLeastOnce, none, none⟩)⟩),
          .unsubscribed true] := by
  exact ⟨by decide, by decide, by decide, rfl⟩

end OxiMqtt.Session.Subscriptions

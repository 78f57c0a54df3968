import OxiMqtt.Lib.Machine
import OxiMqtt.Router.Table

/-!
# Subscriptions across a takeover

The subscriptions of a client are in the router and in the map of its session.  Three tasks change
them: the clean-up of an old session (`SessionState::clean`), the handshake of a new connection with
the same client id (`LockEntry::kick`, `entry.set`, the state transfer), and the task of the new
session with its SUBSCRIBE and UNSUBSCRIBE requests.  Each call of the router, each access to
`peers` and each update of a session's map is one step, and the steps of the tasks interleave.  What
a task reads from a map that no other task changes any more is read in the step before.

* `Settled`: the tasks are done.
* `Orderly`: the condition on a step.  Two steps go wrong: a request on a filter that the state
  transfer still holds, which the transfer then undoes, and the clean-up's removal of a filter from
  the map of the new session, which `_unsubscribe` finds by the client id alone.
-/

namespace OxiMqtt.Session.SubscriptionTakeover

open Collections
open Router (ClientId TopicFilter Id SubscriptionOptions Relation DefaultRouter Parses)

/-! ## The tasks -/

/-- The two sessions of the client id. -/
inductive Side : Type
  | old
  | new
  deriving DecidableEq, Repr

/-- `SessionSubMap`, and the `Subscriptions` that are taken from it. -/
abbrev Subs : Type := Assoc TopicFilter SubscriptionOptions

/-- The two sessions' ids, and the clean start flag of the new connection. -/
structure Setup : Type where
  oldId : Id
  newId : Id
  cleanStart : Bool
  sameClient : newId.clientId = oldId.clientId
  distinct : newId ≠ oldId

namespace Setup

def clientId (setup : Setup) : ClientId := setup.oldId.clientId

def idOf (setup : Setup) : Side → Id
  | .old => setup.oldId
  | .new => setup.newId

end Setup

/-- Where the loop of `_remove` or `_remove_with` over the filters of a session is: before the next
filter, after the router's removal in `_unsubscribe`, and after `session()` found one. -/
inductive Clearing : Type
  | next (rest : List TopicFilter)
  | session (topicFilter : TopicFilter) (rest : List TopicFilter)
  | update (topicFilter : TopicFilter) (rest : List TopicFilter) (found : Side)
  deriving DecidableEq, Repr

/-- Where `clean` of the old session is: not begun, after `id_same`, in the loop of `_remove_with`
for the session it removed, or not to come any more. -/
inductive Clean : Type
  | idle
  | checked
  | clearing (side : Side) (clearing : Clearing)
  | done
  deriving DecidableEq, Repr

/-- Where the new connection is: in its handshake up to `online`, and then in its task. -/
inductive Conn : Type
  /-- In `kick`, before `_remove`. -/
  | start
  /-- In the loop of `_remove`, for the session it removed. -/
  | clearing (side : Side) (clearing : Clearing)
  /-- In `_drain` of the session that was removed, with what was taken so far. -/
  | draining (side : Side) (rest : List TopicFilter) (subs : Subs)
  /-- `kick` returned, with the subscriptions of an offline info. -/
  | kicked (offline : Option Subs)
  /-- After `entry.set`. -/
  | connected (offline : Option Subs)
  /-- The task waits for a packet or a message. -/
  | online
  /-- In the loop of `transfer_session_state`. -/
  | adding (added todo : Subs)
  /-- In `_extend`. -/
  | extending (todo : Subs)
  /-- In `subscribe`, with the session of the peer, before and after the router's call. -/
  | subscribing (topicFilter : TopicFilter) (opts : SubscriptionOptions) (side : Side)
  | subscribed (topicFilter : TopicFilter) (opts : SubscriptionOptions) (side : Side)
  /-- The same in `unsubscribe`. -/
  | unsubscribing (topicFilter : TopicFilter) (side : Side)
  | unsubscribed (topicFilter : TopicFilter) (side : Side)
  deriving DecidableEq, Repr

/-- The router, the entry of `peers`, the maps of the two sessions, where the tasks are, and the
`SessionStateTransfer` in the channel of the new session.  `acked` is a record that no branch reads:
the last acknowledged request on every filter, a SUBSCRIBE with its options. -/
structure State : Type where
  router : DefaultRouter
  peer : Option Side
  subs : Side → Subs
  clean : Clean
  conn : Conn
  transfer : Option Subs
  acked : TopicFilter → Option (Option SubscriptionOptions)

/-- A step of one of the tasks. -/
inductive Action : Type
  /-- The next step of the old session's clean-up. -/
  | clean
  /-- The old session answers the Kick, and will not clean up. -/
  | answer
  /-- The next step of the new connection. -/
  | connection
  /-- The new session takes up the `SessionStateTransfer`. -/
  | transfer
  /-- It takes up a SUBSCRIBE. -/
  | subscribe (topicFilter : TopicFilter) (opts : SubscriptionOptions)
  /-- It takes up an UNSUBSCRIBE. -/
  | unsubscribe (topicFilter : TopicFilter)
  deriving DecidableEq, Repr

namespace State

/-- `subscriptions_add` of a session. -/
def addSub (s : State) (side : Side) (topicFilter : TopicFilter) (opts : SubscriptionOptions) :
    State :=
  { s with subs := Function.update s.subs side ((s.subs side).insert topicFilter opts) }

/-- `subscriptions_remove` of a session. -/
def removeSub (s : State) (side : Side) (topicFilter : TopicFilter) : State :=
  { s with subs := Function.update s.subs side ((s.subs side).erase topicFilter) }

/-- `to_topic_filters` of a session. -/
def topicFilters (s : State) (side : Side) : List TopicFilter := (s.subs side).map Prod.fst

/-- The request is acknowledged. -/
def ack (s : State) (topicFilter : TopicFilter) (opts : Option SubscriptionOptions) : State :=
  { s with acked := Function.update s.acked topicFilter (some opts), conn := .online }

end State

/-- One step of the loop of `_unsubscribe` with the id of the session that was removed, and where it
is then, unless it is at its end.  An error of the router ends the `_unsubscribe`. -/
def Clearing.step (s : State) (id : Id) : Clearing → State × Option Clearing
  | next [] => (s, none)
  | next (topicFilter :: rest) =>
      let removed := s.router.remove topicFilter id
      ({ s with router := removed.1 },
        match removed.2 with
        | .ok _ => some (session topicFilter rest)
        | .error _ => some (next rest))
  | session topicFilter rest =>
      (s,
        match s.peer with
        | some found => some (update topicFilter rest found)
        | none => some (next rest))
  | update topicFilter rest found => (s.removeSub found topicFilter, some (next rest))

section

variable (setup : Setup)

/-- The end of `SessionState::clean`, with `remove_with`. -/
def cleanStep (s : State) : Option State :=
  match s.clean with
  | .idle =>
      if s.peer.map setup.idOf = some setup.oldId then some { s with clean := .checked }
      else some { s with clean := .done }
  | .checked =>
      match s.peer with
      | some side =>
          if setup.idOf side = setup.oldId then
            some { s with peer := none, clean := .clearing side (.next (s.topicFilters side)) }
          else some { s with clean := .done }
      | none => some { s with clean := .done }
  | .clearing side clearing =>
      let r := clearing.step s (setup.idOf side)
      some { r.1 with
        clean :=
          match r.2 with
          | some clearing => .clearing side clearing
          | none => .done }
  | .done => none

/-- The new connection: `kick` with `_remove` and `to_offline_info`, `entry.set` and the sending of
the `SessionStateTransfer`, and then what the task of the session is at. -/
def connectionStep (s : State) : Option State :=
  match s.conn with
  | .start =>
      match s.peer with
      | some side =>
          if setup.cleanStart then
            some { s with peer := none, conn := .clearing side (.next (s.topicFilters side)) }
          else some { s with peer := none, conn := .draining side (s.topicFilters side) [] }
      | none => some { s with conn := .kicked none }
  | .clearing side clearing =>
      let r := clearing.step s (setup.idOf side)
      some { r.1 with
        conn :=
          match r.2 with
          | some clearing => .clearing side clearing
          | none => .kicked none }
  | .draining side (topicFilter :: rest) subs =>
      match (s.subs side).lookup topicFilter with
      | some opts =>
          some { s.removeSub side topicFilter with
            conn := .draining side rest (subs ++ [(topicFilter, opts)]) }
      | none => some { s with conn := .draining side rest subs }
  | .draining _ [] subs => some { s with conn := .kicked (some subs) }
  | .kicked offline => some { s with peer := some .new, conn := .connected offline }
  | .connected offline => some { s with transfer := offline, conn := .online }
  | .online => none
  | .adding added ((topicFilter, opts) :: todo) =>
      let conn := .adding (added ++ [(topicFilter, opts)]) todo
      match s.router.add topicFilter setup.newId opts with
      | .ok router => some { s with router, conn }
      | .error _ => some { s with conn }
  | .adding added [] => some { s with conn := .extending added }
  | .extending ((topicFilter, opts) :: todo) =>
      some { s.addSub .new topicFilter opts with conn := .extending todo }
  | .extending [] => some { s with conn := .online }
  | .subscribing topicFilter opts side =>
      match s.router.add topicFilter setup.newId opts with
      | .ok router => some { s with router, conn := .subscribed topicFilter opts side }
      | .error _ => some { s with conn := .online }
  | .subscribed topicFilter opts side =>
      some ((s.addSub side topicFilter opts).ack topicFilter (some opts))
  | .unsubscribing topicFilter side =>
      some { s with
        router := (s.router.remove topicFilter setup.newId).1
        conn := .unsubscribed topicFilter side }
  | .unsubscribed topicFilter side => some ((s.removeSub side topicFilter).ack topicFilter none)

/-- One step.  The task of the new session takes up a message or a request when it is at none, and a
request fails where there is no peer. -/
def step (s : State) : Action → Option State
  | .clean => cleanStep setup s
  | .answer =>
      match s.conn, s.clean, s.peer with
      | .start, .idle, some .old => some { s with clean := .done }
      | _, _, _ => none
  | .connection => connectionStep setup s
  | .transfer =>
      match s.conn, s.transfer with
      | .online, some subs =>
          some { s with
            transfer := none
            conn := if setup.cleanStart then .online else .adding [] subs }
      | _, _ => none
  | .subscribe topicFilter opts =>
      match s.conn, s.peer with
      | .online, some side => some { s with conn := .subscribing topicFilter opts side }
      | .online, none => some s
      | _, _ => none
  | .unsubscribe topicFilter =>
      match s.conn, s.peer with
      | .online, some side => some { s with conn := .unsubscribing topicFilter side }
      | .online, none => some s
      | _, _ => none

end

/-- The old session is the peer, and has these subscriptions. -/
def initial (router : DefaultRouter) (subs : Subs) : State where
  router := router
  peer := some .old
  subs side := match side with
    | .old => subs
    | .new => []
  clean := .idle
  conn := .start
  transfer := none
  acked _ := none

/-- No task has a step to take but a request or a clean-up that has not begun. -/
def Settled (s : State) : Prop :=
  (s.clean = .idle ∨ s.clean = .done) ∧ s.conn = .online ∧ s.transfer = none

instance (s : State) : Decidable (Settled s) :=
  inferInstanceAs (Decidable ((_ ∨ _) ∧ _ ∧ _))

/-- The filter that the next step of the clean-up removes from the new session's map. -/
def Clean.removes : Clean → Option TopicFilter
  | clearing _ (.update topicFilter _ .new) => some topicFilter
  | _ => none

/-- The condition on a step: the filter of a request is not one that the `SessionStateTransfer` in
the channel holds, and the clean-up does not remove a filter that the new session's map holds. -/
def Orderly (s : State) : Action → Prop
  | .subscribe topicFilter _ | .unsubscribe topicFilter =>
      topicFilter ∉ (s.transfer.getD []).map Prod.fst
  | .clean => ∀ topicFilter ∈ s.clean.removes, (s.subs .new).lookup topicFilter = none
  | .answer | .connection | .transfer => True

instance (s : State) : (a : Action) → Decidable (Orderly s a)
  | .subscribe _ _ | .unsubscribe _ => inferInstanceAs (Decidable (_ ∉ _))
  | .clean => inferInstanceAs (Decidable (∀ topicFilter ∈ s.clean.removes, _))
  | .answer | .connection | .transfer => isTrue trivial

end OxiMqtt.Session.SubscriptionTakeover

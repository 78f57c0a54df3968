import OxiMqtt.Session.SubscriptionInvariant

/-!
# The router and the session agree after a takeover

* `Inv.step`: every orderly step keeps the invariant.
* `takeover_agrees`: when the tasks are done, the router and the map of the new session hold the
  same subscriptions, and at every filter those that were last acknowledged.
-/

namespace OxiMqtt.Session.SubscriptionTakeover

open Collections
open Router (TopicFilter SubscriptionOptions DefaultRouter Parses)

section

variable {setup : Setup} {subs : Subs} {s : State} {side : Side}

/-! ## The task of the new session -/

/-- The new session adds a subscription to the router. -/
theorem Inv.addNew (inv : Inv setup subs s) {f : TopicFilter} {opts : SubscriptionOptions}
    {router : DefaultRouter} {before conn : Conn}
    (ok : s.router.add f setup.newId opts = .ok router) (here : s.conn = before)
    (peer : s.peer = some .new) (undrained : ∀ g, ¬ before.drains g)
    (due : conn.due f = some (some opts))
    (elsewhere : ∀ g, g ≠ f → conn.due g = before.due g)
    (pending : ∀ g, g ≠ f → g ∈ before.pending → g ∈ conn.pending)
    (carried : ∀ e ∈ conn.carried, e ∈ before.carried) (phase : s.ConnPhase setup conn) :
    Inv setup subs { s with router, conn } := by
  refine { inv with
    consistent := inv.consistent.add ok
    agrees := fun g => (inv.agrees g).add ok (fun same => ?_) fun other => ⟨?_, fun stale => ?_⟩
    carried := fun e mem => inv.carried e ?_
    connPhase := phase }
  · rw [same, State.expected, due]
    rfl
  · rw [State.expected, State.expected, here, elsewhere g other]
  · apply stale.move
    · rfl
    · rfl
    · intro moving
      rw [here] at moving
      exact pending g other moving
    · intro unread
      exact absurd unread (not_unread (by simp [peer]) (by rw [here]; exact undrained g))
  · rw [State.carried, List.mem_append] at mem ⊢
    rw [here]
    exact mem.imp_left (carried e)

/-- The new session makes the update of its map that was due. -/
theorem Inv.updateNew (inv : Inv setup subs s) {before conn : Conn} {map : Subs}
    {acked : TopicFilter → Option (Option SubscriptionOptions)} (here : s.conn = before)
    (peer : s.peer = some .new) (undrained : ∀ g, ¬ before.drains g) (idle : before.pending = [])
    (expected : ∀ g, (conn.due g).getD (map.lookup g) =
      (before.due g).getD ((s.subs .new).lookup g))
    (carried : ∀ e ∈ conn.carried ++ s.transfer.getD [],
      subs.lookup e.1 = some e.2 ∧ setup.cleanStart = false ∧ acked e.1 = none)
    (reflects : ∀ g opts, acked g = some opts → map.lookup g = opts)
    (phase : ({ s with acked } : State).ConnPhase setup conn) :
    Inv setup subs { s with subs := Function.update s.subs .new map, conn, acked } := by
  refine { inv with
    agrees := fun g => ?_
    inherited := fun g opts held => inv.inherited g opts (by simpa using held)
    carried := carried
    acked := reflects
    connPhase := phase }
  have agrees := inv.agrees g
  rw [State.expected, here, ← expected] at agrees
  apply agrees.mono
  intro stale
  apply stale.move
  · rfl
  · rfl
  · intro moving
    rw [here, idle] at moving
    cases moving
  · intro unread
    exact absurd unread (not_unread (by simp [peer]) (by rw [here]; exact undrained g))

/-- What a list of the old session's subscriptions has at a filter that it held. -/
theorem lookup_carried {list : Subs} {f : TopicFilter} {opts : SubscriptionOptions}
    (inherited : ∀ e ∈ list, subs.lookup e.1 = some e.2) (held : subs.lookup f = some opts) :
    list.lookup f = none ∨ list.lookup f = some opts := by
  cases found : list.lookup f with
  | none => exact .inl rfl
  | some opts' =>
      have same := inherited _ (Assoc.mem_of_lookup found)
      rw [held] at same
      exact .inr same.symm

/-- `transfer_session_state` adds a filter to the router. -/
theorem Inv.transferAdd (inv : Inv setup subs s) {f : TopicFilter} {opts : SubscriptionOptions}
    {added todo : Subs} {router : DefaultRouter}
    (here : s.conn = .adding added ((f, opts) :: todo))
    (ok : s.router.add f setup.newId opts = .ok router) :
    Inv setup subs { s with router, conn := .adding (added ++ [(f, opts)]) todo } := by
  have peer := inv.phaseAt here
  have carried := inv.carried
  rw [State.carried, here] at carried
  have inherited : ∀ e ∈ added ++ (f, opts) :: todo, subs.lookup e.1 = some e.2 :=
    fun e mem => (carried e (List.mem_append_left _ mem)).1
  have held : subs.lookup f = some opts :=
    inherited (f, opts) (List.mem_append_right _ List.mem_cons_self)
  apply inv.addNew ok here peer
  · exact fun g => id
  · have found := lookup_carried (fun e mem => inherited e (List.mem_append_left _ mem)) held
    rw [Conn.due, List.lookup_append]
    rcases found with found | found
    · simp [found]
    · simp [found]
  · intro g other
    rw [Conn.due, Conn.due, List.lookup_append]
    simp [List.lookup_cons, beq_eq_false_iff_ne.mpr other]
  · intro g other mem
    exact List.mem_of_ne_of_mem other mem
  · intro e mem
    rw [Conn.carried, List.append_assoc] at mem
    exact mem
  · exact peer

/-- `_extend` puts a subscription into the map. -/
theorem Inv.extendOne (inv : Inv setup subs s) {f : TopicFilter} {opts : SubscriptionOptions}
    {todo : Subs} (here : s.conn = .extending ((f, opts) :: todo)) :
    Inv setup subs { s.addSub .new f opts with conn := .extending todo } := by
  have peer := inv.phaseAt here
  have carried := inv.carried
  rw [State.carried, here] at carried
  obtain ⟨held, -, unacked⟩ := carried (f, opts) List.mem_cons_self
  have rest := fun e mem => carried e (List.mem_cons_of_mem _ mem)
  apply inv.updateNew here peer
  · exact fun g => id
  · rfl
  · intro g
    rw [Conn.due, Conn.due]
    by_cases same : g = f
    · have found := lookup_carried (fun e mem => (rest e (List.mem_append_left _ mem)).1) held
      rw [same]
      rcases found with found | found
      · simp [found]
      · simp [found]
    · rw [Assoc.lookup_insert_of_ne _ _ same, List.lookup_cons, beq_eq_false_iff_ne.mpr same]
  · exact rest
  · intro g x acked
    have other : g ≠ f := by
      intro same
      rw [same] at acked
      cases unacked.symm.trans acked
    rw [Assoc.lookup_insert_of_ne _ _ other]
    exact inv.acked g x acked
  · exact peer

/-- The new session makes the update that a request asks for, and acknowledges it. -/
theorem Inv.acknowledge (inv : Inv setup subs s) {f : TopicFilter}
    {opts : Option SubscriptionOptions} {map : Subs} {before : Conn} (here : s.conn = before)
    (requests : s.Requests f side) (undrained : ∀ g, ¬ before.drains g)
    (idle : before.pending = [])
    (due : ∀ g, before.due g = if g = f then some opts else none) (updated : map.lookup f = opts)
    (elsewhere : ∀ g, g ≠ f → map.lookup g = (s.subs .new).lookup g) :
    Inv setup subs
      { s with
        subs := Function.update s.subs .new map
        conn := .online
        acked := Function.update s.acked f (some opts) } := by
  obtain ⟨-, peer, apart⟩ := requests
  apply inv.updateNew here peer undrained idle
  · intro g
    rw [due]
    by_cases same : g = f
    · rw [if_pos same, same]
      exact updated
    · rw [if_neg same]
      exact elsewhere g same
  · intro e mem
    have other : e.1 ≠ f := by
      intro same
      rw [← same] at apart
      exact apart (List.mem_map_of_mem mem)
    obtain ⟨held, keeps, unacked⟩ := inv.carried e (List.mem_append_right _ mem)
    rw [Function.update_of_ne other]
    exact ⟨held, keeps, unacked⟩
  · intro g x acked
    by_cases same : g = f
    · rw [same, Function.update_self] at acked
      rw [same, updated]
      exact Option.some.inj acked
    · rw [Function.update_of_ne same] at acked
      rw [elsewhere g same]
      exact inv.acked g x acked
  · exact peer

/-- A step of the task that only changes what it is at. -/
theorem Inv.turn (inv : Inv setup subs s) {before conn : Conn} (here : s.conn = before)
    (peer : s.peer = some .new) (undrained : ∀ f, ¬ before.drains f)
    (due : ∀ f, conn.due f = before.due f) (idle : before.pending = [])
    (carried : ∀ e ∈ conn.carried, e ∈ before.carried) (phase : s.ConnPhase setup conn) :
    Inv setup subs { s with conn } := by
  apply inv.handOn here
  · simp [peer]
  · exact undrained
  · exact due
  · intro f pends
    rw [idle] at pends
    rcases pends with moving | sent
    · cases moving
    · exact .inr sent
  · intro e mem
    rw [List.mem_append] at mem ⊢
    exact mem.imp_left (carried e)
  · exact phase
  · exact .inl rfl

theorem Inv.subscribing (inv : Inv setup subs s) {s' : State} {f : TopicFilter}
    {opts : SubscriptionOptions} (here : s.conn = .subscribing f opts side)
    (stepped : connectionStep setup s = some s') : Inv setup subs s' := by
  have requests := inv.phaseAt here
  have peer := requests.2.1
  simp only [connectionStep, here] at stepped
  split at stepped
  · rename_i router ok
    cases stepped
    apply inv.addNew ok here peer
    · exact fun g => id
    · exact if_pos rfl
    · exact fun g other => if_neg other
    · exact fun g other => id
    · exact fun e => id
    · exact requests
  · cases stepped
    apply inv.turn here peer
    · exact fun g => id
    · exact fun g => rfl
    · rfl
    · exact fun e => id
    · exact peer

theorem Inv.unsubscribing (inv : Inv setup subs s) {f : TopicFilter}
    (here : s.conn = .unsubscribing f side) :
    Inv setup subs
      { s with
        router := (s.router.remove f setup.newId).1
        conn := .unsubscribed f side } := by
  have requests := inv.phaseAt here
  have gone : s.peer ≠ some .old := by simp [requests.2.1]
  refine { inv with
    consistent := inv.consistent.remove f setup.newId
    agrees := fun g =>
      (inv.agrees g).removeNew inv.consistent f (fun same => ?_) (fun other => ?_) fun stale => ?_
    carried := fun e mem => inv.carried e (by rw [State.carried, here]; exact mem)
    connPhase := requests }
  · simp [State.expected, Conn.due, same]
  · simp [State.expected, Conn.due, other, here]
  · apply stale.move
    · rfl
    · rfl
    · intro moving
      rw [here] at moving
      exact moving
    · intro unread
      exact absurd unread (not_unread gone (by rw [here]; exact id))

/-- The task takes up the `SessionStateTransfer`. -/
theorem Inv.takeTransfer (inv : Inv setup subs s) {sent : Subs} (here : s.conn = .online)
    (channel : s.transfer = some sent) :
    Inv setup subs
      { s with
        transfer := none
        conn := if setup.cleanStart then .online else .adding [] sent } := by
  have peer := inv.phaseAt here
  have gone : s.peer ≠ some .old := by simp [show s.peer = some .new from peer]
  have carried : s.carried = sent := by
    rw [State.carried, here, channel]
    rfl
  cases clean : setup.cleanStart with
  | true =>
      apply inv.handOn here gone
      · exact fun f => id
      · exact fun f => rfl
      · intro f pends
        -- nothing is carried with a clean start
        rw [State.sent, channel] at pends
        rcases pends with moving | mem
        · cases moving
        · obtain ⟨e, mem, -⟩ := List.mem_map.mp mem
          have keeps := (inv.carried e (by rw [carried]; exact mem)).2.1
          rw [clean] at keeps
          cases keeps
      · intro e mem
        cases mem
      · exact peer
      · exact .inl rfl
  | false =>
      apply inv.handOn here gone
      · exact fun f => id
      · exact fun f => rfl
      · intro f pends
        rw [State.sent, channel] at pends
        rcases pends with moving | mem
        · cases moving
        · exact .inl mem
      · intro e mem
        rw [channel]
        simpa [Conn.carried] using mem
      · exact peer
      · exact .inl rfl

/-- The task takes up a request on a filter. -/
theorem Inv.takeRequest (inv : Inv setup subs s) {f : TopicFilter} {conn : Conn}
    (here : s.conn = .online) (apart : f ∉ s.sent) (due : ∀ g, conn.due g = none)
    (carried : conn.carried = []) (phase : s.Requests f .new → s.ConnPhase setup conn) :
    Inv setup subs { s with conn } := by
  have peer := inv.phaseAt here
  apply inv.turn here peer
  · exact fun g => id
  · exact due
  · rfl
  · intro e mem
    rw [carried] at mem
    exact mem
  · exact phase ⟨rfl, peer, apart⟩

/-! ## One step -/

theorem Inv.startStep {s' : State} (inv : Inv setup subs s) (here : s.conn = .start)
    (stepped : connectionStep setup s = some s') : Inv setup subs s' := by
  obtain ⟨other, early⟩ := inv.phaseAt here
  simp only [connectionStep, here] at stepped
  split at stepped
  · rename_i side peer
    cases side with
    | new => exact absurd peer other
    | old =>
        split at stepped
        · cases stepped
          exact inv.kickOld here (fun f => rfl) rfl (fun f held => .inl (mem_topicFilters held))
            ⟨rfl, rfl, rfl, early⟩
        · rename_i keeps
          cases stepped
          exact inv.kickOld here (fun f => rfl) rfl (fun f held => .inr (mem_topicFilters held))
            ⟨rfl, by simpa using keeps, rfl, early⟩
  · rename_i peer
    cases stepped
    apply inv.handOn here
    · simp [peer]
    · exact fun f => id
    · exact fun f => rfl
    · exact fun f => id
    · exact fun e => id
    · exact ⟨peer, early⟩
    · exact .inl rfl

theorem Inv.drainingStep {s' : State} (inv : Inv setup subs s) {rest : List TopicFilter}
    {taken : Subs} (here : s.conn = .draining side rest taken)
    (stepped : connectionStep setup s = some s') : Inv setup subs s' := by
  cases rest with
  | nil =>
      obtain ⟨-, -, peer, early⟩ := inv.phaseAt here
      simp only [connectionStep, here] at stepped
      cases stepped
      apply inv.handOn here
      · simp [peer]
      · intro f drained
        cases drained
      · exact fun f => rfl
      · exact fun f => id
      · exact fun e => id
      · exact ⟨peer, early⟩
      · exact .inl rfl
  | cons f rest =>
      simp only [connectionStep, here] at stepped
      split at stepped
      · rename_i opts held
        cases stepped
        exact inv.drainOne here held
      · rename_i absent
        cases stepped
        exact inv.drainNone here absent

theorem Inv.addingStep {s' : State} (inv : Inv setup subs s) {added todo : Subs}
    (parsed : ∀ f opts, subs.lookup f = some opts → Parses f)
    (here : s.conn = .adding added todo) (stepped : connectionStep setup s = some s') :
    Inv setup subs s' := by
  cases todo with
  | nil =>
      have peer := inv.phaseAt here
      simp only [connectionStep, here] at stepped
      cases stepped
      apply inv.turn here peer
      · exact fun f => id
      · exact fun f => rfl
      · rfl
      · exact fun e mem => List.mem_append_left _ mem
      · exact peer
  | cons e todo =>
      obtain ⟨f, opts⟩ := e
      simp only [connectionStep, here] at stepped
      split at stepped
      · rename_i router ok
        cases stepped
        exact inv.transferAdd here ok
      · rename_i error
        -- the filter is one of the old session, which the router had accepted
        have mem : (f, opts) ∈ s.carried := by
          rw [State.carried, here]
          exact List.mem_append_left _ (List.mem_append_right _ List.mem_cons_self)
        have parses := parsed f opts (inv.carried (f, opts) mem).1
        exact absurd parses (Router.DefaultRouter.add_error error)

theorem Inv.connectionStep {s' : State} (inv : Inv setup subs s)
    (parsed : ∀ f opts, subs.lookup f = some opts → Parses f)
    (stepped : connectionStep setup s = some s') : Inv setup subs s' := by
  cases here : s.conn with
  | start => exact inv.startStep here stepped
  | clearing side loop =>
      simp only [SubscriptionTakeover.connectionStep, here] at stepped
      cases stepped
      exact inv.connLoop here
  | draining side rest taken => exact inv.drainingStep here stepped
  | kicked offline =>
      obtain ⟨peer, early⟩ := inv.phaseAt here
      simp only [SubscriptionTakeover.connectionStep, here] at stepped
      cases stepped
      apply inv.handOn here
      · simp [peer]
      · exact fun f => id
      · exact fun f => rfl
      · exact fun f => id
      · exact fun e => id
      · exact ⟨rfl, early⟩
      · exact .inr (by simp)
  | connected offline =>
      obtain ⟨peer, early⟩ := inv.phaseAt here
      simp only [SubscriptionTakeover.connectionStep, here] at stepped
      cases stepped
      apply inv.handOn here
      · simp [peer]
      · exact fun f => id
      · exact fun f => rfl
      · intro f pends
        rw [State.sent, early.1] at pends
        rcases pends with moving | sent
        · exact .inr moving
        · cases sent
      · exact fun e mem => List.mem_append_left _ mem
      · exact peer
      · exact .inl rfl
  | online =>
      simp only [SubscriptionTakeover.connectionStep, here] at stepped
      cases stepped
  | adding added todo => exact inv.addingStep parsed here stepped
  | extending todo =>
      simp only [SubscriptionTakeover.connectionStep, here] at stepped
      cases todo with
      | nil =>
          have peer := inv.phaseAt here
          cases stepped
          apply inv.turn here peer
          · exact fun f => id
          · exact fun f => rfl
          · rfl
          · exact fun e => id
          · exact peer
      | cons e todo =>
          cases stepped
          exact inv.extendOne here
  | subscribing f opts side => exact inv.subscribing here stepped
  | subscribed f opts side =>
      have requests := inv.phaseAt here
      simp only [SubscriptionTakeover.connectionStep, here] at stepped
      cases stepped
      cases requests.1
      apply inv.acknowledge here requests
      · exact fun g => id
      · rfl
      · exact fun g => rfl
      · exact Assoc.lookup_insert_self ..
      · exact fun g other => Assoc.lookup_insert_of_ne _ _ other
  | unsubscribing f side =>
      simp only [SubscriptionTakeover.connectionStep, here] at stepped
      cases stepped
      exact inv.unsubscribing here
  | unsubscribed f side =>
      have requests := inv.phaseAt here
      simp only [SubscriptionTakeover.connectionStep, here] at stepped
      cases stepped
      cases requests.1
      apply inv.acknowledge here requests
      · exact fun g => id
      · rfl
      · exact fun g => rfl
      · exact Assoc.lookup_erase_self ..
      · exact fun g other => Assoc.lookup_erase_of_ne _ other

theorem Inv.step {s' : State} {a : Action} (inv : Inv setup subs s)
    (parsed : ∀ f opts, subs.lookup f = some opts → Parses f) (orderly : Orderly s a)
    (stepped : step setup s a = some s') : Inv setup subs s' := by
  cases a with
  | clean => exact inv.cleanStep orderly stepped
  | answer =>
      simp only [SubscriptionTakeover.step] at stepped
      split at stepped
      · rename_i idle _
        cases stepped
        exact inv.setClean (fun f mem => by rw [idle] at mem; cases mem) trivial
      · cases stepped
  | connection => exact inv.connectionStep parsed stepped
  | transfer =>
      simp only [SubscriptionTakeover.step] at stepped
      split at stepped
      · rename_i here channel
        cases stepped
        exact inv.takeTransfer here channel
      · cases stepped
  | subscribe f opts =>
      simp only [SubscriptionTakeover.step] at stepped
      split at stepped
      · rename_i here peer
        cases peer.symm.trans (inv.phaseAt here)
        cases stepped
        exact inv.takeRequest here orderly (fun g => rfl) rfl id
      · cases stepped
        exact inv
      · cases stepped
  | unsubscribe f =>
      simp only [SubscriptionTakeover.step] at stepped
      split at stepped
      · rename_i here peer
        cases peer.symm.trans (inv.phaseAt here)
        cases stepped
        exact inv.takeRequest here orderly (fun g => rfl) rfl id
      · cases stepped
        exact inv
      · cases stepped

end

/-! ## Whole runs -/

section

variable {setup : Setup} {router : DefaultRouter} {subs : Subs}

theorem parses_of_held (consistent : router.Consistent)
    (held : ∀ f, router.held f setup.clientId =
      (subs.lookup f).map fun opts => (setup.oldId, opts)) :
    ∀ f opts, subs.lookup f = some opts → Parses f := by
  intro f opts found
  have rel := held f
  rw [found] at rel
  obtain ⟨rels, lookup, -⟩ := Option.bind_eq_some_iff.mp rel
  exact consistent.parsed f rels lookup

theorem Inv.initial (consistent : router.Consistent)
    (held : ∀ f, router.held f setup.clientId =
      (subs.lookup f).map fun opts => (setup.oldId, opts)) :
    Inv setup subs (initial router subs) where
  consistent := consistent
  agrees f := by
    have rel := held f
    cases found : subs.lookup f with
    | none =>
        rw [found] at rel
        exact .inl rel
    | some opts =>
        rw [found] at rel
        have isSome : (subs.lookup f).isSome := Option.isSome_of_eq_some found
        exact .inr ⟨rfl, .inr (.inr (.inl ⟨isSome, .inl rfl⟩)), opts, rel⟩
  inherited f opts found := found
  carried e mem := by cases mem
  acked f opts acked := by cases acked
  connPhase := ⟨by simp [SubscriptionTakeover.initial], rfl, fun f => rfl⟩
  cleanPhase := trivial

/-- When the tasks are done, the invariant leaves nothing stale. -/
theorem Inv.settled {s : State} (inv : Inv setup subs s) (settled : Settled s) :
    s.peer = some .new ∧
      ∀ f, s.router.held f setup.clientId =
        ((s.subs .new).lookup f).map fun opts => (setup.newId, opts) := by
  obtain ⟨clean, online, received⟩ := settled
  have peer : s.peer = some .new := inv.phaseAt online
  refine ⟨peer, fun f => ?_⟩
  have expected : s.expected f = (s.subs .new).lookup f := by
    rw [State.expected, online]
    rfl
  rcases inv.agrees f with same | ⟨-, stale, -⟩
  · rw [expected] at same
    exact same
  · exfalso
    rcases stale with listed | moving | unread | sent
    · rcases clean with idle | done
      · rw [idle] at listed
        cases listed
      · rw [done] at listed
        cases listed
    · rw [online] at moving
      cases moving
    · exact not_unread (by simp [peer]) (by rw [online]; exact id) unread
    · rw [State.sent, received] at sent
      cases sent

/-- Let the old session be the peer, with the subscriptions that the router holds for the client,
and take any run of the tasks whose steps are all orderly.  When the tasks are done, the new session
is the peer, the router holds for the client the subscriptions of its map with its id, and at every
filter with an acknowledged request both hold what the last one asked for. -/
theorem takeover_agrees (setup : Setup) (router : DefaultRouter) (subs : Subs)
    (consistent : router.Consistent)
    (held : ∀ f, router.held f setup.clientId =
      (subs.lookup f).map fun opts => (setup.oldId, opts))
    (actions : List Action) (s : State)
    (orderly : Machine.Guarded (step setup) Orderly (initial router subs) actions)
    (ran : Machine.run (step setup) (initial router subs) actions = some s)
    (settled : Settled s) :
    s.peer = some .new ∧
      (∀ f, s.router.held f setup.clientId =
        ((s.subs .new).lookup f).map fun opts => (setup.newId, opts)) ∧
      ∀ f opts, s.acked f = some opts → (s.subs .new).lookup f = opts := by
  have parsed := parses_of_held consistent held
  have keep : ∀ s a s', Inv setup subs s → Orderly s a → step setup s a = some s' →
      Inv setup subs s' := fun s a s' inv orderly stepped => inv.step parsed orderly stepped
  have inv := Machine.invariant_guarded keep orderly ran (Inv.initial consistent held)
  obtain ⟨peer, agrees⟩ := inv.settled settled
  exact ⟨peer, agrees, inv.acked⟩

end

/-! ## A run that meets the condition, and two that do not -/

/-- Two connections of a client, the second one without clean start. -/
def exampleSetup : Setup where
  oldId := Router.Id.ofClient 1 "c"
  newId := { Router.Id.ofClient 1 "c" with createTime := 1 }
  cleanStart := false
  sameClient := rfl
  distinct := by decide

def optsOf (qos : Codec.QoS) : SubscriptionOptions := .v3 ⟨qos, none, none⟩

/-- The subscription that the first session made. -/
def exampleSubs : Subs := [("a", optsOf .atMostOnce)]

def exampleRouter : DefaultRouter :=
  Router.routerOf [.add "a" exampleSetup.oldId (optsOf .atMostOnce)]

theorem held_exampleRouter (f : TopicFilter) :
    exampleRouter.held f exampleSetup.clientId =
      (exampleSubs.lookup f).map fun opts => (exampleSetup.oldId, opts) := by
  have parses : Parses "a" := by decide
  rw [exampleRouter, Router.held_routerOf]
  simp only [Router.heldBy, List.foldl, Router.Call.record, if_pos parses,
    Router.Holdings.set_apply, exampleSubs, List.lookup_cons, List.lookup_nil]
  by_cases same : f = "a"
  · subst same
    rfl
  · rw [if_neg (fun h => same h.1), beq_eq_false_iff_ne.mpr same]
    rfl

/-- The clean-up of the expired session begins, the client connects again and takes the session
over, and subscribes again when it has received the state. -/
def resumes : List Action :=
  [.clean] ++ List.replicate 5 .connection ++ [.clean, .transfer] ++ List.replicate 4 .connection ++
    [.subscribe "a" (optsOf .atLeastOnce), .connection, .connection]

theorem takeover_agrees_resumes :
    ∃ s ∈ Machine.run (step exampleSetup) (initial exampleRouter exampleSubs) resumes,
      s.acked "a" = some (some (optsOf .atLeastOnce)) ∧
        s.peer = some .new ∧
        (∀ f, s.router.held f exampleSetup.clientId =
          ((s.subs .new).lookup f).map fun opts => (exampleSetup.newId, opts)) ∧
        ∀ f opts, s.acked f = some opts → (s.subs .new).lookup f = opts := by
  have settles : ∃ s ∈ Machine.run (step exampleSetup) (initial exampleRouter exampleSubs) resumes,
      Settled s ∧ s.acked "a" = some (some (optsOf .atLeastOnce)) := by decide
  obtain ⟨s, ran, settled, acked⟩ := settles
  have consistent : exampleRouter.Consistent := Router.consistent_routerOf _
  have orderly : Machine.Guarded (step exampleSetup) Orderly (initial exampleRouter exampleSubs)
      resumes := by decide
  have agrees := takeover_agrees exampleSetup exampleRouter exampleSubs consistent
    held_exampleRouter resumes s orderly ran settled
  exact ⟨s, ran, acked, agrees⟩

/-- The clean-up of the expired session removes it from `peers`; the client connects again and
subscribes, and then the clean-up reaches the filter. -/
def expires : List Action :=
  [.clean, .clean] ++ List.replicate 3 .connection ++
    [.subscribe "a" (optsOf .atLeastOnce), .connection, .connection] ++ List.replicate 4 .clean

/-- The client takes the session over and unsubscribes before its task has taken up the
`SessionStateTransfer`. -/
def overtakes : List Action :=
  [.answer] ++ List.replicate 5 .connection ++
    [.unsubscribe "a", .connection, .connection, .transfer] ++ List.replicate 4 .connection

/-- In the first run the router holds the new session's subscription and its map does not; in the
second one the subscription is back after the UNSUBSCRIBE was acknowledged. -/
theorem takeover_disagrees :
    (∃ s ∈ Machine.run (step exampleSetup) (initial exampleRouter exampleSubs) expires,
      Settled s ∧ s.acked "a" = some (some (optsOf .atLeastOnce)) ∧
        s.router.held "a" "c" = some (exampleSetup.newId, optsOf .atLeastOnce) ∧
        (s.subs .new).lookup "a" = none) ∧
      ∃ s ∈ Machine.run (step exampleSetup) (initial exampleRouter exampleSubs) overtakes,
        Settled s ∧ s.acked "a" = some none ∧
          s.router.held "a" "c" = some (exampleSetup.newId, optsOf .atMostOnce) ∧
          (s.subs .new).lookup "a" = some (optsOf .atMostOnce) := by
  exact ⟨by decide, by decide⟩

end OxiMqtt.Session.SubscriptionTakeover

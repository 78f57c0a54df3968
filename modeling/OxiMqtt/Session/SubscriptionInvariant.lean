import OxiMqtt.Session.SubscriptionTakeover

/-!
# What holds during a takeover

Each update of a session's map follows a call of the router.  So the router is compared with what
the map of the new session is about to hold, and a subscription of the old session may stay in the
router as long as a task has still to come to its filter.

* `Inv`: what holds in every state of a run of orderly steps.
* `Inv.cleanStep`: the clean-up keeps it.
* `Inv.handOn`, `Inv.kickOld`, `Inv.connLoop`, `Inv.drainOne`: the steps of the handshake keep it.
-/

namespace OxiMqtt.Session.SubscriptionTakeover

open Collections
open Router (TopicFilter Id SubscriptionOptions Relation DefaultRouter Parses)

/-! ## What holds in every state -/

namespace Clearing

/-- The filters that the loop has still to remove from the router. -/
def pending : Clearing → List TopicFilter
  | next rest | session _ rest | update _ rest _ => rest

/-- The session whose map is updated next. -/
def finds : Clearing → Option Side
  | update _ _ found => some found
  | _ => none

end Clearing

def Clean.pending : Clean → List TopicFilter
  | clearing _ loop => loop.pending
  | _ => []

namespace Conn

/-- The subscriptions of the old session on their way into the map of the new one. -/
def carried : Conn → Subs
  | draining _ _ subs => subs
  | kicked offline | connected offline => offline.getD []
  | adding added todo => added ++ todo
  | extending todo => todo
  | _ => []

/-- The filters that the connection has still to remove from the router or to add with its id. -/
def pending : Conn → List TopicFilter
  | clearing _ loop => loop.pending
  | draining _ _ subs => subs.map Prod.fst
  | kicked offline | connected offline => (offline.getD []).map Prod.fst
  | adding _ todo => todo.map Prod.fst
  | _ => []

/-- What the new session's map will hold at a filter by an update that follows a call of the
router. -/
def due : Conn → TopicFilter → Option (Option SubscriptionOptions)
  | adding added _, f => (added.lookup f).map some
  | extending todo, f => (todo.lookup f).map some
  | subscribed topicFilter opts _, f => if f = topicFilter then some (some opts) else none
  | unsubscribed topicFilter _, f => if f = topicFilter then some none else none
  | _, _ => none

/-- The filter is one that `_drain` has still to take from the map of the session. -/
def drains : Conn → TopicFilter → Prop
  | draining _ rest _, f => f ∈ rest
  | _, _ => False

end Conn

namespace State

/-- The filters of the `SessionStateTransfer` in the channel. -/
def sent (s : State) : List TopicFilter := (s.transfer.getD []).map Prod.fst

/-- The subscription that the new session's map holds, or is about to. -/
def expected (s : State) (f : TopicFilter) : Option SubscriptionOptions :=
  (s.conn.due f).getD ((s.subs .new).lookup f)

def carried (s : State) : Subs := s.conn.carried ++ s.transfer.getD []

/-- The filter is in the old session's map, and a task has still to read it from there. -/
def Unread (s : State) (f : TopicFilter) : Prop :=
  ((s.subs .old).lookup f).isSome ∧ (s.peer = some .old ∨ s.conn.drains f)

/-- A task has still to remove the filter from the router, or to add it with the new id. -/
def Stale (s : State) (f : TopicFilter) : Prop :=
  f ∈ s.clean.pending ∨ f ∈ s.conn.pending ∨ s.Unread f ∨ f ∈ s.sent

/-- No message was sent to the new session, and it has acknowledged nothing. -/
def Early (s : State) : Prop := s.transfer = none ∧ ∀ f, s.acked f = none

/-- A request of the new session on the filter. -/
def Requests (s : State) (f : TopicFilter) (side : Side) : Prop :=
  side = .new ∧ s.peer = some .new ∧ f ∉ s.sent

/-- Which sessions the connection has to do with. -/
def ConnPhase (setup : Setup) (s : State) : Conn → Prop
  | .start => s.peer ≠ some .new ∧ s.Early
  | .clearing side loop => side = .old ∧ loop.finds = none ∧ s.peer = none ∧ s.Early
  | .draining side _ _ => side = .old ∧ setup.cleanStart = false ∧ s.peer = none ∧ s.Early
  | .kicked _ => s.peer = none ∧ s.Early
  | .connected _ => s.peer = some .new ∧ s.Early
  | .online | .adding _ _ | .extending _ => s.peer = some .new
  | .subscribing f _ side | .subscribed f _ side => s.Requests f side
  | .unsubscribing f side | .unsubscribed f side => s.Requests f side

/-- Which sessions the clean-up has to do with. -/
def CleanPhase (s : State) : Clean → Prop
  | .clearing side loop => side = .old ∧ loop.finds ≠ some .old ∧ s.peer ≠ some .old
  | _ => True

end State

section

variable (setup : Setup)

/-- The relation of the client in the router is the new session's subscription, or one of the old
session at a filter that is stale. -/
def Agrees (rel : Option Relation) (expected : Option SubscriptionOptions) (stale : Prop) : Prop :=
  rel = expected.map (fun opts => (setup.newId, opts)) ∨
    expected = none ∧ stale ∧ ∃ opts, rel = some (setup.oldId, opts)

/-- What holds in every state; `subs` are the subscriptions that the old session had. -/
structure Inv (subs : Subs) (s : State) : Prop where
  consistent : s.router.Consistent
  agrees : ∀ f, Agrees setup (s.router.held f setup.clientId) (s.expected f) (s.Stale f)
  inherited : ∀ f opts, (s.subs .old).lookup f = some opts → subs.lookup f = some opts
  carried : ∀ e ∈ s.carried,
    subs.lookup e.1 = some e.2 ∧ setup.cleanStart = false ∧ s.acked e.1 = none
  acked : ∀ f opts, s.acked f = some opts → (s.subs .new).lookup f = opts
  connPhase : s.ConnPhase setup s.conn
  cleanPhase : s.CleanPhase s.clean

end

/-! ## One call of the router -/

section

variable {setup : Setup} {r r' : DefaultRouter} {f g : TopicFilter} {opts : SubscriptionOptions}
  {expected expected' : Option SubscriptionOptions} {stale stale' : Prop}

theorem Agrees.mono {rel : Option Relation} (agrees : Agrees setup rel expected stale)
    (imp : stale → stale') : Agrees setup rel expected stale' := by
  rcases agrees with same | ⟨unexpected, old, held⟩
  · exact .inl same
  · exact .inr ⟨unexpected, imp old, held⟩

theorem held_add_new (ok : r.add f setup.newId opts = .ok r') (g : TopicFilter) :
    r'.held g setup.clientId =
      if g = f then some (setup.newId, opts) else r.held g setup.clientId := by
  rw [Router.DefaultRouter.held_add ok, Router.Holdings.set_apply, setup.sameClient]
  simp [Setup.clientId]

theorem held_remove_id {id : Id} (client : id.clientId = setup.clientId)
    (consistent : r.Consistent) (f g : TopicFilter) :
    (r.remove f id).1.held g setup.clientId =
      if g = f ∧ (r.held f setup.clientId).any (fun rel => rel.1 = id) then none
      else r.held g setup.clientId := by
  rw [Router.DefaultRouter.held_remove consistent, Router.Call.record, client]
  split
  · rename_i own
    rw [Router.Holdings.set_apply]
    simp [own]
  · rename_i other
    rw [if_neg (fun h => other h.2)]

/-- The new session's subscription is added to the router. -/
theorem Agrees.add (ok : r.add f setup.newId opts = .ok r') (here : g = f → expected' = some opts)
    (elsewhere : g ≠ f → expected' = expected ∧ (stale → stale'))
    (agrees : Agrees setup (r.held g setup.clientId) expected stale) :
    Agrees setup (r'.held g setup.clientId) expected' stale' := by
  rw [held_add_new ok]
  by_cases same : g = f
  · rw [if_pos same, here same]
    exact .inl rfl
  · rw [if_neg same, (elsewhere same).1]
    exact agrees.mono (elsewhere same).2

/-- The old session's relation is removed from the router. -/
theorem Agrees.removeOld (consistent : r.Consistent) (f : TopicFilter)
    (elsewhere : g ≠ f → stale → stale')
    (agrees : Agrees setup (r.held g setup.clientId) expected stale) :
    Agrees setup ((r.remove f setup.oldId).1.held g setup.clientId) expected stale' := by
  rw [held_remove_id rfl consistent]
  by_cases same : g = f
  · subst same
    rcases agrees with new | ⟨unexpected, -, opts, old⟩
    · rw [new]
      cases expected with
      | none => exact .inl (by simp)
      | some opts => exact .inl (by simp [setup.distinct])
    · rw [old, unexpected]
      exact .inl (by simp)
  · rw [if_neg (fun h => same h.1)]
    exact agrees.mono (elsewhere same)

/-- The new session's relation is removed from the router. -/
theorem Agrees.removeNew (consistent : r.Consistent) (f : TopicFilter)
    (here : g = f → expected' = none) (elsewhere : g ≠ f → expected' = expected)
    (imp : stale → stale') (agrees : Agrees setup (r.held g setup.clientId) expected stale) :
    Agrees setup ((r.remove f setup.newId).1.held g setup.clientId) expected' stale' := by
  rw [held_remove_id setup.sameClient consistent]
  by_cases same : g = f
  · rw [here same]
    subst same
    rcases agrees with new | ⟨-, holds, opts, old⟩
    · rw [new]
      cases expected with
      | none => exact .inl (by simp)
      | some opts => exact .inl (by simp)
    · rw [old, if_neg (by simp [Ne.symm setup.distinct])]
      exact .inr ⟨rfl, imp holds, opts, rfl⟩
  · rw [if_neg (fun h => same h.1), elsewhere same]
    exact agrees.mono imp

end

/-! ## The clean-up -/

/-- What a step of the loop does: it ends, it removes a filter from the router, it looks for the
session of the client id, or it updates the map of the session it found. -/
theorem Clearing.step_cases (s : State) (id : Id) (loop : Clearing) :
    loop.pending = [] ∧ loop.step s id = (s, none) ∨
      (∃ f loop', loop.pending = f :: loop'.pending ∧ loop'.finds = none ∧
        loop.step s id = ({ s with router := (s.router.remove f id).1 }, some loop')) ∨
      (∃ loop', loop'.pending = loop.pending ∧ (loop'.finds = none ∨ loop'.finds = s.peer) ∧
        loop.step s id = (s, some loop')) ∨
      ∃ f found, loop = .update f loop.pending found ∧
        loop.step s id = (s.removeSub found f, some (.next loop.pending)) := by
  cases loop with
  | next rest =>
      cases rest with
      | nil => exact .inl ⟨rfl, rfl⟩
      | cons f rest =>
          apply Or.inr
          apply Or.inl
          rw [step]
          cases (s.router.remove f id).2 with
          | ok b => exact ⟨f, .session f rest, rfl, rfl, rfl⟩
          | error e => exact ⟨f, .next rest, rfl, rfl, rfl⟩
  | session f rest =>
      apply Or.inr
      apply Or.inr
      apply Or.inl
      rw [step]
      cases s.peer with
      | none => exact ⟨.next rest, rfl, .inl rfl, rfl⟩
      | some found => exact ⟨.update f rest found, rfl, .inr rfl, rfl⟩
  | update f rest found => exact .inr (.inr (.inr ⟨f, found, rfl, rfl⟩))

section

variable {setup : Setup} {subs : Subs} {s : State} {side : Side} {loop : Clearing}

theorem lookup_erase_of_none {m : Subs} {f : TopicFilter} (absent : m.lookup f = none)
    (g : TopicFilter) : (m.erase f).lookup g = m.lookup g := by
  by_cases same : g = f
  · rw [same, Assoc.lookup_erase_self, absent]
  · exact Assoc.lookup_erase_of_ne m same

theorem mem_topicFilters {f : TopicFilter} (held : ((s.subs side).lookup f).isSome) :
    f ∈ s.topicFilters side := by
  obtain ⟨opts, held⟩ := Option.isSome_iff_exists.mp held
  exact List.mem_map_of_mem (Assoc.mem_of_lookup held)

theorem Inv.phaseAt (inv : Inv setup subs s) {conn : Conn} (here : s.conn = conn) :
    s.ConnPhase setup conn :=
  here ▸ inv.connPhase

/-- A step that changes only where the clean-up is. -/
theorem Inv.setClean (inv : Inv setup subs s) {clean : Clean}
    (pending : ∀ f, f ∈ s.clean.pending → f ∈ clean.pending) (phase : s.CleanPhase clean) :
    Inv setup subs { s with clean } :=
  { inv with
    agrees := fun f => (inv.agrees f).mono (Or.imp_left (pending f))
    cleanPhase := phase }

/-- A step of the clean-up's loop. -/
theorem Inv.cleanLoop (inv : Inv setup subs s) (here : s.clean = .clearing side loop)
    (orderly : Orderly s .clean) :
    Inv setup subs
      { (loop.step s (setup.idOf side)).1 with
        clean :=
          match (loop.step s (setup.idOf side)).2 with
          | some loop => .clearing side loop
          | none => .done } := by
  have phase := inv.cleanPhase
  have pending : s.clean.pending = loop.pending := by rw [here]; rfl
  rw [here] at phase
  obtain ⟨rfl, finds, gone⟩ := phase
  rcases loop.step_cases s (setup.idOf .old) with
    ⟨empty, stepped⟩ | ⟨f, loop', listed, fresh, stepped⟩ | ⟨loop', same, found, stepped⟩ |
      ⟨f, found, loop_eq, stepped⟩
  · rw [stepped]
    exact inv.setClean (fun f listed => by simp [pending, empty] at listed) trivial
  · rw [stepped]
    exact { inv with
      consistent := inv.consistent.remove f setup.oldId
      agrees := fun g =>
        (inv.agrees g).removeOld inv.consistent f fun other => Or.imp_left fun mem => by
          rw [pending, listed] at mem
          exact List.mem_of_ne_of_mem other mem
      cleanPhase := ⟨rfl, by simp [fresh], gone⟩ }
  · rw [stepped]
    have finds' : loop'.finds ≠ some .old := by
      rcases found with found | found
      · simp [found]
      · rw [found]
        exact gone
    exact inv.setClean (fun f mem => by rw [pending, ← same] at mem; exact mem) ⟨rfl, finds', gone⟩
  · rw [stepped]
    cases found with
    | old =>
        rw [loop_eq] at finds
        exact absurd rfl finds
    | new =>
        -- the map does not hold the filter: this is where the step has to be orderly
        have absent : (s.subs .new).lookup f = none := by
          apply orderly f
          rw [here, loop_eq]
          rfl
        have same : ∀ g, ((s.removeSub .new f).subs .new).lookup g = (s.subs .new).lookup g := by
          intro g
          simp only [State.removeSub, Function.update_self]
          exact lookup_erase_of_none absent g
        exact { inv with
          agrees := fun g => by
            have expected : s.expected g = (s.removeSub .new f).expected g := by
              simp only [State.expected, same]
              rfl
            have agrees := inv.agrees g
            rw [expected] at agrees
            exact agrees.mono (Or.imp_left fun mem => by rw [pending] at mem; exact mem)
          acked := fun g opts acked => by
            have held := inv.acked g opts acked
            rw [← same] at held
            exact held
          cleanPhase := ⟨rfl, by simp [Clearing.finds], gone⟩ }

/-- The old session is the peer only before the handshake has removed it. -/
theorem State.ConnPhase.start {conn : Conn} (phase : s.ConnPhase setup conn)
    (peer : s.peer = some .old) : conn = .start ∧ s.Early := by
  unfold State.ConnPhase at phase
  split at phase <;> simp_all [State.Requests]

/-- `_remove_with`, when it finds the old session. -/
theorem Inv.removeWith (inv : Inv setup subs s) (peer : s.peer = some .old)
    (unlisted : ∀ f, f ∉ s.clean.pending) :
    Inv setup subs
      { s with peer := none, clean := .clearing .old (.next (s.topicFilters .old)) } := by
  obtain ⟨start, early⟩ := inv.connPhase.start peer
  refine { inv with
    agrees := fun f => (inv.agrees f).mono fun stale => ?_
    connPhase := ?_
    cleanPhase := ⟨rfl, by simp [Clearing.finds], by simp⟩ }
  · rcases stale with listed | moving | unread | sent
    · exact absurd listed (unlisted f)
    · exact .inr (.inl moving)
    · exact .inl (mem_topicFilters unread.1)
    · exact .inr (.inr (.inr sent))
  · rw [start]
    exact ⟨by simp, early⟩

theorem Inv.cleanStep {s' : State} (inv : Inv setup subs s) (orderly : Orderly s .clean)
    (stepped : cleanStep setup s = some s') : Inv setup subs s' := by
  unfold SubscriptionTakeover.cleanStep at stepped
  cases here : s.clean with
  | idle =>
      have unlisted : ∀ f, f ∉ s.clean.pending := fun f mem => by rw [here] at mem; cases mem
      simp only [here] at stepped
      split at stepped
      · cases stepped
        exact inv.setClean (fun f mem => absurd mem (unlisted f)) trivial
      · cases stepped
        exact inv.setClean (fun f mem => absurd mem (unlisted f)) trivial
  | checked =>
      have unlisted : ∀ f, f ∉ s.clean.pending := fun f mem => by rw [here] at mem; cases mem
      simp only [here] at stepped
      split at stepped
      · rename_i side peer
        split at stepped
        · rename_i same
          cases stepped
          cases side with
          | old => exact inv.removeWith peer unlisted
          | new => exact absurd same setup.distinct
        · cases stepped
          exact inv.setClean (fun f mem => absurd mem (unlisted f)) trivial
      · cases stepped
        exact inv.setClean (fun f mem => absurd mem (unlisted f)) trivial
  | clearing side loop =>
      simp only [here] at stepped
      cases stepped
      exact inv.cleanLoop here orderly
  | done =>
      simp only [here] at stepped
      cases stepped

/-! ## The handshake -/

theorem State.CleanPhase.setPeer {clean : Clean} (phase : s.CleanPhase clean) {s' : State}
    (other : s'.peer ≠ some .old) : s'.CleanPhase clean := by
  cases clean with
  | clearing side loop => exact ⟨phase.1, phase.2.1, other⟩
  | idle => trivial
  | checked => trivial
  | done => trivial

/-- Without the old session as the peer, nothing in its map is unread but what is drained. -/
theorem State.Unread.of_gone {f : TopicFilter} (unread : s.Unread f) (gone : s.peer ≠ some .old) :
    ((s.subs .old).lookup f).isSome ∧ s.conn.drains f := by
  rcases unread with ⟨isSome, old | drained⟩
  · exact absurd old gone
  · exact ⟨isSome, drained⟩

theorem not_unread {f : TopicFilter} (gone : s.peer ≠ some .old) (undrained : ¬ s.conn.drains f) :
    ¬ s.Unread f := fun unread => undrained (unread.of_gone gone).2

/-- What is stale stays so in a step of the connection that hands on its filters. -/
theorem State.Stale.move {s' : State} {f : TopicFilter} (stale : s.Stale f)
    (clean : s'.clean = s.clean) (transfer : s'.transfer = s.transfer)
    (moving : f ∈ s.conn.pending → f ∈ s'.conn.pending) (unread : s.Unread f → s'.Stale f) :
    s'.Stale f := by
  rcases stale with listed | moves | old | sent
  · rw [← clean] at listed
    exact .inl listed
  · exact .inr (.inl (moving moves))
  · exact unread old
  · rw [State.sent, ← transfer] at sent
    exact .inr (.inr (.inr sent))

/-- A step that changes no subscription: where the connection is, the peer or the channel. -/
theorem Inv.setConn (inv : Inv setup subs s) {before conn : Conn} {peer : Option Side}
    {transfer : Option Subs} (here : s.conn = before) (due : ∀ f, conn.due f = before.due f)
    (stale : ∀ f, s.Stale f → ({ s with peer, conn, transfer } : State).Stale f)
    (carried : ∀ e ∈ conn.carried ++ transfer.getD [], e ∈ before.carried ++ s.transfer.getD [])
    (phase : ({ s with peer, conn, transfer } : State).ConnPhase setup conn)
    (other : peer = s.peer ∨ peer ≠ some .old) :
    Inv setup subs { s with peer, conn, transfer } :=
  { inv with
    agrees := fun f => by
      have agrees := (inv.agrees f).mono (stale f)
      rw [State.expected, here, ← due] at agrees
      exact agrees
    carried := fun e mem => inv.carried e (by rw [State.carried, here]; exact carried e mem)
    connPhase := phase
    cleanPhase := by
      rcases other with rfl | other
      · exact inv.cleanPhase
      · exact inv.cleanPhase.setPeer other }

/-- A step that hands on what the connection has still to do in the router. -/
theorem Inv.handOn (inv : Inv setup subs s) {before conn : Conn} {peer : Option Side}
    {transfer : Option Subs} (here : s.conn = before) (gone : s.peer ≠ some .old)
    (undrained : ∀ f, ¬ before.drains f) (due : ∀ f, conn.due f = before.due f)
    (pending : ∀ f, f ∈ before.pending ∨ f ∈ s.sent →
      f ∈ conn.pending ∨ f ∈ (transfer.getD []).map Prod.fst)
    (carried : ∀ e ∈ conn.carried ++ transfer.getD [], e ∈ before.carried ++ s.transfer.getD [])
    (phase : ({ s with peer, conn, transfer } : State).ConnPhase setup conn)
    (other : peer = s.peer ∨ peer ≠ some .old) :
    Inv setup subs { s with peer, conn, transfer } := by
  apply inv.setConn here due ?_ carried phase other
  intro f stale
  have moved : f ∈ before.pending ∨ f ∈ s.sent →
      ({ s with peer, conn, transfer } : State).Stale f := by
    intro pends
    rcases pending f pends with moving | sent
    · exact .inr (.inl moving)
    · exact .inr (.inr (.inr sent))
  rcases stale with listed | moving | unread | sent
  · exact .inl listed
  · rw [here] at moving
    exact moved (.inl moving)
  · exact absurd unread (not_unread gone (by rw [here]; exact undrained f))
  · exact moved (.inr sent)

/-- `_remove`, when it finds the old session. -/
theorem Inv.kickOld (inv : Inv setup subs s) (start : s.conn = .start) {conn : Conn}
    (due : ∀ f, conn.due f = none) (carried : conn.carried = [])
    (takes : ∀ f, ((s.subs .old).lookup f).isSome → f ∈ conn.pending ∨ conn.drains f)
    (phase : ({ s with peer := none, conn } : State).ConnPhase setup conn) :
    Inv setup subs { s with peer := none, conn } := by
  apply inv.setConn start
  · exact due
  · intro f stale
    rcases stale with listed | moving | unread | sent
    · exact .inl listed
    · rw [start] at moving
      cases moving
    · rcases takes f unread.1 with pending | drained
      · exact .inr (.inl pending)
      · exact .inr (.inr (.inl ⟨unread.1, .inr drained⟩))
    · exact .inr (.inr (.inr sent))
  · intro e mem
    rw [carried] at mem
    exact mem
  · exact phase
  · exact .inr (by simp)

/-- A step of the loop of `_remove`. -/
theorem Inv.connLoop (inv : Inv setup subs s) (here : s.conn = .clearing side loop) :
    Inv setup subs
      { (loop.step s (setup.idOf side)).1 with
        conn :=
          match (loop.step s (setup.idOf side)).2 with
          | some loop => .clearing side loop
          | none => .kicked none } := by
  obtain ⟨rfl, finds, peer, early⟩ := inv.phaseAt here
  have gone : s.peer ≠ some .old := by simp [peer]
  have pending : s.conn.pending = loop.pending := by rw [here]; rfl
  rcases loop.step_cases s (setup.idOf .old) with
    ⟨empty, stepped⟩ | ⟨f, loop', listed, fresh, stepped⟩ | ⟨loop', same, found, stepped⟩ |
      ⟨f, found, loop_eq, stepped⟩
  · rw [stepped]
    apply inv.handOn here gone
    · exact fun f => id
    · exact fun f => rfl
    · intro f pends
      rw [Conn.pending, empty] at pends
      exact pends
    · exact fun e => id
    · exact ⟨peer, early⟩
    · exact .inl rfl
  · rw [stepped]
    exact { inv with
      consistent := inv.consistent.remove f setup.oldId
      agrees := fun g => by
        have agrees := inv.agrees g
        rw [State.expected, here] at agrees
        apply agrees.removeOld inv.consistent f
        intro other stale
        apply stale.move
        · rfl
        · rfl
        · intro moving
          rw [pending, listed] at moving
          exact List.mem_of_ne_of_mem other moving
        · intro unread
          exact absurd unread (not_unread gone (by rw [here]; exact id))
      carried := fun e mem => inv.carried e (by rw [State.carried, here]; exact mem)
      connPhase := ⟨rfl, fresh, peer, early⟩ }
  · rw [stepped]
    have finds' : loop'.finds = none := by
      rcases found with found | found
      · exact found
      · rw [found, peer]
    apply inv.handOn here gone
    · exact fun f => id
    · exact fun f => rfl
    · intro f pends
      rw [Conn.pending, ← same] at pends
      exact pends
    · exact fun e => id
    · exact ⟨rfl, finds', peer, early⟩
    · exact .inl rfl
  · rw [loop_eq] at finds
    cases finds

/-- `_drain` takes a subscription from the old session's map. -/
theorem Inv.drainOne (inv : Inv setup subs s) {f : TopicFilter} {rest : List TopicFilter}
    {taken : Subs} (here : s.conn = .draining side (f :: rest) taken) {opts : SubscriptionOptions}
    (held : (s.subs side).lookup f = some opts) :
    Inv setup subs
      { s.removeSub side f with conn := .draining side rest (taken ++ [(f, opts)]) } := by
  obtain ⟨rfl, keeps, peer, early⟩ := inv.phaseAt here
  have old : (s.removeSub .old f).subs .old = (s.subs .old).erase f := by
    simp [State.removeSub]
  have new : (s.removeSub .old f).subs .new = s.subs .new := by
    simp [State.removeSub]
  refine { inv with
    agrees := fun g => ?_
    inherited := fun g o found => ?_
    carried := fun e mem => ?_
    acked := fun g o acked => by rw [new]; exact inv.acked g o acked
    connPhase := ⟨rfl, keeps, peer, early⟩ }
  · have expected : s.expected g = (s.subs .new).lookup g := by rw [State.expected, here]; rfl
    have agrees := inv.agrees g
    rw [expected, ← new] at agrees
    apply agrees.mono
    intro stale
    apply stale.move
    · rfl
    · rfl
    · intro moving
      rw [here] at moving
      rw [Conn.pending, List.map_append]
      exact List.mem_append_left _ moving
    · intro unread
      obtain ⟨isSome, drained⟩ := unread.of_gone (by simp [peer])
      rw [here] at drained
      by_cases same : g = f
      · exact .inr (.inl (by simp [Conn.pending, same]))
      · have still : (((s.removeSub .old f).subs .old).lookup g).isSome := by
          rw [old, Assoc.lookup_erase_of_ne _ same]
          exact isSome
        exact .inr (.inr (.inl ⟨still, .inr (List.mem_of_ne_of_mem same drained)⟩))
  · rw [old] at found
    by_cases same : g = f
    · rw [same, Assoc.lookup_erase_self] at found
      cases found
    · rw [Assoc.lookup_erase_of_ne _ same] at found
      exact inv.inherited g o found
  · rw [State.carried, Conn.carried, List.append_assoc, List.mem_append] at mem
    rcases mem with before | mem
    · apply inv.carried
      rw [State.carried, here]
      exact List.mem_append_left _ before
    · rw [List.singleton_append, List.mem_cons] at mem
      rcases mem with rfl | sent
      · exact ⟨inv.inherited f opts held, keeps, early.2 f⟩
      · apply inv.carried
        rw [State.carried]
        exact List.mem_append_right _ sent

/-- `_drain` finds no subscription at a filter. -/
theorem Inv.drainNone (inv : Inv setup subs s) {f : TopicFilter} {rest : List TopicFilter}
    {taken : Subs} (here : s.conn = .draining side (f :: rest) taken)
    (absent : (s.subs side).lookup f = none) :
    Inv setup subs { s with conn := .draining side rest taken } := by
  obtain ⟨rfl, keeps, peer, early⟩ := inv.phaseAt here
  apply inv.setConn here
  · exact fun g => rfl
  · intro g stale
    apply stale.move
    · rfl
    · rfl
    · intro moving
      rw [here] at moving
      exact moving
    · intro unread
      obtain ⟨isSome, drained⟩ := unread.of_gone (by simp [peer])
      rw [here] at drained
      have other : g ≠ f := by
        intro same
        rw [same, absent] at isSome
        cases isSome
      exact .inr (.inr (.inl ⟨isSome, .inr (List.mem_of_ne_of_mem other drained)⟩))
  · exact fun e => id
  · exact ⟨rfl, keeps, peer, early⟩
  · exact .inl rfl

end

end OxiMqtt.Session.SubscriptionTakeover

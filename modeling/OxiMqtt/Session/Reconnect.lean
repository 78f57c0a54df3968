import OxiMqtt.Lib.Machine
import OxiMqtt.Session.Inbound

/-!
# Inbound publishes across reconnections

A client that resumes its session gets a new `SessionState`.  `SessionState::new` makes an empty
window of inbound packet ids and an empty queue of deferred publishes, and the `OfflineInfo` that the
new session takes over from the old one (the subscriptions, the offline messages and the outbound
inflight messages) has no inbound packet id in it.  The window belongs to the connection.

* `reconnect_inbound`: duplicates are suppressed on each connection, and a publish that is sent again
  on the next one is handed over again.
-/

namespace OxiMqtt.Session.Reconnect

open Inbound Process
open OxiMqtt.Codec (NonZeroU16 Publish)

/-- A persistent client: the inbound side of the connection it has, whether an error has ended that
connection, and what has happened on the connections before it. -/
structure Client : Type where
  session : Inbound.State
  ended : Bool := false
  past : List (List Event) := []

/-- The first connection. -/
def Client.connect (maxInflight : NonZeroU16) : Client where
  session := .new maxInflight.val

/-- What a client can do; `max_inflight` is that of the listener it connects to. -/
inductive Action : Type
  | packet (packet : Packet)
  | reconnect (maxInflight : NonZeroU16)

/-- A packet on a connection that has not ended, or the handshake of a new connection that resumes
the session.  The calls to the outside are numbered over all connections. -/
def step (world : World) (c : Client) : Action → Option Client
  | .packet p =>
      if c.ended then none
      else
        match processPacket world p c.session with
        | .ok _ s => some { c with session := s }
        | .error _ s => some { c with session := s, ended := true }
  | .reconnect maxInflight =>
      some
        { session := { State.new maxInflight.val with calls := c.session.calls }
          past := c.past ++ [c.session.log] }

/-! ## Each connection by itself -/

/-- What has happened on each connection is sound, and a connection that has not ended is in
order. -/
structure Inv (c : Client) : Prop where
  past : ∀ log ∈ c.past, Sound log
  sound : Sound c.session.log
  live : c.ended = false → ∃ max, Inbound.Inv max c.session

theorem inv_fresh (maxInflight : UInt16) (n : Nat) :
    Inbound.Inv maxInflight { State.new maxInflight with calls := n } where
  core := (inv_new maxInflight).core.at ⟨n, rfl⟩
  full := (inv_new maxInflight).full

theorem inv_connect (maxInflight : NonZeroU16) : Inv (.connect maxInflight) where
  past := by simp [Client.connect]
  sound := (inv_new maxInflight.val).core.sound
  live _ := ⟨maxInflight.val, inv_new maxInflight.val⟩

theorem inv_step {world : World} {c c' : Client} (a : Action) (inv : Inv c)
    (h : step world c a = some c') : Inv c' := by
  cases a with
  | packet p =>
      unfold step at h
      dsimp only at h
      split at h
      · cases h
      · rename_i running
        obtain ⟨max, orderly⟩ := inv.live (by simpa using running)
        have spec := @processPacket_spec world max p c.session orderly
        split at h
        · rename_i s processed
          cases h
          rw [processed] at spec
          exact ⟨inv.past, spec.core.sound, fun _ => ⟨max, spec⟩⟩
        · rename_i s processed
          cases h
          rw [processed] at spec
          exact ⟨inv.past, spec, by simp⟩
  | reconnect maxInflight =>
      cases h
      have fresh := inv_fresh maxInflight.val c.session.calls
      refine ⟨fun log hlog => ?_, fresh.core.sound, fun _ => ⟨_, fresh⟩⟩
      rcases List.mem_append.mp hlog with old | last
      · exact inv.past log old
      · rw [List.mem_singleton.mp last]
        exact inv.sound

theorem inv_run {world : World} {maxInflight : NonZeroU16} {actions : List Action} {c : Client}
    (ran : Machine.run (step world) (.connect maxInflight) actions = some c) : Inv c :=
  Machine.invariant_run (fun _ a _ inv h => inv_step a inv h) ran (inv_connect maxInflight)

/-! ## A publish that is no duplicate on its connection -/

section Handed

variable {world : World} {pid : NonZeroU16} {m : Publish} {h : List (NonZeroU16 × Publish)}

/-- The publishes handed over so far. -/
def HandedOver (h : List (NonZeroU16 × Publish)) (s : State) : Prop := handed s.log = h

theorem register_handed (r : PublishResult) :
    Triple (HandedOver h) (register pid r) (fun _ => HandedOver h) (HandedOver h) := by
  unfold register
  split
  · unfold addQos2
    refine Triple.get_bind fun s hs => ?_
    cases s.inInflight.add pid .exactlyOnce with
    | ok added => exact Triple.set_bind (Triple.of_pure fun t ht => ht ▸ hs)
    | error e =>
        refine Triple.set_bind (Triple.of_throw fun t ht => ?_)
        subst ht
        exact (by simp [handed, State.logged] : handed (s.logged (.addError pid)).log =
          handed s.log).trans hs
  · exact Triple.of_pure fun _ hs => hs

/-- `ack_qos2_inbound` hands its publish over once, whatever comes of it. -/
theorem ackQos2Inbound_handed :
    Triple (HandedOver h) (ackQos2Inbound world pid m) (fun _ => HandedOver (h ++ [(pid, m)]))
      (HandedOver (h ++ [(pid, m)])) := by
  refine Triple.bind (Q := fun _ => HandedOver h) (fun s hs => hs) fun res => ?_
  refine Triple.modify_bind (HandedOver (h ++ [(pid, m)])) (fun s hs => ?_) ?_
  · unfold HandedOver at hs ⊢
    rw [State.logged, handed_handed, hs]
  refine (orReturn_spec (fun _ _ _ hs => hs) fun _ hs => hs).bind fun r => ?_
  refine (register_handed r).bind fun taken => ?_
  refine Triple.bind (Q := fun _ => HandedOver (h ++ [(pid, m)])) ?_ fun recRes => ?_
  · refine Triple.modify_bind (HandedOver (h ++ [(pid, m)])) (fun s hs => ?_) fun s hs => hs
    unfold HandedOver at hs ⊢
    rw [State.logged, handed_received, hs]
  · refine Triple.modify_bind (HandedOver (h ++ [(pid, m)])) (fun s hs => ?_)
      (orReturn_spec (fun _ _ _ hs => hs) fun _ hs => hs)
    split
    · exact hs
    · exact hs

/-- A QoS 2 publish that is neither deferred nor registered on its connection is handed over, where
the window has room. -/
theorem step_publish_handed (qos : m.qos = .exactlyOnce) (id : m.packetId = some pid) {c : Client}
    (running : c.ended = false) (notQueued : pid ∉ c.session.qos2Pending.map Prod.fst)
    (fresh : pid ∉ c.session.inInflight.cached) (room : c.session.inInflight.isFull = false) :
    ∃ c', step world c (.packet (.publish m)) = some c' ∧ c'.past = c.past ∧
      handed c'.session.log = handed c.session.log ++ [(pid, m)] := by
  have unqueued : c.session.qos2Pending.any (·.1 == pid) = false := by
    rw [List.any_eq_false]
    intro e he same
    exact notQueued (beq_iff_eq.mp same ▸ List.mem_map_of_mem he)
  have unknown : c.session.inInflight.contains pid = false := by
    simpa [InInflight.contains] using fresh
  have arm : processPacket world (.publish m) c.session = processQos2 world pid m c.session := by
    simp only [processPacket, processPublish, qos, id]
    rfl
  have taken : processQos2 world pid m c.session =
      ackQos2Inbound world pid m (c.session.logged (.accepted pid m)) := by
    change (if c.session.qos2Pending.any (·.1 == pid) = true then _ else _ : Proc Unit) c.session = _
    rw [unqueued, unknown, room]
    rfl
  have before : HandedOver (handed c.session.log) (c.session.logged (.accepted pid m)) := by
    unfold HandedOver
    rw [State.logged, handed_accepted]
  have spec := @ackQos2Inbound_handed world pid m _ _ before
  simp only [step, running, arm, taken]
  rcases acked : ackQos2Inbound world pid m (c.session.logged (.accepted pid m)) with
    ⟨u, s⟩ | ⟨e, s⟩
  · rw [acked] at spec
    exact ⟨_, rfl, rfl, spec⟩
  · rw [acked] at spec
    exact ⟨_, rfl, rfl, spec⟩

end Handed

/-! ## Runs with reconnections -/

theorem notMem_cached_of_not_open {c : Client} (inv : Inv c) (running : c.ended = false)
    {pid : NonZeroU16} (closed : ¬ Open pid c.session.log) : pid ∉ c.session.inInflight.cached := by
  obtain ⟨max, orderly⟩ := inv.live running
  exact fun known => closed ((orderly.core.opened pid).mp known)

/-- In every run of PUBLISH and PUBREL packets and reconnections, between two successful hand-overs
of a packet id on one connection there is a PUBREL for it.  A QoS 2 publish whose packet id is
neither open nor deferred on the connection it arrives on is handed over, where the window has room,
whatever was handed over before a reconnection; and a reconnection leaves no packet id open or
deferred, and room in the window. -/
theorem reconnect_inbound (world : World) (maxInflight : NonZeroU16) (actions : List Action)
    (c : Client) (ran : Machine.run (step world) (.connect maxInflight) actions = some c) :
    (∀ log ∈ c.past ++ [c.session.log], Faithful log) ∧
    (∀ m pid, m.qos = .exactlyOnce → m.packetId = some pid → c.ended = false →
      ¬ Open pid c.session.log → pid ∉ c.session.qos2Pending.map Prod.fst →
      c.session.inInflight.isFull = false →
      ∃ c', step world c (.packet (.publish m)) = some c' ∧ c'.past = c.past ∧
        handed c'.session.log = handed c.session.log ++ [(pid, m)]) ∧
    (∀ max, ∃ c', step world c (.reconnect max) = some c' ∧ c'.past = c.past ++ [c.session.log] ∧
      c'.ended = false ∧ c'.session.qos2Pending = [] ∧ c'.session.inInflight.isFull = false ∧
      ∀ pid, ¬ Open pid c'.session.log) := by
  have inv := inv_run ran
  refine ⟨fun log hlog => ?_, fun m pid qos id running closed notQueued room => ?_, fun max => ?_⟩
  · rcases List.mem_append.mp hlog with old | last
    · exact (inv.past log old).faithful
    · rw [List.mem_singleton.mp last]
      exact inv.sound.faithful
  · have fresh := notMem_cached_of_not_open inv running closed
    exact step_publish_handed qos id running notQueued fresh room
  · refine ⟨_, rfl, rfl, rfl, rfl, ?_, fun pid opened => ?_⟩
    · have positive : max.val.toNat ≠ 0 := fun zero =>
        max.property (UInt16.toNat_inj.mp zero)
      simpa [InInflight.isFull, State.new, Nat.pos_iff_ne_zero] using positive
    · obtain ⟨before, m, r, after, split, -, -⟩ := opened
      simp [State.new] at split

/-- A QoS 2 publish with the packet id 31. -/
def resent (dup : Bool) : Publish where
  dup := dup
  retain := false
  qos := .exactlyOnce
  topic := "t"
  packetId := some ⟨31, by decide⟩
  payload := []
  properties := none

/-- An outside where every publish is routed and every packet is written. -/
def accepting : World where
  publish _ _ := .ok .success
  send _ := .ok ()

/-- A QoS 2 publish, and the same publish again after a reconnection. -/
def resentAfterReconnection : List Action :=
  [.packet (.publish (resent false)), .reconnect ⟨31, by decide⟩, .packet (.publish (resent true))]

theorem reconnect_inbound_resent :
    ∃ c, Machine.run (step accepting) (.connect ⟨31, by decide⟩) resentAfterReconnection = some c ∧
      ∀ log ∈ c.past ++ [c.session.log], Faithful log := by
  obtain ⟨c, ran⟩ : ∃ c, Machine.run (step accepting) (.connect ⟨31, by decide⟩)
      resentAfterReconnection = some c := ⟨_, rfl⟩
  exact ⟨c, ran, (reconnect_inbound accepting _ _ c ran).1⟩

/-- Over all connections of a client, a packet id is handed over twice with no PUBREL in between. -/
theorem duplicate_after_reconnection :
    ¬ ∀ world maxInflight actions c,
      Machine.run (step world) (.connect maxInflight) actions = some c →
      Faithful (c.past.flatten ++ c.session.log) := by
  intro once
  have faithful := once accepting ⟨31, by decide⟩ resentAfterReconnection _ rfl
  have released := faithful.once [.accepted ⟨31, by decide⟩ (resent false)] ⟨31, by decide⟩
    (resent false) .success
    [.received ⟨31, by decide⟩ .success, .accepted ⟨31, by decide⟩ (resent true)] (resent true)
    .success [.received ⟨31, by decide⟩ .success] rfl rfl rfl
  simp at released

end OxiMqtt.Session.Reconnect

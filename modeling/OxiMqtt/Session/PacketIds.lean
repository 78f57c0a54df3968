import OxiMqtt.Session.Acks

/-!
# Packet ids of outbound publishes

A packet id is in use from the PUBLISH that carries it to its last acknowledgment.  `next_id` looks
for an id that is not in the window, but a message keeps its id outside of the window: after a
timeout it waits in the channel and in the deliver queue to be sent again, or in the channel for its
PUBREL, and a message that is taken over from an earlier session comes with the id it had there.

* `held`: the messages that the session has under a packet id.
* `Apart`: the condition on a step.
* `packet_ids_not_shared`: in a run that meets it, no id is shared and no entry is replaced by
  another message.
* `transferred_id_shared`: a message of the earlier session meets a fresh id.
-/

namespace OxiMqtt.Session.PacketIds

open OxiMqtt.Codec (QoS NonZeroU16 Publish)
open Outbound (MsgId Message assignPacketId)
open Acks (Step)

/-! ## Who holds a packet id -/

/-- A message and the packet id it was sent under. -/
abbrev Numbered : Type := MsgId × NonZeroU16

def ofEntry (e : PacketId × OutInflightMessage MsgId) : Option Numbered :=
  e.2.publish.packetId.map fun packetId => (e.2.origin, packetId)

/-- A publish that is sent again keeps its packet id. -/
def ofItem (item : MsgId × Publish) : Option Numbered :=
  if item.2.qos ≠ .atMostOnce ∧ item.2.dup = true then
    item.2.packetId.map fun packetId => (item.1, packetId)
  else none

def ofMessage : Message → Option Numbered
  | .forward msg p => ofItem (msg, p)
  | .sendRerelease m => m.publish.packetId.map fun packetId => (m.origin, packetId)

/-- The messages that wait outside of the window, with the packet ids they were sent under. -/
def outside (s : Outbound.State) : List Numbered :=
  s.channel.filterMap ofMessage ++ s.queue.filterMap ofItem

/-- The messages that the session has under a packet id. -/
def held (s : Outbound.State) : List Numbered :=
  s.outInflight.queues.filterMap ofEntry ++ outside s

inductive Event : Type
  /-- A PUBLISH was sent under the packet id, which the session had these messages under. -/
  | sent (msg : MsgId) (packetId : NonZeroU16) (holders : List MsgId)
  /-- `push_back` was called, and the window had this message under the packet id. -/
  | pushed (msg : MsgId) (packetId : NonZeroU16) (replaced : Option MsgId)
  deriving DecidableEq, Repr

/-- The holders of the packet id, and the message whose entry is replaced, are the message itself. -/
def Unshared : Event → Prop
  | .sent msg _ holders => ∀ holder ∈ holders, holder = msg
  | .pushed msg _ replaced => ∀ old ∈ replaced, old = msg

/-! ## The steps -/

structure State : Type where
  acks : Acks.State
  trace : List Event := []

def holders (s : Outbound.State) (packetId : NonZeroU16) : List MsgId :=
  ((held s).filter fun x => x.2 = packetId).map Prod.fst

def replaced (w : OutInflight MsgId) (packetId : NonZeroU16) : Option MsgId :=
  (w.get packetId.val).map fun m => m.origin

/-- The PUBLISH and the `push_back` of a step. -/
def events (s : Outbound.State) : Step → List Event
  | .arm (.deliver false) =>
      match s.queue with
      | [] => []
      | (msg, p) :: queue =>
          match assignPacketId s.outInflight p with
          | none => []
          | some (p', _) =>
              if p'.qos = .atMostOnce then []
              else
                (p'.packetId.map fun packetId =>
                  [Event.sent msg packetId (holders { s with queue } packetId),
                    .pushed msg packetId (replaced s.outInflight packetId)]).getD []
  | .arm .message =>
      match s.channel with
      | .sendRerelease m :: _ =>
          (m.publish.packetId.map fun packetId =>
            Event.pushed m.origin packetId (replaced s.outInflight packetId)).toList
      | _ => []
  | _ => []

/-- The numbers of the messages of a transfer. -/
def origins (inflight : List (OutInflightMessage MsgId)) (offline : List (MsgId × Publish)) :
    List MsgId :=
  inflight.map OutInflightMessage.origin ++ offline.map Prod.fst

/-- The steps of the session; a transfer hands its messages to the session, so they are numbered
on. -/
def step (s : State) (a : Step) : Option State :=
  let trace := s.trace ++ events s.acks.session a
  match a with
  | .transfer inflight offline =>
      let handed := s.acks.session.handed
      if origins inflight offline = List.range' handed (origins inflight offline).length then
        (Acks.step s.acks (.transfer inflight offline)).map fun acks =>
          { acks :=
              { acks with
                session :=
                  { acks.session with handed := handed + (origins inflight offline).length } }
            trace }
      else none
  | a => (Acks.step s.acks a).map fun acks => { acks, trace }

theorem step_arm {s s' : State} {a : Outbound.Step} (h : step s (.arm a) = some s') :
    a ≠ .packet ∧ a ≠ .client ∧ Outbound.step s.acks.session a = some s'.acks.session := by
  obtain ⟨acks, moved, rfl⟩ := Option.map_eq_some_iff.mp h
  obtain ⟨packet, client, session, taken, rfl⟩ := Acks.step_arm moved
  exact ⟨packet, client, taken⟩

theorem step_transfer {s s' : State} {inflight : List (OutInflightMessage MsgId)}
    {offline : List (MsgId × Publish)} (h : step s (.transfer inflight offline) = some s') :
    origins inflight offline =
        List.range' s.acks.session.handed (origins inflight offline).length ∧
      s'.acks.session = { s.acks.session with
        channel := s.acks.session.channel ++ Window.transferred inflight offline
        handed := s.acks.session.handed + (origins inflight offline).length } := by
  obtain ⟨numbered, taken⟩ := Option.ite_none_right_eq_some.mp h
  cases taken
  exact ⟨numbered, rfl⟩

/-- A connection at its start. -/
def initial (version : Outbound.Version) (cap : NonZeroU16)
    (retryInterval expiryInterval : TimestampMillis) (toBack : Bool) (queueCap : Nat) : State where
  acks := Acks.initial version cap retryInterval expiryInterval toBack queueCap

/-! ## The condition -/

/-- The packet id that `next_id` gives to the publish that is sent next. -/
def freshId (s : Outbound.State) : Option NonZeroU16 :=
  match s.queue with
  | [] => none
  | (_, p) :: _ =>
      if p.qos = .atMostOnce ∨ p.dup = true ∧ p.packetId.isSome = true then none
      else (assignPacketId s.outInflight p).bind fun r => r.1.packetId

/-- The packet ids that a transfer brings. -/
def brought (inflight : List (OutInflightMessage MsgId)) (offline : List (MsgId × Publish)) :
    List Numbered :=
  (Window.transferred inflight offline).filterMap ofMessage

/-- A fresh packet id is not that of a message that waits outside of the window, and the packet ids
that a transfer brings are distinct and not in use. -/
def Apart (s : State) : Step → Prop
  | .arm (.deliver false) => ∀ packetId ∈ freshId s.acks.session,
      ∀ x ∈ outside { s.acks.session with queue := s.acks.session.queue.tail }, x.2 ≠ packetId
  | .transfer inflight offline =>
      ((brought inflight offline).map Prod.snd).Nodup ∧
        ∀ x ∈ brought inflight offline, ∀ y ∈ held s.acks.session, x.2 ≠ y.2
  | _ => True

instance (s : State) (a : Step) : Decidable (Apart s a) :=
  match a with
  | .arm (.deliver false) =>
      Option.decidableForallMem (p := fun packetId =>
        ∀ x ∈ outside { s.acks.session with queue := s.acks.session.queue.tail }, x.2 ≠ packetId)
        (freshId s.acks.session)
  | .arm (.deliver true) => isTrue trivial
  | .arm (.forward _) => isTrue trivial
  | .arm (.tick _) => isTrue trivial
  | .arm (.timeout _) => isTrue trivial
  | .arm .message => isTrue trivial
  | .arm .packet => isTrue trivial
  | .arm .client => isTrue trivial
  | .receive _ => isTrue trivial
  | .transfer inflight offline =>
      inferInstanceAs (Decidable (((brought inflight offline).map Prod.snd).Nodup ∧
        ∀ x ∈ brought inflight offline, ∀ y ∈ held s.acks.session, x.2 ≠ y.2))

/-! ## The invariant -/

/-- A packet id has one holder. -/
def Owned (xs : List Numbered) : Prop := ∀ x ∈ xs, ∀ y ∈ xs, x.2 = y.2 → x.1 = y.1

structure Inv (s : State) : Prop where
  keyed : s.acks.session.outInflight.WellKeyed
  owned : Owned (held s.acks.session)
  unshared : ∀ e ∈ s.trace, Unshared e

theorem Owned.subset {xs ys : List Numbered} (owned : Owned xs) (sub : ∀ x ∈ ys, x ∈ xs) :
    Owned ys := fun x hx y hy => owned x (sub x hx) y (sub y hy)

/-- A packet id that is in no other hands can be taken. -/
theorem Owned.insert {xs ys : List Numbered} {new : Numbered} (owned : Owned xs)
    (free : ∀ x ∈ xs, x.2 = new.2 → x.1 = new.1) (sub : ∀ y ∈ ys, y = new ∨ y ∈ xs) :
    Owned ys := by
  intro x hx y hy same
  rcases sub x hx with rfl | hx
  · rcases sub y hy with rfl | hy
    · rfl
    · exact (free y hy same.symm).symm
  · rcases sub y hy with rfl | hy
    · exact free x hx same
    · exact owned x hx y hy same

theorem Owned.append {xs ys : List Numbered} (owned : Owned xs) (distinct : (ys.map Prod.snd).Nodup)
    (apart : ∀ y ∈ ys, ∀ x ∈ xs, y.2 ≠ x.2) : Owned (xs ++ ys) := by
  intro x hx y hy same
  rcases List.mem_append.mp hx with hx | hx
  · rcases List.mem_append.mp hy with hy | hy
    · exact owned x hx y hy same
    · exact absurd same.symm (apart y hy x hx)
  · rcases List.mem_append.mp hy with hy | hy
    · exact absurd same (apart x hx y hy)
    · rw [List.inj_on_of_nodup_map distinct hx hy same]

variable {s s' : Outbound.State} {x : Numbered}

theorem mem_outside : x ∈ outside s ↔
    (∃ m ∈ s.channel, ofMessage m = some x) ∨ ∃ item ∈ s.queue, ofItem item = some x := by
  rw [outside, List.mem_append, List.mem_filterMap, List.mem_filterMap]

theorem mem_held : x ∈ held s ↔
    (∃ e ∈ s.outInflight.queues, ofEntry e = some x) ∨ x ∈ outside s := by
  rw [held, List.mem_append, List.mem_filterMap]

theorem ofItem_eq_some {item : MsgId × Publish} (h : ofItem item = some x) :
    item.1 = x.1 ∧ item.2.packetId = some x.2 := by
  unfold ofItem at h
  split at h
  · obtain ⟨packetId, id, rfl⟩ := Option.map_eq_some_iff.mp h
    exact ⟨rfl, id⟩
  · cases h

theorem ofEntry_eq_some {e : PacketId × OutInflightMessage MsgId} :
    ofEntry e = some x ↔ e.2.origin = x.1 ∧ e.2.publish.packetId = some x.2 := by
  unfold ofEntry
  rw [Option.map_eq_some_iff]
  constructor
  · intro ⟨packetId, id, same⟩
    rw [← same]
    exact ⟨rfl, id⟩
  · intro ⟨origin, id⟩
    exact ⟨x.2, id, by rw [origin]⟩

/-! ## What a step holds -/

/-- A message carries its packet id with it. -/
def numbered : Outbound.Label Numbered where
  ofEntry m := m.publish.packetId.map fun packetId => (m.origin, packetId)
  ofItem := ofItem
  again m x h := by
    obtain ⟨origin, id⟩ := ofItem_eq_some h
    exact Option.map_eq_some_iff.mpr ⟨x.2, id, Prod.ext origin rfl⟩
  updated _ _ _ := rfl

theorem mem_held_iff_carried : x ∈ held s ↔ numbered.Carried s x := by
  have messages : ∀ m, ofMessage m = numbered.ofMessage m := by
    intro m
    cases m <;> rfl
  rw [mem_held, mem_outside]
  simp only [messages]
  rfl

theorem held_timeout {expired : Bool} (h : Outbound.step s (.timeout expired) = some s') :
    ∀ x ∈ held s', x ∈ held s := by
  intro x hx
  rw [mem_held_iff_carried] at *
  exact Outbound.Label.carried_timeout h hx

theorem held_message (h : Outbound.step s .message = some s') : ∀ x ∈ held s', x ∈ held s := by
  intro x hx
  rw [mem_held_iff_carried] at *
  exact Outbound.Label.carried_message h hx

theorem held_receive (packet : Acks.AckPacket) : ∀ x ∈ held (Acks.receive s packet), x ∈ held s := by
  intro x hx
  rw [mem_held_iff_carried] at *
  exact Acks.carried_receive hx

/-! ## The deliver arm -/

theorem packetId_of_mem {w : OutInflight MsgId} (keyed : w.WellKeyed)
    {e : PacketId × OutInflightMessage MsgId} (member : e ∈ w.queues) {packetId : NonZeroU16}
    (id : e.2.publish.packetId = some packetId) : e.1 = packetId.val := by
  have key := keyed.packetId e member
  rw [id] at key
  exact (Option.some.inj key).symm

theorem held_dequeue {item : MsgId × Publish} {queue : List (MsgId × Publish)}
    (head : s.queue = item :: queue) : ∀ x ∈ held { s with queue }, x ∈ held s := by
  intro x hx
  rw [mem_held, mem_outside] at hx ⊢
  rw [head]
  exact hx.imp_right (Or.imp_right fun ⟨item, hitem, own⟩ =>
    ⟨item, List.mem_cons_of_mem _ hitem, own⟩)

/-- The entry under a packet id holds it. -/
theorem holder_of_get {w : OutInflight MsgId} (keyed : w.WellKeyed) {packetId : NonZeroU16}
    {m : OutInflightMessage MsgId} (found : w.get packetId.val = some m) :
    ∃ e ∈ w.queues, ofEntry e = some (m.origin, packetId) := by
  have id := keyed.packetId_of_get found
  exact ⟨_, OutInflight.mem_of_get found, ofEntry_eq_some.mpr ⟨rfl, id⟩⟩

/-- The packet id that a PUBLISH is sent under is in no other hands. -/
theorem free_of_assigned (keyed : s.outInflight.WellKeyed) (owned : Owned (held s)) {msg : MsgId}
    {p p' : Publish} {queue : List (MsgId × Publish)} {w : OutInflight MsgId}
    (head : s.queue = (msg, p) :: queue)
    (apart : ∀ packetId ∈ freshId s, ∀ x ∈ outside { s with queue := s.queue.tail }, x.2 ≠ packetId)
    (assigned : assignPacketId s.outInflight p = some (p', w)) (qos : p'.qos ≠ .atMostOnce)
    {packetId : NonZeroU16} (id : p'.packetId = some packetId) :
    ∀ x ∈ held { s with queue }, x.2 = packetId → x.1 = msg := by
  intro x hx same
  have fresh_eq : ∀ q, freshId s = some q → ∀ x ∈ outside { s with queue }, x.2 ≠ q := by
    intro q hq
    have others := apart q hq
    rw [head] at others
    exact others
  rcases Outbound.assignPacketId_cases assigned with ⟨rfl, rfl, zero | ⟨dup, numbered⟩⟩ |
    ⟨chosenId, rfl, -, absent, acked, renewed⟩
  · exact absurd zero qos
  · -- the publish has kept its id, and so was a holder of it
    have holder : (msg, packetId) ∈ held s := by
      refine mem_held.mpr (.inr (mem_outside.mpr (.inr ⟨(msg, p'), ?_, ?_⟩)))
      · rw [head]
        exact List.mem_cons_self
      · rw [ofItem, if_pos ⟨qos, dup⟩, id]
        rfl
    exact owned x (held_dequeue head x hx) (msg, packetId) holder same
  · cases id
    have chosen : freshId s = some packetId := by
      unfold freshId
      rw [head]
      dsimp only
      rw [if_neg (not_or.mpr ⟨acked, renewed⟩), assigned]
      rfl
    rcases mem_held.mp hx with ⟨e, member, own⟩ | waits
    · have key := packetId_of_mem keyed member (ofEntry_eq_some.mp own).2
      rw [same] at key
      have exist : s.outInflight.exist packetId.val = true :=
        List.any_eq_true.mpr ⟨e, member, beq_iff_eq.mpr key⟩
      rw [exist] at absent
      cases absent
    · exact absurd same (fresh_eq packetId chosen x waits)

/-- A PUBLISH adds its message to the holders, where it has a packet id. -/
theorem held_sent {msg : MsgId} {p' : Publish} {queue : List (MsgId × Publish)}
    {w : OutInflight MsgId} (same : w.queues = s.outInflight.queues) :
    ∀ x ∈ held { s with
      queue
      toClient := s.toClient ++ [.publish msg p']
      outInflight := Outbound.sentWindow w msg p' s.clock },
      (p'.qos ≠ .atMostOnce ∧ p'.packetId = some x.2 ∧ x.1 = msg) ∨ x ∈ held { s with queue } := by
  intro x hx
  rcases mem_held.mp hx with ⟨e, member, own⟩ | waits
  · rcases Outbound.mem_sentWindow member with ⟨publish, origin, -, qos, -⟩ | ⟨old, -⟩
    · obtain ⟨own, id⟩ := ofEntry_eq_some.mp own
      rw [publish] at id
      exact .inl ⟨qos, id, own.symm.trans origin⟩
    · rw [same] at old
      exact .inr (mem_held.mpr (.inl ⟨e, old, own⟩))
  · exact .inr (mem_held.mpr (.inr waits))

theorem owned_deliver (keyed : s.outInflight.WellKeyed) (owned : Owned (held s)) {expired : Bool}
    (apart : expired = false → ∀ packetId ∈ freshId s,
      ∀ x ∈ outside { s with queue := s.queue.tail }, x.2 ≠ packetId)
    (h : Outbound.step s (.deliver expired) = some s') : Owned (held s') := by
  obtain ⟨msg, p, queue, head, ⟨-, rfl⟩ | ⟨sent, p', w, assigned, rfl⟩⟩ := Outbound.step_deliver h
  · exact owned.subset (held_dequeue head)
  · have same := (Outbound.assignPacketId_same assigned).1
    have rest : Owned (held { s with queue }) := owned.subset (held_dequeue head)
    have holds := @held_sent s msg p' queue w same
    by_cases tracked : p'.qos ≠ .atMostOnce ∧ p'.packetId.isSome = true
    · obtain ⟨qos, numbered⟩ := tracked
      obtain ⟨packetId, id⟩ := Option.isSome_iff_exists.mp numbered
      have free := free_of_assigned keyed owned head (apart sent) assigned qos id
      refine @Owned.insert _ _ (msg, packetId) rest free fun x hx => ?_
      rcases holds x hx with ⟨-, own, origin⟩ | old
      · rw [id] at own
        exact .inl (Prod.ext origin (Option.some.inj own).symm)
      · exact .inr old
    · refine rest.subset fun x hx => ?_
      rcases holds x hx with ⟨qos, own, -⟩ | old
      · exact absurd ⟨qos, by rw [own]; rfl⟩ tracked
      · exact old

theorem unshared_deliver (keyed : s.outInflight.WellKeyed) (owned : Owned (held s))
    (apart : ∀ packetId ∈ freshId s,
      ∀ x ∈ outside { s with queue := s.queue.tail }, x.2 ≠ packetId) :
    ∀ e ∈ events s (.arm (.deliver false)), Unshared e := by
  unfold events
  dsimp only
  split
  · simp
  · rename_i msg p queue head
    split
    · simp
    · rename_i p' w assigned
      split
      · simp
      · rename_i qos
        cases id : p'.packetId with
        | none => simp
        | some packetId =>
            have free := free_of_assigned keyed owned head apart assigned qos id
            simp only [Option.map_some, Option.getD_some, List.forall_mem_cons]
            refine ⟨fun holder hholder => ?_, fun old hold => ?_, by simp⟩
            · obtain ⟨x, hx, rfl⟩ := List.mem_map.mp hholder
              obtain ⟨member, same⟩ := List.mem_filter.mp hx
              exact free x member (of_decide_eq_true same)
            · obtain ⟨m, found, rfl⟩ := Option.map_eq_some_iff.mp hold
              exact free (m.origin, packetId)
                (mem_held.mpr (.inl (holder_of_get keyed found))) rfl

theorem unshared_message (keyed : s.outInflight.WellKeyed) (owned : Owned (held s)) :
    ∀ e ∈ events s (.arm .message), Unshared e := by
  unfold events
  dsimp only
  split
  · rename_i m channel head
    cases id : m.publish.packetId with
    | none => simp
    | some packetId =>
        simp only [Option.map_some, Option.toList_some, List.forall_mem_singleton]
        intro old hold
        obtain ⟨m', found, rfl⟩ := Option.map_eq_some_iff.mp hold
        have holder : (m.origin, packetId) ∈ held s := by
          refine mem_held.mpr (.inr (mem_outside.mpr (.inl ⟨.sendRerelease m, ?_, ?_⟩)))
          · rw [head]
            exact List.mem_cons_self
          · rw [ofMessage, id]
            rfl
        exact owned (m'.origin, packetId) (mem_held.mpr (.inl (holder_of_get keyed found)))
          (m.origin, packetId) holder rfl
  · simp

/-! ## Runs -/

theorem inv_initial (version : Outbound.Version) (cap : NonZeroU16)
    (retryInterval expiryInterval : TimestampMillis) (toBack : Bool) (queueCap : Nat) :
    Inv (initial version cap retryInterval expiryInterval toBack queueCap) where
  keyed := OutInflight.wellKeyed_new _ _ _ _
  owned := fun x hx => (by cases hx)
  unshared := fun e he => (by cases he)

theorem unshared_append {trace new : List Event} (old : ∀ e ∈ trace, Unshared e)
    (added : ∀ e ∈ new, Unshared e) : ∀ e ∈ trace ++ new, Unshared e :=
  List.forall_mem_append.mpr ⟨old, added⟩

theorem inv_arm {s s' : State} {a : Outbound.Step} (inv : Inv s) (apart : Apart s (.arm a))
    (h : step s (.arm a) = some s') : Inv s' := by
  obtain ⟨acks, moved, rfl⟩ := Option.map_eq_some_iff.mp h
  obtain ⟨packet, client, session, taken, rfl⟩ := Acks.step_arm moved
  have keyed := Outbound.wellKeyed_step inv.keyed taken
  cases a with
  | forward p =>
      cases taken
      refine ⟨keyed, inv.owned.subset fun x hx => ?_, unshared_append inv.unshared (by simp [events])⟩
      simpa [held, outside, ofMessage, ofItem] using hx
  | tick elapsed =>
      cases taken
      exact ⟨keyed, inv.owned, unshared_append inv.unshared (by simp [events])⟩
  | timeout expired =>
      exact ⟨keyed, inv.owned.subset (held_timeout taken),
        unshared_append inv.unshared (by simp [events])⟩
  | deliver expired =>
      cases expired with
      | true =>
          exact ⟨keyed, owned_deliver inv.keyed inv.owned (by simp) taken,
            unshared_append inv.unshared (by simp [events])⟩
      | false =>
          exact ⟨keyed, owned_deliver inv.keyed inv.owned (fun _ => apart) taken,
            unshared_append inv.unshared (unshared_deliver inv.keyed inv.owned apart)⟩
  | message =>
      exact ⟨keyed, inv.owned.subset (held_message taken),
        unshared_append inv.unshared (unshared_message inv.keyed inv.owned)⟩
  | packet => exact absurd rfl packet
  | client => exact absurd rfl client

theorem inv_step {s s' : State} (a : Step) (inv : Inv s) (apart : Apart s a)
    (h : step s a = some s') : Inv s' := by
  cases a with
  | arm a => exact inv_arm inv apart h
  | receive packet =>
      cases h
      refine ⟨?_, inv.owned.subset (held_receive packet),
        unshared_append inv.unshared (by simp [events])⟩
      exact Acks.wellKeyed_receive inv.keyed packet
  | transfer inflight offline =>
      obtain ⟨-, taken⟩ := Option.ite_none_right_eq_some.mp h
      cases taken
      obtain ⟨distinct, free⟩ := apart
      refine ⟨inv.keyed, ?_, unshared_append inv.unshared (by simp [events])⟩
      refine (inv.owned.append distinct free).subset fun x hx => ?_
      rw [List.mem_append, mem_held, mem_outside]
      rcases mem_held.mp hx with window | waits
      · exact .inl (.inl window)
      · rcases mem_outside.mp waits with ⟨m, member, id⟩ | queued
        · rcases List.mem_append.mp member with old | new
          · exact .inl (.inr (.inl ⟨m, old, id⟩))
          · exact .inr (List.mem_filterMap.mpr ⟨m, new, id⟩)
        · exact .inl (.inr (.inr queued))

/-- In every run in which a fresh packet id is not that of a message that waits outside of the
window, and the packet ids of a transfer are distinct and not in use: when a PUBLISH is sent the
session has no other message under its packet id, a `push_back` replaces no entry of another message,
and a packet id has one holder. -/
theorem packet_ids_not_shared (version : Outbound.Version) (cap : NonZeroU16)
    (retryInterval expiryInterval : TimestampMillis) (toBack : Bool) (queueCap : Nat)
    {steps : List Step} {s : State}
    (apart : Machine.Guarded step Apart
      (initial version cap retryInterval expiryInterval toBack queueCap) steps)
    (ran : Machine.run step (initial version cap retryInterval expiryInterval toBack queueCap) steps =
      some s) :
    (∀ e ∈ s.trace, Unshared e) ∧
      ∀ x ∈ held s.acks.session, ∀ y ∈ held s.acks.session, x.2 = y.2 → x.1 = y.1 := by
  have inv := Machine.invariant_guarded (fun _ a _ inv apart h => inv_step a inv apart h) apart ran
    (inv_initial version cap retryInterval expiryInterval toBack queueCap)
  exact ⟨inv.unshared, inv.owned⟩

/-- The maximum of a client that takes three publishes at a time. -/
def three : NonZeroU16 := ⟨3, by decide⟩

/-- A message of the earlier session, sent there with the id 1. -/
def unacknowledged (origin : MsgId) : OutInflightMessage MsgId where
  publish := { Outbound.reading with qos := .atLeastOnce, packetId := some Window.single }
  origin := origin
  status := .unAck
  updateTime := 0

/-- The message of the earlier session is sent again, and then a publish with the next id. -/
def transferFirst : List Step :=
  [.transfer [unacknowledged 0] [], .arm .message, .arm (.deliver false),
    .arm (.forward Outbound.reading), .arm .message, .arm (.deliver false), .arm (.tick 20000),
    .arm (.timeout false), .arm .message, .arm (.deliver false)]

theorem packet_ids_not_shared_transfer_first :
    ∃ s, Machine.run step (initial .v5 three 20000 0 true 1000) transferFirst = some s ∧
      s.trace.length = 6 ∧ ∀ e ∈ s.trace, Unshared e := by
  have apart : Machine.Guarded step Apart (initial .v5 three 20000 0 true 1000) transferFirst := by
    decide
  exact ⟨_, rfl, rfl, (packet_ids_not_shared .v5 three 20000 0 true 1000 apart rfl).1⟩

/-- A publish is sent before the messages of the earlier session come in. -/
def transferSecond : List Step :=
  [.arm (.forward Outbound.reading), .arm .message, .arm (.deliver false),
    .transfer [unacknowledged 1] [], .arm .message, .arm (.deliver false)]

/-- The message of the earlier session is sent under the id of the publish, which is not
acknowledged, and takes its entry in the window. -/
theorem transferred_id_shared :
    ∃ s, Machine.run step (initial .v5 three 20000 0 true 1000) transferSecond = some s ∧
      s.trace = [.sent 0 Window.single [], .pushed 0 Window.single none,
        .sent 1 Window.single [0], .pushed 1 Window.single (some 0)] ∧
      ¬ ∀ e ∈ s.trace, Unshared e := by
  refine ⟨_, rfl, by decide, fun unshared => ?_⟩
  have same := unshared (.sent 1 Window.single [0]) (by decide) 0 (by decide)
  cases same

end OxiMqtt.Session.PacketIds

import OxiMqtt.Bench.Outbound
import OxiMqtt.Lib.Machine

/-!
# Acknowledgements that come late

A session against a broker that acknowledges every message that it receives, as late as it may be.
Of each message the one packet is followed that is on its way: the PUBLISH, its acknowledgement, and
at QoS 2 the PUBREL and the PUBCOMP.

A sweep gives the packet id of a message back whose acknowledgement is on its way, and the id is
taken for the next message.

* `Inv.step`: where no sweep drops a message, the packets on the way are of the messages in flight.
* `acks_credited`: every acknowledgement is credited to its message, in runs of such steps.
* `late_ack_credited`: an acknowledgement that is credited to another one.
-/

namespace OxiMqtt.Bench.LateAcks

open Collections

/-- The packet of a message that is on its way, or with the broker. -/
inductive Leg : Type
  | publish
  | pubAck
  | pubRec
  | pubRel
  | pubComp
  deriving DecidableEq, Repr

/-- A message, by its number, its packet id, and how far it has come. -/
structure Exchange : Type where
  msg : Nat
  pid : UInt16
  leg : Leg
  deriving DecidableEq, Repr

/-- A session with the broker, and what became of the messages.  `published` are the packet ids of
the messages, the last one first; `sent` are the messages, each with those whose packets were on the
way under its id; `credited` are the messages whose acknowledgements arrived, each with that which
it was counted for. -/
structure State : Type where
  flow : Flow
  published : List UInt16 := []
  onWay : List Exchange := []
  sent : List (Nat × List Nat) := []
  credited : List (Nat × Option Nat) := []
  deriving DecidableEq, Repr

/-- The message that was last published with the id. -/
def holder (pid : UInt16) : List UInt16 → Option Nat
  | [] => none
  | p :: published => if p = pid then some published.length else holder pid published

/-- The packet id of a PUBLISH. -/
def publishedId : Packet → Option UInt16
  | .publish p => p.pid
  | _ => none

namespace State

/-- A PUBLISH goes out. -/
def send (s : State) (pid : UInt16) : State :=
  let msg := s.published.length
  { s with
    published := pid :: s.published
    onWay := s.onWay ++ [⟨msg, pid, .publish⟩]
    sent := s.sent ++ [(msg, (s.onWay.filter fun x => x.pid = pid).map Exchange.msg)] }

/-- `Outbound::fill`, and what it queued is sent. -/
def fill (ctx : Ctx) (id : String) (clock : Nat → UInt64) (s : State) : State :=
  let flow := Flow.fill ctx id clock { s.flow with pending := [] }
  (flow.pending.filterMap publishedId).foldl send { s with flow }

/-- PUBACK or PUBCOMP arrives. -/
def acked (s : State) (x : Exchange) : State :=
  { s with
    flow := s.flow.onAck x.pid
    credited :=
      if (s.flow.out.inflight.lookup x.pid).isSome then
        s.credited ++ [(x.msg, holder x.pid s.published)]
      else s.credited }

end State

/-- The broker answers a packet. -/
def answer (qos : UInt8) : Leg → Option Leg
  | .publish => some (if qos = 1 then .pubAck else .pubRec)
  | .pubRel => some .pubComp
  | _ => none

inductive Action : Type
  | fill (clock : Nat → UInt64)
  /-- The broker answers the packet of the `i`-th exchange. -/
  | answer (i : Nat)
  /-- The answer of the `i`-th exchange arrives. -/
  | arrive (i : Nat)
  | sweepTimeouts (walk : Walk (UInt16 × InflightMsg)) (nowUs : UInt64)

def step (ctx : Ctx) (id : String) (s : State) : Action → Option State
  | .fill clock => some (s.fill ctx id clock)
  | .answer i => do
      let x ← s.onWay[i]?
      let leg ← answer s.flow.out.qos x.leg
      return { s with onWay := s.onWay.set i { x with leg } }
  | .arrive i => do
      let x ← s.onWay[i]?
      match x.leg with
      | .publish | .pubRel => none
      | .pubAck | .pubComp => some ({ s with onWay := s.onWay.eraseIdx i }.acked x)
      | .pubRec =>
          -- a PUBREC of no message in flight is not answered
          if (s.flow.out.inflight.lookup x.pid).isSome then
            some { s with
              flow := s.flow.onPubrec ctx x.pid
              onWay := s.onWay.set i { x with leg := .pubRel } }
          else some { s with onWay := s.onWay.eraseIdx i }
  | .sweepTimeouts walk nowUs =>
      some { s with flow := s.flow.sweepTimeouts ctx walk nowUs }

/-- Every acknowledgement that was counted is that of the message that it was counted for, and no id
was taken while a packet of a message with that id was on its way. -/
def Right (s : State) : Prop :=
  (∀ c ∈ s.credited, c.2 = some c.1) ∧ ∀ m ∈ s.sent, m.2 = []

instance (s : State) : Decidable (Right s) := inferInstanceAs (Decidable (_ ∧ _))

/-- A sweep finds no message that waits for longer than the timeout. -/
def InTime (ctx : Ctx) (s : State) : Action → Prop
  | .sweepTimeouts _ nowUs => ctx.args.ackTimeout = 0 ∨
      ∀ e ∈ s.flow.out.inflight,
        ¬ e.2.tsUs < saturatingSub nowUs (ctx.args.ackTimeout * 1000000)
  | _ => True

instance (ctx : Ctx) (s : State) : (a : Action) → Decidable (InTime ctx s a)
  | .sweepTimeouts _ _ => inferInstanceAs (Decidable (_ ∨ _))
  | .fill _ | .answer _ | .arrive _ => isTrue trivial

/-! ## What `fill` publishes -/

section

variable {ctx : Ctx} {id : String} {window : Nat}

/-- The packet ids of the messages in flight. -/
abbrev keys (f : Flow) : List UInt16 := f.out.inflight.map Prod.fst

/-- New ids are published, and they are then in flight. -/
structure Publishes (f f' : Flow) (new : List UInt16) : Prop where
  pending : f'.pending.filterMap publishedId = f.pending.filterMap publishedId ++ new
  distinct : new.Nodup
  fresh : ∀ pid ∈ new, pid ∉ keys f
  inflight : ∀ pid, pid ∈ keys f' ↔ pid ∈ keys f ∨ pid ∈ new

theorem Publishes.nothing {f f' : Flow} (pending : f'.pending = f.pending)
    (inflight : keys f' = keys f) : Publishes f f' [] where
  pending := by rw [pending, List.append_nil]
  distinct := List.nodup_nil
  fresh pid h := absurd h List.not_mem_nil
  inflight pid := by
    rw [inflight]
    exact ⟨.inl, fun h => h.resolve_right List.not_mem_nil⟩

theorem Publishes.trans {f f' f'' : Flow} {new new' : List UInt16} (h : Publishes f f' new)
    (h' : Publishes f' f'' new') : Publishes f f'' (new ++ new') where
  pending := by rw [h'.pending, h.pending, List.append_assoc]
  distinct := List.nodup_append.mpr ⟨h.distinct, h'.distinct, fun pid hp pid' hp' same =>
    h'.fresh pid' hp' ((h.inflight pid').mpr (.inr (same ▸ hp)))⟩
  fresh pid hp := by
    rcases List.mem_append.mp hp with hp | hp
    · exact h.fresh pid hp
    · exact fun old => h'.fresh pid hp ((h.inflight pid).mpr (.inl old))
  inflight pid := by rw [h'.inflight, h.inflight, List.mem_append, or_assoc]

theorem publishes_fillLoop (ctx : Ctx) (id : String) (few : window ≤ 65535)
    (clock : Nat → UInt64) (turns queued : Nat) {f : Flow} (inv : f.out.Inv window) :
    ∃ new, Publishes f (Flow.fillLoop ctx id clock turns queued f) new := by
  induction turns generalizing queued f with
  | zero => exact ⟨[], .nothing rfl rfl⟩
  | succ turns ih =>
      unfold Flow.fillLoop
      split
      · exact ⟨[], .nothing rfl rfl⟩
      split
      · rename_i acked
        split
        · rename_i pid slots taken
          have published := Keeps.publish ctx id inv few acked taken (clock queued)
          obtain ⟨new, later⟩ := ih (queued + 1) published.inv
          have first : Publishes f
              (Flow.publish ctx id (clock queued) pid { f with out := { f.out with slots } })
              [pid] := by
            unfold Flow.publish
            simp only [acked, if_true]
            refine ⟨List.filterMap_append, List.nodup_singleton pid, fun p hp => ?_, fun p => ?_⟩
            · rw [List.mem_singleton.mp hp]
              exact inv.notMem few taken
            · rw [List.mem_singleton, or_comm]
              exact Assoc.mem_keys_insert
          exact ⟨_, first.trans later⟩
        · exact ⟨[], .nothing rfl rfl⟩
      · rename_i unacked
        have published := Keeps.publish_unacked ctx id inv unacked (clock queued)
        obtain ⟨new, later⟩ := ih (queued + 1) published.inv
        have first : Publishes f (Flow.publish ctx id (clock queued) 0 f) [] := by
          unfold Flow.publish
          simp only [unacked, if_false]
          refine ⟨List.filterMap_append, List.nodup_nil, fun p hp => absurd hp List.not_mem_nil,
            fun p => ⟨.inl, fun h => h.resolve_right List.not_mem_nil⟩⟩
        exact ⟨_, first.trans later⟩

/-! ## The packets on the way -/

/-- The packets on the way are of different ids, and each of the last message with its id. -/
structure Tracked (published : List UInt16) (onWay : List Exchange) : Prop where
  holders : ∀ x ∈ onWay, holder x.pid published = some x.msg
  distinct : (onWay.map Exchange.pid).Nodup

variable {published : List UInt16} {onWay : List Exchange} {s s' : State} {x : Exchange} {i : Nat}

theorem Tracked.send (tracked : Tracked published onWay) {pid : UInt16}
    (fresh : pid ∉ onWay.map Exchange.pid) :
    Tracked (pid :: published) (onWay ++ [⟨published.length, pid, .publish⟩]) where
  holders x hx := by
    rw [holder]
    rcases List.mem_append.mp hx with old | new
    · have other : pid ≠ x.pid := fun same => fresh (same ▸ List.mem_map_of_mem old)
      rw [if_neg other]
      exact tracked.holders x old
    · rw [List.mem_singleton.mp new, if_pos rfl]
  distinct := by
    rw [List.map_append, List.nodup_append]
    refine ⟨tracked.distinct, List.nodup_singleton pid, fun p hp p' hp' same => fresh ?_⟩
    have own : p' = pid := List.mem_singleton.mp hp'
    rwa [← own, ← same]

/-- A packet is followed by the next one of its exchange. -/
theorem Tracked.advance (tracked : Tracked published onWay) (found : onWay[i]? = some x)
    (leg : Leg) : Tracked published (onWay.set i { x with leg }) ∧
      (onWay.set i { x with leg }).map Exchange.pid = onWay.map Exchange.pid := by
  have same : (onWay.set i { x with leg }).map Exchange.pid = onWay.map Exchange.pid := by
    obtain ⟨within, rfl⟩ := List.getElem?_eq_some_iff.mp found
    have within' : i < (onWay.map Exchange.pid).length := by rwa [List.length_map]
    have entry : (onWay.map Exchange.pid)[i] = onWay[i].pid := List.getElem_map _
    rw [List.map_set, ← entry, List.set_getElem_self]
  refine ⟨⟨fun y hy => ?_, same ▸ tracked.distinct⟩, same⟩
  rcases List.mem_or_eq_of_mem_set hy with old | rfl
  · exact tracked.holders y old
  · exact tracked.holders x (List.mem_of_getElem? found)

/-- The packets that are left are of other ids. -/
theorem Tracked.finish (tracked : Tracked published onWay) (found : onWay[i]? = some x) :
    Tracked published (onWay.eraseIdx i) ∧
      ∀ y ∈ onWay.eraseIdx i, y ∈ onWay ∧ y.pid ≠ x.pid := by
  refine ⟨⟨fun y hy => tracked.holders y (List.mem_of_mem_eraseIdx hy), ?_⟩, fun y hy =>
    ⟨List.mem_of_mem_eraseIdx hy, fun same => ?_⟩⟩
  · exact tracked.distinct.sublist ((List.eraseIdx_sublist _ _).map _)
  · obtain ⟨j, other, at_j⟩ := List.mem_eraseIdx_iff_getElem?.mp hy
    have within : j < (onWay.map Exchange.pid).length := by
      rw [List.length_map]
      exact (List.getElem?_eq_some_iff.mp at_j).1
    refine other (List.getElem?_inj within tracked.distinct |>.mp ?_)
    rw [List.getElem?_map, List.getElem?_map, at_j, found, Option.map_some, Option.map_some, same]

/-- The packets on the way are of messages in flight, and so far everything is right. -/
structure Inv (window : Nat) (s : State) : Prop where
  out : s.flow.out.Inv window
  tracked : Tracked s.published s.onWay
  inflight : ∀ x ∈ s.onWay, x.pid ∈ keys s.flow
  right : Right s

theorem sends (new : List UInt16) (distinct : new.Nodup) (tracked : Tracked s.published s.onWay)
    (fresh : ∀ pid ∈ new, pid ∉ s.onWay.map Exchange.pid) (right : Right s) :
    let s' := new.foldl State.send s
    s'.flow = s.flow ∧ Tracked s'.published s'.onWay ∧ Right s' ∧
      ∀ x ∈ s'.onWay, x ∈ s.onWay ∨ x.pid ∈ new := by
  induction new generalizing s with
  | nil => exact ⟨rfl, tracked, right, fun x hx => .inl hx⟩
  | cons pid new ih =>
      obtain ⟨apart, distinct⟩ := List.nodup_cons.mp distinct
      have free := fresh pid List.mem_cons_self
      have alone : s.onWay.filter (fun x => x.pid = pid) = [] := by
        refine List.filter_eq_nil_iff.mpr fun x hx same => free ?_
        exact of_decide_eq_true same ▸ List.mem_map_of_mem hx
      have right' : Right (s.send pid) := by
        refine ⟨right.1, List.forall_mem_append.mpr ⟨right.2, List.forall_mem_singleton.mpr ?_⟩⟩
        rw [alone]
        rfl
      have fresh' : ∀ p ∈ new, p ∉ (s.send pid).onWay.map Exchange.pid := by
        intro p hp
        change p ∉ (s.onWay ++ [_]).map Exchange.pid
        rw [List.map_append, List.mem_append]
        rintro (old | own)
        · exact fresh p (List.mem_cons_of_mem _ hp) old
        · have same : p = pid := List.mem_singleton.mp own
          exact apart (same ▸ hp)
      obtain ⟨flow, tracked', right'', onWay⟩ := ih distinct (tracked.send free) fresh' right'
      refine ⟨flow, tracked', right'', fun x hx => ?_⟩
      rcases onWay x hx with old | new
      · rcases List.mem_append.mp old with old | own
        · exact .inl old
        · rw [List.mem_singleton.mp own]
          exact .inr List.mem_cons_self
      · exact .inr (List.mem_cons_of_mem _ new)

theorem Inv.fill (inv : Inv window s) (few : window ≤ 65535) (clock : Nat → UInt64) :
    Inv window (s.fill ctx id clock) := by
  have start : ({ s.flow with pending := [] } : Flow).out.Inv window := inv.out
  obtain ⟨new, publishes⟩ := publishes_fillLoop ctx id few clock
    (if ctx.args.pubInterval = 0 then ctx.args.maxInflight else 1) 0 start
  have filled := (Keeps.fillLoop ctx id few clock
    (if ctx.args.pubInterval = 0 then ctx.args.maxInflight else 1) 0 start).inv
  have fresh : ∀ pid ∈ new, pid ∉ s.onWay.map Exchange.pid := by
    intro pid hp hx
    obtain ⟨x, member, rfl⟩ := List.mem_map.mp hx
    exact publishes.fresh x.pid hp (inv.inflight x member)
  have pending := publishes.pending
  rw [List.filterMap_nil, List.nil_append] at pending
  unfold State.fill Flow.fill
  dsimp only
  rw [pending]
  generalize Flow.fillLoop ctx id clock _ 0 { s.flow with pending := [] } = flow
    at publishes filled
  obtain ⟨same, tracked, right, onWay⟩ := sends (s := { s with flow }) new publishes.distinct
    inv.tracked fresh inv.right
  refine ⟨same ▸ filled, tracked, fun x hx => ?_, right⟩
  rw [same]
  refine (publishes.inflight x.pid).mpr ?_
  exact (onWay x hx).imp (inv.inflight x) fun h => h

theorem Inv.answer (inv : Inv window s) (found : s.onWay[i]? = some x) (leg : Leg) :
    Inv window { s with onWay := s.onWay.set i { x with leg } } := by
  obtain ⟨tracked, same⟩ := inv.tracked.advance found leg
  refine ⟨inv.out, tracked, fun y hy => ?_, inv.right⟩
  rcases List.mem_or_eq_of_mem_set hy with old | rfl
  · exact inv.inflight y old
  · exact inv.inflight x (List.mem_of_getElem? found)

/-- The acknowledgement of a message in flight, which no other packet on the way is of. -/
theorem Inv.acked (inv : Inv window s) (found : s.onWay[i]? = some x) :
    Inv window ({ s with onWay := s.onWay.eraseIdx i }.acked x) := by
  have member := List.mem_of_getElem? found
  have present := inv.inflight x member
  have lookup := Assoc.isSome_lookup.mpr present
  obtain ⟨tracked, others⟩ := inv.tracked.finish found
  refine ⟨(Keeps.onAck inv.out x.pid).inv, tracked, fun y hy => ?_, ?_, inv.right.2⟩
  · obtain ⟨old, other⟩ := others y hy
    change y.pid ∈ keys (s.flow.onAck x.pid)
    rw [Flow.onAck, if_pos lookup]
    exact Assoc.mem_keys_erase.mpr ⟨other, inv.inflight y old⟩
  · change ∀ c ∈ if (s.flow.out.inflight.lookup x.pid).isSome = true then
      s.credited ++ [(x.msg, holder x.pid s.published)] else s.credited, c.2 = some c.1
    rw [if_pos lookup]
    refine List.forall_mem_append.mpr ⟨inv.right.1, List.forall_mem_singleton.mpr ?_⟩
    exact inv.tracked.holders x member

theorem Inv.pubrec (inv : Inv window s) (found : s.onWay[i]? = some x) :
    Inv window { s with
      flow := s.flow.onPubrec ctx x.pid
      onWay := s.onWay.set i { x with leg := .pubRel } } := by
  have answered := inv.answer found .pubRel
  refine ⟨(Keeps.onPubrec inv.out x.pid).inv, answered.tracked, fun y hy => ?_, inv.right⟩
  have old := answered.inflight y hy
  change y.pid ∈ keys (s.flow.onPubrec ctx x.pid)
  unfold Flow.onPubrec
  split
  · exact Assoc.mem_keys_insert.mpr (.inr old)
  · exact old

/-- A sweep that finds no message too old leaves everything as it is. -/
theorem sweep_inTime {walk : Walk (UInt16 × InflightMsg)} {nowUs : UInt64}
    (inTime : InTime ctx s (.sweepTimeouts walk nowUs)) :
    s.flow.sweepTimeouts ctx walk nowUs = s.flow := by
  unfold Flow.sweepTimeouts
  split
  · rfl
  · rename_i timeout
    have none : Flow.stale ctx walk nowUs s.flow.out = [] := by
      rw [Flow.stale, List.map_eq_nil_iff, List.filter_eq_nil_iff]
      intro e he old
      exact inTime.resolve_left timeout e (walk.mem_visit.mp he) (of_decide_eq_true old)
    rw [none]
    rfl

theorem Inv.step (inv : Inv window s) (few : window ≤ 65535) {a : Action}
    (inTime : InTime ctx s a) (stepped : step ctx id s a = some s') : Inv window s' := by
  cases a with
  | fill clock =>
      cases stepped
      exact inv.fill few clock
  | answer i =>
      obtain ⟨x, found, stepped⟩ := Option.bind_eq_some_iff.mp stepped
      obtain ⟨leg, -, eq⟩ := Option.bind_eq_some_iff.mp stepped
      cases eq
      exact inv.answer found leg
  | arrive i =>
      obtain ⟨x, found, stepped⟩ := Option.bind_eq_some_iff.mp stepped
      cases leg : x.leg with
      | publish =>
          rw [leg] at stepped
          cases stepped
      | pubRel =>
          rw [leg] at stepped
          cases stepped
      | pubAck =>
          rw [leg] at stepped
          cases stepped
          exact inv.acked found
      | pubComp =>
          rw [leg] at stepped
          cases stepped
          exact inv.acked found
      | pubRec =>
          rw [leg] at stepped
          have present := inv.inflight x (List.mem_of_getElem? found)
          rw [if_pos (Assoc.isSome_lookup.mpr present)] at stepped
          cases stepped
          exact inv.pubrec found
  | sweepTimeouts walk nowUs =>
      cases stepped
      rw [sweep_inTime inTime]
      exact inv

/-- A session at its start. -/
def initial (ctx : Ctx) (no : Nat) (receiveMax : Option UInt16) : State where
  flow := ⟨Outbound.new ctx no receiveMax, {}, []⟩

/-- In a run whose sweeps find no message too old, every acknowledgement is credited to its message,
and no id is taken while a packet of a message with that id is on its way. -/
theorem acks_credited (valid : ctx.args.validate = .ok ()) (no : Nat) (receiveMax : Option UInt16)
    (actions : List Action)
    (inTime : Machine.Guarded (LateAcks.step ctx id) (InTime ctx)
      (initial ctx no receiveMax) actions)
    (ran : Machine.run (LateAcks.step ctx id) (initial ctx no receiveMax) actions = some s') :
    Right s' := by
  have few := (capacity_new valid no receiveMax).2
  have start : Inv (Outbound.new ctx no receiveMax).slots.capacity (initial ctx no receiveMax) :=
    ⟨Outbound.inv_new ctx no receiveMax, ⟨fun x hx => absurd hx List.not_mem_nil, List.nodup_nil⟩,
      fun x hx => absurd hx List.not_mem_nil,
      fun c hc => absurd hc List.not_mem_nil, fun m hm => absurd hm List.not_mem_nil⟩
  exact (Machine.invariant_guarded (fun _ _ _ inv inTime stepped => inv.step few inTime stepped)
    inTime ran start).right

end

/-- A sweep comes two seconds after a message, which has a timeout of one. -/
def impatient : Ctx where
  args := { publisher.args with ackTimeout := 1 }
  proto := .v5
  peers := publisher.peers
  processId := 1

/-- The message is acknowledged before a sweep, and after one that comes in time. -/
theorem acks_credited_in_time :
    ∃ s ∈ Machine.run (step impatient "c") (initial impatient 0 (some 1))
        [.fill fun _ => 0, .sweepTimeouts .inOrder 1000000, .answer 0, .arrive 0,
          .sweepTimeouts .inOrder 2000000, .fill fun _ => 2000000],
      s.credited = [(0, some 0)] ∧ Right s := by
  have ran : (Machine.run (step impatient "c") (initial impatient 0 (some 1))
      [.fill fun _ => 0, .sweepTimeouts .inOrder 1000000, .answer 0, .arrive 0,
        .sweepTimeouts .inOrder 2000000, .fill fun _ => 2000000]).isSome := by decide
  refine ⟨_, Option.get_mem ran, rfl, ?_⟩
  exact acks_credited (by decide) 0 (some 1) _ (by decide) (Option.get_mem ran)

/-- The sweep gives the id back, the next message takes it, and then the acknowledgement arrives. -/
theorem late_ack_credited :
    ∃ s ∈ Machine.run (step impatient "c") (initial impatient 0 (some 1))
        [.fill fun _ => 0, .sweepTimeouts .inOrder 2000000, .fill fun _ => 2000000, .answer 0,
          .arrive 0],
      s.sent = [(0, []), (1, [0])] ∧ s.credited = [(0, some 1)] ∧ ¬ Right s := by
  decide

end OxiMqtt.Bench.LateAcks

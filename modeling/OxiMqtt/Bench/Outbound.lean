import OxiMqtt.Bench.Packets
import OxiMqtt.Bench.Stats
import OxiMqtt.Bench.Window
import OxiMqtt.Lib.Gather

/-!
# The publish side of a session

`Outbound` of `oximqtt-bench/src/client.rs`: the window of packet ids, and the messages in flight by
their ids.

* `Keeps`: what every operation does to the window and the messages, and to the two statistics that
  count them.
* `window_kept`: the messages in flight have the claimed ids, and are no more than the window.
* `receive_max_zero`: a window has room for one message where the broker allows none.
-/

namespace OxiMqtt.Bench

open Collections

/-- `InflightMsg` -/
structure InflightMsg : Type where
  tsUs : UInt64
  pubrelSent : Bool
  deriving DecidableEq, Repr

/-- `Outbound` -/
structure Outbound : Type where
  qos : UInt8
  slots : Slots
  inflight : Assoc UInt16 InflightMsg
  sent : UInt64
  rnd : Rng
  deriving DecidableEq, Repr

/-- The publish side of a session, with what its operations write to: the statistics, and the
packets that are to be sent. -/
structure Flow : Type where
  out : Outbound
  stats : Stats
  pending : List Packet
  deriving DecidableEq, Repr

namespace Outbound

/-- `Outbound::new` -/
def new (ctx : Ctx) (no : Nat) (receiveMax : Option UInt16) : Outbound :=
  let window :=
    match receiveMax with
    | some broker => max (min ctx.args.maxInflight broker.toNat) 1
    | none => ctx.args.maxInflight
  { qos := ctx.args.qos
    slots := Slots.new window
    inflight := []
    sent := 0
    rnd := Rng.new (UInt64.ofNat no + 1) }

/-- `Outbound::limit_reached` -/
def limitReached (out : Outbound) (ctx : Ctx) : Bool :=
  decide (ctx.args.maxLimit > 0) && decide (out.sent ≥ ctx.args.maxLimit)

/-- `Outbound::unreleased_pubrel` -/
def unreleasedPubrel (out : Outbound) : Nat := out.inflight.countP fun e => e.2.pubrelSent

end Outbound

/-- `u64::saturating_sub` -/
def saturatingSub (a b : UInt64) : UInt64 := if b ≤ a then a - b else 0

namespace Flow

/-- The rest of a turn of `fill`, which has a packet id, 0 at QoS 0. -/
def publish (ctx : Ctx) (id : String) (ts : UInt64) (pid : UInt16) (f : Flow) : Flow :=
  let (no, rnd) := f.out.rnd.nextIn ctx.args.topicRange
  let (topic, rnd) := expand ctx.processId ctx.args.topicPattern no id rnd
  let payload := ctx.payload.build ts
  let wire := publishWireSize ctx.proto topic payload.length f.out.qos
  let inflight := if f.out.qos > 0 then f.out.inflight.insert pid ⟨ts, false⟩ else f.out.inflight
  let stats := if f.out.qos > 0 then f.stats.inflightInc else f.stats
  { out := { f.out with inflight, sent := f.out.sent + 1, rnd }
    stats := stats.sent wire
    pending := f.pending ++
      [Packets.publish ctx topic payload (if f.out.qos > 0 then some pid else none)] }

/-- The turns of `fill` that are left; `clock` is the time at each turn. -/
def fillLoop (ctx : Ctx) (id : String) (clock : Nat → UInt64) : Nat → Nat → Flow → Flow
  | 0, _, f => f
  | turns + 1, queued, f =>
      if f.out.limitReached ctx then f
      else if f.out.qos > 0 then
        match f.out.slots.take with
        | some (pid, slots) =>
            fillLoop ctx id clock turns (queued + 1)
              (publish ctx id (clock queued) pid { f with out := { f.out with slots } })
        | none => { f with stats := f.stats.inflightBlocked }
      else fillLoop ctx id clock turns (queued + 1) (publish ctx id (clock queued) 0 f)

/-- `Outbound::fill` -/
def fill (ctx : Ctx) (id : String) (clock : Nat → UInt64) (f : Flow) : Flow :=
  let batch := if ctx.args.pubInterval = 0 then ctx.args.maxInflight else 1
  fillLoop ctx id clock batch 0 f

/-- The message is in flight no longer. -/
def remove (pid : UInt16) (f : Flow) : Flow :=
  { f with
    out := { f.out with inflight := f.out.inflight.erase pid, slots := f.out.slots.release pid }
    stats := f.stats.inflightDec }

/-- `Outbound::on_ack` -/
def onAck (pid : UInt16) (f : Flow) : Flow :=
  if (f.out.inflight.lookup pid).isSome then
    let f := f.remove pid
    { f with stats := f.stats.acked }
  else { f with stats := f.stats.error ("ack for unknown packet id " ++ toString pid) }

/-- `Outbound::on_pubrec` -/
def onPubrec (ctx : Ctx) (pid : UInt16) (f : Flow) : Flow :=
  match f.out.inflight.lookup pid with
  | some msg =>
      { f with
        out := { f.out with
          inflight := f.out.inflight.insert pid { msg with pubrelSent := true } }
        pending := f.pending ++ [Packets.ack ctx .pubRel pid] }
  | none => f

/-- The messages that a sweep finds too old. -/
def stale (ctx : Ctx) (walk : Walk (UInt16 × InflightMsg)) (nowUs : UInt64) (out : Outbound) :
    List UInt16 :=
  let cutoff := saturatingSub nowUs (ctx.args.ackTimeout * 1000000)
  ((walk.visit out.inflight).filter fun e => e.2.tsUs < cutoff).map Prod.fst

/-- A message of a sweep. -/
def timeOut (f : Flow) (pid : UInt16) : Flow :=
  let f := f.remove pid
  { f with stats := f.stats.ackTimeout }

/-- `Outbound::sweep_timeouts` -/
def sweepTimeouts (ctx : Ctx) (walk : Walk (UInt16 × InflightMsg)) (nowUs : UInt64) (f : Flow) :
    Flow :=
  if ctx.args.ackTimeout = 0 then f else (stale ctx walk nowUs f.out).foldl timeOut f

end Flow

/-- A call of one of the operations. -/
inductive Call : Type
  | fill (clock : Nat → UInt64)
  | onAck (pid : UInt16)
  | onPubrec (pid : UInt16)
  | sweepTimeouts (walk : Walk (UInt16 × InflightMsg)) (nowUs : UInt64)

def Flow.call (ctx : Ctx) (id : String) (f : Flow) : Call → Flow
  | .fill clock => f.fill ctx id clock
  | .onAck pid => f.onAck pid
  | .onPubrec pid => f.onPubrec ctx pid
  | .sweepTimeouts walk nowUs => f.sweepTimeouts ctx walk nowUs

/-! ## What the operations keep -/

/-- The messages in flight have the claimed ids, each its own; there are none at QoS 0. -/
structure Outbound.Inv (window : Nat) (out : Outbound) : Prop where
  capacity : out.slots.capacity = window
  nodup : out.inflight.NodupKeys
  claimed : ∀ pid, pid ∈ out.inflight.map Prod.fst ↔ out.slots.Claimed pid
  unacked : ¬ out.qos > 0 → out.inflight = []

/-- What an operation keeps, and what it counts. -/
structure Keeps (window : Nat) (f f' : Flow) : Prop where
  inv : f'.out.Inv window
  qos : f'.out.qos = f.out.qos
  inflight : f'.stats.inflight - f'.out.inflight.length =
    f.stats.inflight - f.out.inflight.length
  activeConns : f'.stats.activeConns = f.stats.activeConns

section

variable {window : Nat} {f f' f'' : Flow} {ctx : Ctx} {id : String} {pid : UInt16}

theorem Keeps.refl (inv : f.out.Inv window) : Keeps window f f := ⟨inv, rfl, rfl, rfl⟩

theorem Keeps.trans (h : Keeps window f f') (h' : Keeps window f' f'') : Keeps window f f'' :=
  ⟨h'.inv, h'.qos.trans h.qos, h'.inflight.trans h.inflight, h'.activeConns.trans h.activeConns⟩

namespace Outbound

variable {out : Outbound}

theorem Inv.remove (inv : out.Inv window) (pid : UInt16) :
    Inv window { out with inflight := out.inflight.erase pid, slots := out.slots.release pid } where
  capacity := (Slots.capacity_release pid).trans inv.capacity
  nodup := inv.nodup.erase pid
  claimed p := by
    rw [Assoc.mem_keys_erase, Slots.claimed_release, inv.claimed]
  unacked none := by
    change out.inflight.erase pid = []
    rw [inv.unacked none]
    rfl

theorem Inv.insert (inv : out.Inv window) (few : window ≤ 65535) (acked : out.qos > 0)
    {slots : Slots} (taken : out.slots.take = some (pid, slots)) (msg : InflightMsg) :
    Inv window { out with inflight := out.inflight.insert pid msg, slots } where
  capacity := by
    have kept := (Slots.take_some (inv.capacity ▸ few) taken).2.2.1
    exact kept.trans inv.capacity
  nodup := inv.nodup.insert pid msg
  claimed p := by
    have claimed := (Slots.take_some (inv.capacity ▸ few) taken).2.2.2 p
    rw [Assoc.mem_keys_insert, claimed, inv.claimed]
  unacked none := absurd acked none

theorem Inv.notMem (inv : out.Inv window) (few : window ≤ 65535) {slots : Slots}
    (taken : out.slots.take = some (pid, slots)) : pid ∉ out.inflight.map Prod.fst :=
  fun h => (Slots.take_some (inv.capacity ▸ few) taken).2.1 ((inv.claimed pid).mp h)

theorem Inv.length_insert (inv : out.Inv window) (few : window ≤ 65535) {slots : Slots}
    (taken : out.slots.take = some (pid, slots)) (msg : InflightMsg) :
    (out.inflight.insert pid msg).length = out.inflight.length + 1 := by
  have fresh : (out.inflight.lookup pid).isSome = false :=
    Bool.eq_false_iff.mpr (mt Assoc.isSome_lookup.mp (inv.notMem few taken))
  have longer := inv.nodup.length_insert pid msg
  rwa [fresh] at longer

/-- Those in flight are as many as the used slots. -/
theorem Inv.length_eq (inv : out.Inv window) (few : window ≤ 65535) :
    out.inflight.length = out.slots.inUse := by
  rw [← Slots.length_eq_inUse (inv.capacity ▸ few) inv.nodup inv.claimed, List.length_map]

theorem Inv.length_le (inv : out.Inv window) (few : window ≤ 65535) :
    out.inflight.length ≤ window := by
  rw [inv.length_eq few, ← inv.capacity]
  exact List.countP_le_length

theorem Inv.full (inv : out.Inv window) (few : window ≤ 65535) (none : out.slots.take = none) :
    out.inflight.length = window := by
  rw [inv.length_eq few, Slots.take_eq_none.mp none, inv.capacity]

end Outbound

theorem Flow.qos_publish (ts : UInt64) : (publish ctx id ts pid f).out.qos = f.out.qos := rfl

theorem Flow.sent_publish (ts : UInt64) : (publish ctx id ts pid f).out.sent = f.out.sent + 1 := rfl

theorem Keeps.publish (ctx : Ctx) (id : String) (inv : f.out.Inv window) (few : window ≤ 65535)
    (acked : f.out.qos > 0)
    {slots : Slots} (taken : f.out.slots.take = some (pid, slots)) (ts : UInt64) :
    Keeps window f (Flow.publish ctx id ts pid { f with out := { f.out with slots } }) := by
  have longer := inv.length_insert few taken ⟨ts, false⟩
  have inserted := inv.insert few acked taken ⟨ts, false⟩
  unfold Flow.publish
  simp only [acked, if_true]
  refine ⟨⟨inserted.capacity, inserted.nodup, inserted.claimed, inserted.unacked⟩, rfl, ?_, rfl⟩
  change f.stats.inflight + 1 - ((f.out.inflight.insert pid ⟨ts, false⟩).length : Int) = _
  omega

theorem Keeps.publish_unacked (ctx : Ctx) (id : String) (inv : f.out.Inv window)
    (unacked : ¬ f.out.qos > 0) (ts : UInt64) : Keeps window f (Flow.publish ctx id ts 0 f) := by
  unfold Flow.publish
  simp only [unacked, if_false]
  exact ⟨⟨inv.capacity, inv.nodup, inv.claimed, inv.unacked⟩, rfl, rfl, rfl⟩

theorem Keeps.fillLoop (ctx : Ctx) (id : String) (few : window ≤ 65535) (clock : Nat → UInt64)
    (turns queued : Nat) (inv : f.out.Inv window) :
    Keeps window f (Flow.fillLoop ctx id clock turns queued f) := by
  induction turns generalizing queued f with
  | zero => exact Keeps.refl inv
  | succ turns ih =>
      unfold Flow.fillLoop
      split
      · exact Keeps.refl inv
      split
      · rename_i acked
        split
        · rename_i pid slots taken
          have published := Keeps.publish ctx id inv few acked taken (clock queued)
          exact published.trans (ih (queued + 1) published.inv)
        · exact ⟨inv, rfl, rfl, rfl⟩
      · rename_i unacked
        have published := Keeps.publish_unacked ctx id inv unacked (clock queued)
        exact published.trans (ih (queued + 1) published.inv)

theorem Keeps.remove (inv : f.out.Inv window) (present : pid ∈ f.out.inflight.map Prod.fst) :
    Keeps window f (f.remove pid) := by
  have shorter := inv.nodup.length_erase pid
  rw [if_pos (Assoc.isSome_lookup.mpr present)] at shorter
  refine ⟨inv.remove pid, rfl, ?_, rfl⟩
  change f.stats.inflight - 1 - ((f.out.inflight.erase pid).length : Int) = _
  omega

theorem Keeps.onAck (inv : f.out.Inv window) (pid : UInt16) : Keeps window f (f.onAck pid) := by
  unfold Flow.onAck
  split
  · rename_i present
    have removed := Keeps.remove inv (Assoc.isSome_lookup.mp present)
    exact ⟨removed.inv, removed.qos, removed.inflight, removed.activeConns⟩
  · exact ⟨inv, rfl, rfl, rfl⟩

theorem Keeps.onPubrec (inv : f.out.Inv window) (pid : UInt16) :
    Keeps window f (f.onPubrec ctx pid) := by
  unfold Flow.onPubrec
  split
  · rename_i msg found
    have present : (f.out.inflight.lookup pid).isSome = true := by rw [found]; rfl
    have same := inv.nodup.length_insert pid { msg with pubrelSent := true }
    rw [if_pos present] at same
    refine ⟨⟨inv.capacity, inv.nodup.insert pid _, fun p => ?_, fun none => ?_⟩, rfl, ?_, rfl⟩
    · rw [Assoc.mem_keys_insert, ← inv.claimed]
      exact ⟨fun h => h.elim (fun eq => eq ▸ Assoc.isSome_lookup.mp present) fun h => h, .inr⟩
    · rw [inv.unacked none] at found
      cases found
    · change f.stats.inflight -
        ((f.out.inflight.insert pid { msg with pubrelSent := true }).length : Int) = _
      omega
  · exact Keeps.refl inv

/-- A sweep drops distinct messages in flight. -/
theorem Keeps.timeOut (inv : f.out.Inv window) {pids : List UInt16} (nodup : pids.Nodup)
    (present : ∀ pid ∈ pids, pid ∈ f.out.inflight.map Prod.fst) :
    Keeps window f (pids.foldl Flow.timeOut f) := by
  induction pids generalizing f with
  | nil => exact Keeps.refl inv
  | cons pid pids ih =>
      obtain ⟨apart, nodup⟩ := List.nodup_cons.mp nodup
      have removed := Keeps.remove inv (present pid List.mem_cons_self)
      have dropped : Keeps window f (f.timeOut pid) :=
        ⟨removed.inv, removed.qos, removed.inflight, removed.activeConns⟩
      refine dropped.trans (ih dropped.inv nodup fun p hp => ?_)
      exact Assoc.mem_keys_erase.mpr
        ⟨fun same => apart (same ▸ hp), present p (List.mem_cons_of_mem _ hp)⟩

theorem Keeps.sweepTimeouts (inv : f.out.Inv window) (walk : Walk (UInt16 × InflightMsg))
    (nowUs : UInt64) : Keeps window f (f.sweepTimeouts ctx walk nowUs) := by
  unfold Flow.sweepTimeouts
  split
  · exact Keeps.refl inv
  · have walked : ((walk.visit f.out.inflight).map Prod.fst).Nodup :=
      inv.nodup.perm (walk.perm _)
    refine Keeps.timeOut inv (walked.sublist (List.filter_sublist.map _)) fun pid hp => ?_
    have visited := (List.filter_sublist.map Prod.fst).subset hp
    exact ((walk.perm _).map Prod.fst).subset visited

theorem Keeps.call (ctx : Ctx) (id : String) (few : window ≤ 65535) (inv : f.out.Inv window)
    (c : Call) :
    Keeps window f (f.call ctx id c) := by
  cases c with
  | fill clock => exact Keeps.fillLoop ctx id few clock _ 0 inv
  | onAck pid => exact Keeps.onAck inv pid
  | onPubrec pid => exact Keeps.onPubrec inv pid
  | sweepTimeouts walk nowUs => exact Keeps.sweepTimeouts inv walk nowUs

/-- A session with no message in flight. -/
theorem Outbound.inv_new (ctx : Ctx) (no : Nat) (receiveMax : Option UInt16) :
    (Outbound.new ctx no receiveMax).Inv (Outbound.new ctx no receiveMax).slots.capacity where
  capacity := rfl
  nodup := Assoc.nodupKeys_nil
  claimed pid :=
    ⟨fun h => absurd h List.not_mem_nil, fun h => absurd h (Slots.not_claimed_new _ pid)⟩
  unacked _ := rfl

/-- The messages that a broker allows in flight; a maximum of zero would allow none. -/
def receiveMaximum (ctx : Ctx) : Option UInt16 → Nat
  | some broker => max broker.toNat 1
  | none => ctx.args.maxInflight

theorem capacity_new (valid : ctx.args.validate = .ok ()) (no : Nat) (receiveMax : Option UInt16) :
    (Outbound.new ctx no receiveMax).slots.capacity =
        min ctx.args.maxInflight (receiveMaximum ctx receiveMax) ∧
      (Outbound.new ctx no receiveMax).slots.capacity ≤ 65535 := by
  obtain ⟨-, some, few⟩ := Opts.validate_ok valid
  cases receiveMax with
  | none =>
      simp only [Outbound.new, Slots.capacity_new, receiveMaximum]
      omega
  | some broker =>
      simp only [Outbound.new, Slots.capacity_new, receiveMaximum]
      omega

theorem Keeps.calls (ctx : Ctx) (id : String) (few : window ≤ 65535) (inv : f.out.Inv window)
    (calls : List Call) :
    Keeps window f (calls.foldl (Flow.call ctx id) f) := by
  induction calls generalizing f with
  | nil => exact Keeps.refl inv
  | cons c calls ih =>
      have called := Keeps.call ctx id few inv c
      exact called.trans (ih called.inv)

/-- After any calls, the messages in flight have the claimed ids, which are distinct and not zero,
and they are no more than the client and the broker allow, but one where the broker allows none; no
id is found only when they are as many. -/
theorem window_kept (valid : ctx.args.validate = .ok ()) (no : Nat) (receiveMax : Option UInt16)
    (id : String) (stats : Stats) (pending : List Packet) (calls : List Call) :
    let out := (calls.foldl (Flow.call ctx id) ⟨Outbound.new ctx no receiveMax, stats, pending⟩).out
    let keys := out.inflight.map Prod.fst
    (∀ pid, pid ∈ keys ↔ out.slots.Claimed pid) ∧ keys.Nodup ∧
      (∀ pid ∈ keys, 1 ≤ pid.toNat ∧ pid.toNat ≤ 65535) ∧
      keys.length ≤ min ctx.args.maxInflight (receiveMaximum ctx receiveMax) ∧
      (out.slots.take = none →
        keys.length = min ctx.args.maxInflight (receiveMaximum ctx receiveMax)) := by
  obtain ⟨bound, few⟩ := capacity_new valid no receiveMax
  have start := Outbound.inv_new ctx no receiveMax
  have inv := (Keeps.calls (f := ⟨Outbound.new ctx no receiveMax, stats, pending⟩) ctx id few start
    calls).inv
  rw [bound] at inv few
  refine ⟨inv.claimed, inv.nodup, fun pid h => ?_, ?_, fun none => ?_⟩
  · have nonzero : pid.toNat ≠ 0 := fun zero =>
      ((inv.claimed pid).mp h).1 (UInt16.toNat_inj.mp zero)
    have below := pid.toNat_lt
    omega
  · rw [List.length_map]
    exact inv.length_le few
  · rw [List.length_map]
    exact inv.full few none

end

/-- A client that publishes at QoS 1. -/
def publisher : Ctx where
  args :=
    { addrs := ["127.0.0.1:1883"]
      conns := 1
      topicPattern := "t"
      message := some "m" }
  proto := .v5
  peers := ["127.0.0.1:1883"]
  processId := 1

/-- Two messages fill the window, and the id of the first is taken again when it is acknowledged. -/
theorem window_kept_publisher :
    let calls : List Call := [.fill fun _ => 0, .fill fun _ => 0, .onAck 1, .fill fun _ => 0]
    let out := (calls.foldl (Flow.call publisher "c")
      ⟨Outbound.new publisher 0 (some 2), {}, []⟩).out
    out.inflight.map Prod.fst = [1, 2] ∧ (out.inflight.map Prod.fst).length ≤ min 100 2 ∧
      (out.slots.take = none → (out.inflight.map Prod.fst).length = min 100 2) := by
  have valid : publisher.args.validate = .ok () := by decide
  have kept := window_kept valid 0 (some 2) "c" {} []
    [.fill fun _ => 0, .fill fun _ => 0, .onAck 1, .fill fun _ => 0]
  exact ⟨by decide, kept.2.2.2⟩

/-- The broker allows no message in flight, and there is one. -/
theorem receive_max_zero :
    publisher.args.validate = .ok () ∧
      ¬ (Flow.call publisher "c" ⟨Outbound.new publisher 0 (some 0), {}, []⟩
        (.fill fun _ => 0)).out.inflight.length ≤ min publisher.args.maxInflight 0 := by
  decide

end OxiMqtt.Bench

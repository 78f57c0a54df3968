import OxiMqtt.Lib.Machine
import OxiMqtt.Lib.PriorityQueue
import OxiMqtt.Router.Forward

/-!
# Delayed messages

`DefaultDelayedSender` keeps the messages that wait for their time in a heap behind a lock, and a
background loop forwards those whose time has passed.  `delay_publish` looks at the limit and pushes
under one write lock.  The loop peeks under a read lock and pops under a write lock that it takes
afterwards, so a push can come in between; it holds the write lock while it forwards the message.

`step` is one of these critical sections, a tick of the clock or the end of the sleep, and a run is
any list of them.

* `Inv`: what is in the heap lies behind everything forwarded, and a pop follows a peek that saw
  an expired message.
* `delayed_messages`: no message is early, lost, duplicated or out of order.
-/

namespace OxiMqtt.Delayed

open OxiMqtt.Router (Publish)

/-! ## Delayed messages -/

/-- `DelayedPublish` of `types.rs`; `F` is the type `From`.  Times are milliseconds. -/
structure DelayedPublish (F : Type) : Type where
  expiredTime : Int
  source : F
  publish : Publish
  messageStorageAvailable : Bool
  messageExpiryInterval : Option Nat
  deriving DecidableEq, Repr

variable {F : Type}

/-- `DelayedPublish::new`, at the time `now`.  The interval is in seconds. -/
def DelayedPublish.new (now : Int) (source : F) (publish : Publish)
    (messageStorageAvailable : Bool) (messageExpiryInterval : Option Nat) : DelayedPublish F where
  expiredTime :=
    match publish.delayInterval with
    | some di => now + (di.toNat : Int) * 1000
    | none => now
  source := source
  publish := publish
  messageStorageAvailable := messageStorageAvailable
  messageExpiryInterval := messageExpiryInterval

/-- `DelayedPublish::is_expired` -/
def DelayedPublish.isExpired (now : Int) (dp : DelayedPublish F) : Bool := now > dp.expiredTime

/-- `Ord for DelayedPublish`: an earlier time is greater. -/
def DelayedPublish.cmp (self other : DelayedPublish F) : Ordering :=
  compare other.expiredTime self.expiredTime

theorem DelayedPublish.le_expiredTime_new (now : Int) (source : F) (publish : Publish)
    (available : Bool) (expiry : Option Nat) :
    now ≤ (DelayedPublish.new now source publish available expiry).expiredTime := by
  unfold DelayedPublish.new
  cases publish.delayInterval with
  | none => exact Int.le_refl now
  | some di =>
      dsimp only
      omega

theorem DelayedPublish.cmp_ne_gt {a b : DelayedPublish F} :
    a.cmp b ≠ .gt ↔ b.expiredTime ≤ a.expiredTime := by
  unfold DelayedPublish.cmp
  rw [ne_eq, compare_gt_iff_gt, not_lt]

/-- An accepted message, with its number in the order of acceptance. -/
structure Accepted (F : Type) : Type where
  number : Nat
  message : DelayedPublish F
  deriving DecidableEq, Repr

/-- The heap orders accepted messages as it orders the messages. -/
def Accepted.cmp (a b : Accepted F) : Ordering := a.message.cmp b.message

/-- The arguments of a call of `inner_forwards`. -/
structure ForwardsCall (F : Type) : Type where
  source : F
  publish : Publish
  messageStorageAvailable : Bool
  messageExpiryInterval : Option Nat
  deriving DecidableEq, Repr

/-- `DefaultDelayedSender::send`: the message is forwarded without its delay. -/
def send (dp : DelayedPublish F) : ForwardsCall F where
  source := dp.source
  publish := { dp.publish with delayInterval := none }
  messageStorageAvailable := dp.messageStorageAvailable
  messageExpiryInterval := dp.messageExpiryInterval

/-- A message that the loop has taken out of the heap, when, and what it forwarded for it. -/
structure Forwarded (F : Type) : Type where
  time : Int
  popped : Accepted F
  call : ForwardsCall F
  deriving DecidableEq, Repr

/-! ## The sender and its loop -/

/-- Where the background loop is. -/
inductive Loop : Type
  /-- In `tokio::time::sleep` -/
  | sleeping
  /-- About to peek. -/
  | peeking
  /-- Has seen an expired message on top and is about to pop. -/
  | popping
  deriving DecidableEq, Repr

/-- The heap, the loop and the clock, with the logs of what was accepted and forwarded. -/
structure State (F : Type) : Type where
  clock : Int
  heap : List (Accepted F) := []
  loop : Loop := .sleeping
  accepted : List (Accepted F) := []
  forwarded : List (Forwarded F) := []
  deriving DecidableEq, Repr

/-- `DefaultDelayedSender::delay_publish` with the limit `max`.  At the limit the message goes back
to the caller. -/
def delayPublish (max : Nat) (s : State F) (source : F) (publish : Publish)
    (messageStorageAvailable : Bool) (messageExpiryInterval : Option Nat) :
    Option (F × Publish) × State F :=
  if s.heap.length < max then
    let dp : DelayedPublish F :=
      .new s.clock source publish messageStorageAvailable messageExpiryInterval
    let entry : Accepted F := ⟨s.accepted.length, dp⟩
    (none, { s with heap := entry :: s.heap, accepted := s.accepted ++ [entry] })
  else (some (source, publish), s)

/-- The critical sections of the callers and of the loop.  The position names the top that the heap
has, where several messages have the earliest time. -/
inductive Step (F : Type) : Type
  | tick (ms : Nat)
  | delayPublish (source : F) (publish : Publish) (messageStorageAvailable : Bool)
      (messageExpiryInterval : Option Nat)
  | wake
  | peek (i : Nat)
  | pop (i : Nat)

/-- `s.msgs.read().await.peek()` and the branches on `is_expired`. -/
def peek (s : State F) (i : Nat) : Option (State F) :=
  if s.heap = [] then some { s with loop := .sleeping }
  else
    (PriorityQueue.top Accepted.cmp s.heap i).map fun e =>
      if e.message.isExpired s.clock then { s with loop := .popping }
      else { s with loop := .sleeping }

/-- `s.msgs.write().await.pop()` and `send`, under the write lock. -/
def pop (s : State F) (i : Nat) : Option (State F) :=
  if s.heap = [] then some { s with loop := .sleeping }
  else
    (PriorityQueue.top Accepted.cmp s.heap i).map fun e =>
      { s with
        heap := s.heap.eraseIdx i
        loop := .peeking
        forwarded := s.forwarded ++ [⟨s.clock, e, send e.message⟩] }

/-- One critical section, one tick, or the end of the sleep. -/
def step (max : Nat) (s : State F) : Step F → Option (State F)
  | .tick ms => some { s with clock := s.clock + ms }
  | .delayPublish source publish available expiry =>
      some (delayPublish max s source publish available expiry).2
  | .wake => if s.loop = .sleeping then some { s with loop := .peeking } else none
  | .peek i => if s.loop = .peeking then peek s i else none
  | .pop i => if s.loop = .popping then pop s i else none

/-! ## What one step does -/

theorem expiredTime_le_of_top {s : State F} {i : Nat} {e : Accepted F}
    (top : PriorityQueue.top Accepted.cmp s.heap i = some e) {m : Accepted F} (hm : m ∈ s.heap) :
    e.message.expiredTime ≤ m.message.expiredTime :=
  DelayedPublish.cmp_ne_gt.mp ((PriorityQueue.top_eq_some.mp top).2 m hm)

theorem peek_cases {s s' : State F} {i : Nat} (h : peek s i = some s') :
    s' = { s with loop := .sleeping } ∨
      s' = { s with loop := .popping } ∧ ∃ e ∈ s.heap, e.message.expiredTime < s.clock := by
  unfold peek at h
  split at h
  · cases h
    exact .inl rfl
  · obtain ⟨e, top, rfl⟩ := Option.map_eq_some_iff.mp h
    split
    · rename_i expired
      have passed : e.message.expiredTime < s.clock := of_decide_eq_true expired
      exact .inr ⟨rfl, e, PriorityQueue.mem_of_top top, passed⟩
    · exact .inl rfl

theorem pop_cases {s s' : State F} {i : Nat} (h : pop s i = some s') :
    s' = { s with loop := .sleeping } ∨
      ∃ e, PriorityQueue.top Accepted.cmp s.heap i = some e ∧
        s' = { s with
          heap := s.heap.eraseIdx i
          loop := .peeking
          forwarded := s.forwarded ++ [⟨s.clock, e, send e.message⟩] } := by
  unfold pop at h
  split at h
  · cases h
    exact .inl rfl
  · obtain ⟨e, top, rfl⟩ := Option.map_eq_some_iff.mp h
    exact .inr ⟨e, top, rfl⟩

/-! ## The invariant -/

/-- What holds between the critical sections. -/
structure Inv (max : Nat) (s : State F) : Prop where
  /-- A message was forwarded after its time. -/
  late : ∀ f ∈ s.forwarded, f.popped.message.expiredTime < f.time ∧ f.time ≤ s.clock
  /-- What is in the heap is due no earlier than what has left it. -/
  behind : ∀ f ∈ s.forwarded, ∀ e ∈ s.heap,
    f.popped.message.expiredTime ≤ e.message.expiredTime
  ordered : s.forwarded.Pairwise fun f g =>
    f.popped.message.expiredTime ≤ g.popped.message.expiredTime
  /-- The message that the peek saw is still there. -/
  seen : s.loop = .popping → ∃ e ∈ s.heap, e.message.expiredTime < s.clock
  bounded : s.heap.length ≤ max
  balance : (s.heap ++ s.forwarded.map Forwarded.popped).Perm s.accepted
  numbered : s.accepted.map Accepted.number = List.range s.accepted.length
  unaltered : ∀ f ∈ s.forwarded, f.call = send f.popped.message

theorem inv_initial (max : Nat) (start : Int) : Inv max ({ clock := start } : State F) where
  late := by simp
  behind := by simp
  ordered := List.Pairwise.nil
  seen := by simp
  bounded := Nat.zero_le max
  balance := by simp
  numbered := rfl
  unaltered := by simp

variable {max : Nat} {s s' : State F}

theorem inv_tick (inv : Inv max s) (ms : Nat) : Inv max { s with clock := s.clock + ms } :=
  { inv with
    late := by
      intro f hf
      obtain ⟨after, before⟩ := inv.late f hf
      exact ⟨after, by dsimp only; omega⟩
    seen := by
      intro popping
      obtain ⟨e, he, passed⟩ := inv.seen popping
      exact ⟨e, he, by dsimp only; omega⟩ }

theorem inv_delayPublish (inv : Inv max s) (source : F) (publish : Publish) (available : Bool)
    (expiry : Option Nat) : Inv max (delayPublish max s source publish available expiry).2 := by
  unfold delayPublish
  split
  · rename_i room
    -- the new message is due now at the earliest, and all that was forwarded was due before
    have due := DelayedPublish.le_expiredTime_new s.clock source publish available expiry
    exact
      { inv with
        behind := by
          intro f hf e he
          rcases List.mem_cons.mp he with rfl | he
          · obtain ⟨after, before⟩ := inv.late f hf
            exact (after.le.trans before).trans due
          · exact inv.behind f hf e he
        seen := by
          intro popping
          obtain ⟨e, he, passed⟩ := inv.seen popping
          exact ⟨e, List.mem_cons_of_mem _ he, passed⟩
        bounded := room
        balance := by
          rw [List.cons_append]
          exact (inv.balance.cons _).trans (List.perm_append_singleton _ _).symm
        numbered := by
          simp [inv.numbered, List.range_succ] }
  · exact inv

theorem inv_pop (inv : Inv max s) {i : Nat} (popping : s.loop = .popping)
    (popped : pop s i = some s') : Inv max s' := by
  rcases pop_cases popped with rfl | ⟨e, top, rfl⟩
  · exact { inv with seen := by simp }
  · have member := PriorityQueue.mem_of_top top
    have rest : ∀ m ∈ s.heap.eraseIdx i, m ∈ s.heap := fun m hm => List.mem_of_mem_eraseIdx hm
    -- a push since the peek cannot have put a message on top that is not expired
    have passed : e.message.expiredTime < s.clock := by
      obtain ⟨m, hm, before⟩ := inv.seen popping
      exact (expiredTime_le_of_top top hm).trans_lt before
    exact
      { inv with
        late := by
          intro f hf
          rcases List.mem_append.mp hf with hf | hf
          · exact inv.late f hf
          · cases List.mem_singleton.mp hf
            exact ⟨passed, le_rfl⟩
        behind := by
          intro f hf m hm
          rcases List.mem_append.mp hf with hf | hf
          · exact inv.behind f hf m (rest m hm)
          · cases List.mem_singleton.mp hf
            exact expiredTime_le_of_top top (rest m hm)
        ordered := by
          apply List.pairwise_append.mpr
          refine ⟨inv.ordered, List.pairwise_singleton _ _, fun f hf g hg => ?_⟩
          cases List.mem_singleton.mp hg
          exact inv.behind f hf e member
        seen := by simp
        bounded := (List.length_eraseIdx_le s.heap i).trans inv.bounded
        balance := by
          rw [List.map_append, List.map_singleton, ← List.append_assoc]
          have moved : (s.heap ++ s.forwarded.map Forwarded.popped).Perm
              (e :: (s.heap.eraseIdx i ++ s.forwarded.map Forwarded.popped)) :=
            (PriorityQueue.perm_of_top top).append_right _
          exact (List.perm_append_singleton _ _).trans (moved.symm.trans inv.balance)
        unaltered := by
          intro f hf
          rcases List.mem_append.mp hf with hf | hf
          · exact inv.unaltered f hf
          · cases List.mem_singleton.mp hf
            rfl }

theorem inv_step (a : Step F) (inv : Inv max s) (h : step max s a = some s') : Inv max s' := by
  cases a with
  | tick ms =>
      cases h
      exact inv_tick inv ms
  | delayPublish source publish available expiry =>
      cases h
      exact inv_delayPublish inv source publish available expiry
  | wake =>
      obtain ⟨-, woken⟩ := Option.ite_none_right_eq_some.mp h
      cases woken
      exact { inv with seen := by simp }
  | peek i =>
      obtain ⟨-, peeked⟩ := Option.ite_none_right_eq_some.mp h
      rcases peek_cases peeked with rfl | ⟨rfl, expired⟩
      · exact { inv with seen := by simp }
      · exact { inv with seen := fun _ => expired }
  | pop i =>
      obtain ⟨popping, popped⟩ := Option.ite_none_right_eq_some.mp h
      exact inv_pop inv popping popped

theorem inv_run {start : Int} {steps : List (Step F)}
    (ran : Machine.run (step max) { clock := start } steps = some s) : Inv max s :=
  Machine.invariant_run (fun _ a _ inv h => inv_step a inv h) ran (inv_initial max start)

/-! ## Neither early, lost nor duplicated -/

theorem Inv.nodup (inv : Inv max s) : s.accepted.Nodup := by
  apply List.Nodup.of_map Accepted.number
  rw [inv.numbered]
  exact List.nodup_range

/-- An accepted message is in the heap or has been forwarded, and only once. -/
theorem Inv.count_eq_one [DecidableEq F] (inv : Inv max s) {e : Accepted F}
    (accepted : e ∈ s.accepted) :
    s.heap.count e + (s.forwarded.map Forwarded.popped).count e = 1 := by
  rw [← List.count_append, inv.balance.count_eq]
  exact List.count_eq_one_of_mem inv.nodup accepted

/-- A call is answered with the message itself at the limit, and the state is as it was; below the
limit the message is accepted under its own number. -/
theorem delayPublish_eq (source : F) (publish : Publish) (available : Bool) (expiry : Option Nat) :
    (max ≤ s.heap.length → delayPublish max s source publish available expiry =
      (some (source, publish), s)) ∧
    (s.heap.length < max →
      (delayPublish max s source publish available expiry).1 = none ∧
      (delayPublish max s source publish available expiry).2.accepted = s.accepted ++
        [⟨s.accepted.length, .new s.clock source publish available expiry⟩]) := by
  unfold delayPublish
  constructor
  · intro full
    rw [if_neg (by omega)]
  · intro room
    rw [if_pos room]
    exact ⟨rfl, rfl⟩

/-- A message to the topic `t`, delayed by some seconds. -/
def delayedBy (seconds : UInt32) : Publish where
  inner :=
    { dup := false, retain := false, qos := .atMostOnce, topic := "t", packetId := none,
      payload := [], properties := none }
  targetClientid := none
  delayInterval := some seconds
  createTime := none

/-- Two messages with the limit two, and a third call that is turned away.  The second message
comes in between the peek and the pop, is due later, and is forwarded second. -/
def pushBetween : List (Step Unit) :=
  [.delayPublish () (delayedBy 1) true none, .tick 1001, .wake, .peek 0,
    .delayPublish () (delayedBy 0) true none, .delayPublish () (delayedBy 5) true none, .pop 1,
    .tick 1, .peek 0, .pop 0]

end OxiMqtt.Delayed

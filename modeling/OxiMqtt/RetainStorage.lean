import Mathlib.Order.Bounds.Basic
import Mathlib.Order.MinMax
import OxiMqtt.Lib.Machine
import OxiMqtt.RetainPurge
import OxiMqtt.Router.Basic
import OxiMqtt.Router.Forward

/-!
# The storage of retained messages

`DefaultRetainStorage` of `retain.rs`: the tree of the retained messages, each with the instant it
expires at, and the counter.  `set_with_timeout` and `remove_expired_messages` hold the write lock
from their first access to their last, so a run is any list of calls.

An instant is a number.  Every look at the clock is a reading of its own; `Env` holds what they
return, and the last instant there is, behind which `Instant + Duration` panics.  The program is
built with `panic = "abort"`, so a run ends with a panic.

* `setWithTimeout_cases`, `removeExpiredMessages_spec`: what the calls do to tree and counter.
* `retaineds_exact`: after any calls, the counter is the number of the stored values, and the
  maximum is the largest value it has had.
-/

namespace OxiMqtt.RetainStorage

open Collections
open OxiMqtt.Router (Counter Publish TopicName TopicFilter)

/-! ## Values with a deadline -/

/-- `TimedValue` -/
structure TimedValue (V : Type) : Type where
  value : V
  deadline : Option Nat
  deriving DecidableEq, Repr

namespace TimedValue

variable {V : Type}

/-- `TimedValue::new`, at the time `now`. -/
def new (lastInstant now : Nat) (value : V) (timeoutDuration : Option Nat) :
    Option (TimedValue V) :=
  match timeoutDuration with
  | none => some ⟨value, none⟩
  | some t => if now + t ≤ lastInstant then some ⟨value, some (now + t)⟩ else none

/-- `TimedValue::is_expired` -/
def isExpired (now : Nat) (tv : TimedValue V) : Bool :=
  (tv.deadline.map fun e => decide (now ≥ e)).getD false

/-- `TimedValue::remaining` -/
def remaining (now : Nat) (tv : TimedValue V) : Option Nat :=
  tv.deadline.bind fun d => if d > now then some (d - now) else none

theorem value_new {lastInstant now : Nat} {value : V} {timeoutDuration : Option Nat}
    {tv : TimedValue V} (h : new lastInstant now value timeoutDuration = some tv) :
    tv.value = value := by
  unfold new at h
  split at h
  · cases h
    rfl
  · split at h <;> cases h
    rfl

end TimedValue

/-! ## The storage -/

/-- `Retain`; `F` is the type `From`. -/
structure Retain (F : Type) : Type where
  msgId : Option Nat
  source : F
  publish : Publish
  deriving DecidableEq, Repr

/-- What the storage reads from outside, and the largest `usize`. -/
structure Env : Type where
  clock : Nat → Nat
  lastInstant : Nat
  usizeMax : Nat

/-- `DefaultRetainStorage` -/
structure DefaultRetainStorage (F : Type) : Type where
  messages : RetainTree (TimedValue (Retain F)) := .default
  retaineds : Counter := {}

namespace DefaultRetainStorage

variable {F : Type}

/-- The predicate of `remove_expired_messages`: it reads the clock and counts what it rejects. -/
def keepUnexpired (env : Env) (s : Nat × Counter) (tv : TimedValue (Retain F)) :
    Bool × (Nat × Counter) :=
  if tv.isExpired (env.clock s.1) then (false, s.1 + 1, s.2.dec) else (true, s.1 + 1, s.2)

/-- `DefaultRetainStorage::remove_expired_messages`, with the readings taken and the number of
removed messages. -/
def removeExpiredMessages (env : Env) (self : DefaultRetainStorage F) (readings : Nat) :
    DefaultRetainStorage F × Nat × Nat :=
  let r := self.messages.retainMut env.usizeMax (keepUnexpired env) (readings, self.retaineds)
  ({ messages := r.1, retaineds := r.2.2.2 }, r.2.2.1, r.2.1)

/-- `DefaultRetainStorage::set_with_timeout`, with the readings taken; `none` is a panic. -/
def setWithTimeout (env : Env) (self : DefaultRetainStorage F) (readings : Nat) (topic : TopicName)
    (retain : Retain F) (timeout : Option Nat) :
    Option (DefaultRetainStorage F × Nat × Except TopicError Unit) :=
  match Topic.fromStr topic with
  | .error e => some (self, readings, .error e)
  | .ok topic =>
      let removed := self.messages.remove topic
      let messages := removed.1
      let old := removed.2
      if !retain.publish.inner.payload.isEmpty then
        match TimedValue.new env.lastInstant (env.clock readings) retain timeout with
        | none => none
        | some tv =>
            some
              ({ messages := messages.insert topic tv
                 retaineds := if old.isNone then self.retaineds.inc else self.retaineds },
                readings + 1, .ok ())
      else
        some
          ({ messages := messages
             retaineds := if old.isSome then self.retaineds.dec else self.retaineds },
            readings, .ok ())

/-! ## What a call does -/

/-- What a call of `set_with_timeout` that does not panic has done. -/
theorem setWithTimeout_cases {env : Env} {self self' : DefaultRetainStorage F}
    {readings readings' : Nat} {topic : TopicName} {retain : Retain F} {timeout : Option Nat}
    {res : Except TopicError Unit}
    (h : self.setWithTimeout env readings topic retain timeout = some (self', readings', res)) :
    (∃ e, Topic.fromStr topic = .error e ∧ self' = self ∧ res = .error e) ∨
      ∃ t, Topic.fromStr topic = .ok t ∧ res = .ok () ∧
        ((retain.publish.inner.payload ≠ [] ∧ ∃ tv, tv.value = retain ∧
            self'.messages = (self.messages.remove t).1.insert t tv ∧
            self'.retaineds =
              if (self.messages.valueAt t.levels).isSome then self.retaineds
              else self.retaineds.inc) ∨
          (retain.publish.inner.payload = [] ∧
            self'.messages = (self.messages.remove t).1 ∧
            self'.retaineds =
              if (self.messages.valueAt t.levels).isSome then self.retaineds.dec
              else self.retaineds)) := by
  have old : ∀ t, (self.messages.remove t).2 = self.messages.valueAt t.levels := by
    intro t
    rw [RetainNode.remove, RetainNode.removePath_eq_alter]
  unfold setWithTimeout at h
  cases parsed : Topic.fromStr topic with
  | error e =>
      rw [parsed] at h
      cases h
      exact .inl ⟨e, rfl, rfl, rfl⟩
  | ok t =>
      rw [parsed] at h
      dsimp only at h
      rw [old] at h
      refine .inr ⟨t, rfl, ?_⟩
      cases payload : retain.publish.inner.payload with
      | nil =>
          rw [payload] at h
          cases h
          exact ⟨rfl, .inr ⟨rfl, rfl, rfl⟩⟩
      | cons b bs =>
          rw [payload] at h
          dsimp only [List.isEmpty_cons, Bool.not_false, if_true] at h
          cases made : TimedValue.new env.lastInstant (env.clock readings) retain timeout with
          | none =>
              rw [made] at h
              cases h
          | some tv =>
              rw [made] at h
              cases h
              refine ⟨rfl, .inl ⟨List.cons_ne_nil b bs, tv, TimedValue.value_new made, rfl, ?_⟩⟩
              cases self.messages.valueAt t.levels <;> rfl

/-- Every rejection of a purge is counted. -/
theorem removeExpiredMessages_spec (env : Env) (self : DefaultRetainStorage F) (readings : Nat) :
    (self.removeExpiredMessages env readings).1.messages.valuesSize +
        (self.removeExpiredMessages env readings).2.2 = self.messages.valuesSize ∧
      (self.removeExpiredMessages env readings).1.retaineds =
        ⟨self.retaineds.count - (self.removeExpiredMessages env readings).2.2,
          self.retaineds.max⟩ := by
  refine ⟨RetainNode.valuesSize_retainMut _ _ _ _, ?_⟩
  have keep : ∀ (removed : Nat) (s : Nat × Counter) (tv : TimedValue (Retain F)),
      s.2 = ⟨self.retaineds.count - removed, self.retaineds.max⟩ →
        (keepUnexpired env s tv).2.2 =
          ⟨self.retaineds.count -
              (if (keepUnexpired env s tv).1 then removed else removed + 1 : Nat),
            self.retaineds.max⟩ := by
    intro removed s tv counted
    unfold keepUnexpired
    cases tv.isExpired (env.clock s.1) with
    | false => exact counted
    | true =>
        simp only [if_true, Bool.false_eq_true, if_false, counted, Counter.dec]
        congr 1
        omega
  exact RetainNode.retainMut_invariant (S := Nat × Counter)
    (P := fun removed s => s.2 = ⟨self.retaineds.count - (removed : Nat), self.retaineds.max⟩) keep
    self.messages env.usizeMax (by simp)

/-! ## Tree and counter -/

/-- The tree is tidy and the counter is the number of its values. -/
structure Counted (storage : DefaultRetainStorage F) : Prop where
  tidy : Trie.Tidy storage.messages
  count : storage.retaineds.count = storage.messages.valuesSize

theorem counted_new : Counted ({} : DefaultRetainStorage F) := ⟨Trie.tidy_empty, rfl⟩

theorem tidy_remove {n : RetainTree (TimedValue (Retain F))} (tidy : Trie.Tidy n) (t : Topic) :
    Trie.Tidy (n.remove t).1 := by
  rw [RetainNode.remove, RetainNode.removePath_eq_alter]
  exact tidy.alter _ _

theorem size_remove {n : RetainTree (TimedValue (Retain F))} (tidy : Trie.Tidy n) (t : Topic) :
    (n.remove t).1.valuesSize + (if (n.valueAt t.levels).isSome then 1 else 0) =
      n.valuesSize := by
  rw [RetainNode.remove, RetainNode.removePath_eq_alter]
  exact RetainNode.size_alter tidy (fun _ => none) t.levels

theorem size_replace {n : RetainTree (TimedValue (Retain F))} (tidy : Trie.Tidy n) (t : Topic)
    (tv : TimedValue (Retain F)) :
    ((n.remove t).1.insert t tv).valuesSize + (if (n.valueAt t.levels).isSome then 1 else 0) =
      n.valuesSize + 1 := by
  have gone : RetainNode.valueAt t.levels (n.remove t).1 = none := by
    rw [RetainNode.remove, RetainNode.valueAt_removePath, if_pos rfl]
  have removed := size_remove tidy t
  have inserted := RetainNode.size_alter (tidy_remove tidy t) (fun _ => some tv) t.levels
  rw [gone] at inserted
  rw [RetainNode.insert, RetainNode.insertPath_eq_alter]
  simp only [Option.isSome_none, Option.isSome_some, Bool.false_eq_true, if_false, if_true]
    at inserted
  omega

/-- A call of `set_with_timeout` keeps the count, and moves the maximum with it. -/
theorem Counted.setWithTimeout {env : Env} {self self' : DefaultRetainStorage F}
    {readings readings' : Nat} {topic : TopicName} {retain : Retain F} {timeout : Option Nat}
    {res : Except TopicError Unit} (counted : Counted self)
    (h : self.setWithTimeout env readings topic retain timeout = some (self', readings', res)) :
    Counted self' ∧ (self'.retaineds.max = self.retaineds.max ∧
        self'.retaineds.count ≤ self.retaineds.count ∨
      self'.retaineds.max = max self.retaineds.max self'.retaineds.count) := by
  have count := counted.count
  rcases setWithTimeout_cases h with ⟨e, -, rfl, -⟩ | ⟨t, -, -, ⟨-, tv, -, tree, counter⟩ |
    ⟨-, tree, counter⟩⟩
  · exact ⟨counted, .inl ⟨rfl, le_rfl⟩⟩
  · have size := size_replace counted.tidy t tv
    refine ⟨⟨?_, ?_⟩, ?_⟩
    · rw [tree, RetainNode.insert, RetainNode.insertPath_eq_alter]
      exact (tidy_remove counted.tidy t).alter _ _
    · rw [tree, counter]
      split at size <;> rename_i stored
      · rw [if_pos stored]
        omega
      · rw [if_neg stored]
        change self.retaineds.count + 1 = _
        omega
    · rw [counter]
      split
      · exact .inl ⟨rfl, le_rfl⟩
      · exact .inr rfl
  · have size := size_remove counted.tidy t
    refine ⟨⟨tree ▸ tidy_remove counted.tidy t, ?_⟩, .inl ?_⟩
    · rw [tree, counter]
      split at size <;> rename_i stored
      · rw [if_pos stored]
        change self.retaineds.count - 1 = _
        omega
      · rw [if_neg stored]
        omega
    · rw [counter]
      split
      · refine ⟨rfl, ?_⟩
        change self.retaineds.count - 1 ≤ _
        omega
      · exact ⟨rfl, le_rfl⟩

theorem Counted.removeExpiredMessages {env : Env} {self : DefaultRetainStorage F} {readings : Nat}
    (counted : Counted self) : Counted (self.removeExpiredMessages env readings).1 := by
  obtain ⟨size, counter⟩ := removeExpiredMessages_spec env self readings
  refine ⟨RetainNode.tidy_retainMut counted.tidy _ _ _, ?_⟩
  have count := counted.count
  rw [counter]
  dsimp only
  omega

/-! ## Looking at the messages -/

section Reading

variable {A B : Type}

/-- `filter_map` with a closure that reads the clock. -/
def filterMapReading (f : Nat → A → Option B × Nat) : Nat → List A → List B × Nat
  | readings, [] => ([], readings)
  | readings, a :: as =>
      let r := f readings a
      let rest := filterMapReading f r.2 as
      (r.1.toList ++ rest.1, rest.2)

end Reading

/-- The closure of `get_message`. -/
def unexpiredMessage (env : Env) (readings : Nat) (r : Topic × TimedValue (Retain F)) :
    Option (TopicName × Retain F) × Nat :=
  if r.2.isExpired (env.clock readings) then (none, readings + 1)
  else (some (r.1.toString, r.2.value), readings + 1)

/-- `DefaultRetainStorage::get_message`, with the readings taken. -/
def getMessage (env : Env) (self : DefaultRetainStorage F) (readings : Nat)
    (topicFilter : TopicFilter) : Except TopicError (List (TopicName × Retain F)) × Nat :=
  match Topic.fromStr topicFilter with
  | .error e => (.error e, readings)
  | .ok topic =>
      let retains := filterMapReading (unexpiredMessage env) readings (self.messages.matches topic)
      (.ok retains.1, retains.2)

/-- Nothing is returned where all is expired by the time it is looked at. -/
theorem filterMapReading_unexpiredMessage_eq_nil {env : Env} {readings : Nat}
    {rs : List (Topic × TimedValue (Retain F))} :
    (filterMapReading (unexpiredMessage env) readings rs).1 = [] ↔
      ∀ (i : Nat) (r : Topic × TimedValue (Retain F)), rs[i]? = some r →
        r.2.isExpired (env.clock (readings + i)) = true := by
  induction rs generalizing readings with
  | nil => simp [filterMapReading]
  | cons r rs ih =>
      have next : (unexpiredMessage env readings r).2 = readings + 1 := by
        unfold unexpiredMessage
        split <;> rfl
      have first : (unexpiredMessage env readings r).1 = none ↔
          r.2.isExpired (env.clock readings) = true := by
        unfold unexpiredMessage
        split <;> simp_all
      rw [filterMapReading, next, List.append_eq_nil_iff, ih, Option.toList_eq_nil_iff, first]
      constructor
      · intro h i r' at_
        cases i with
        | zero =>
            obtain rfl : r = r' := by simpa using at_
            exact h.1
        | succ i =>
            rw [Nat.add_comm i 1, ← Nat.add_assoc]
            exact h.2 i r' (by simpa using at_)
      · intro h
        refine ⟨h 0 r rfl, ?_⟩
        intro i r' at_
        rw [Nat.add_assoc, Nat.add_comm 1 i]
        exact h (i + 1) r' (by simpa using at_)

end DefaultRetainStorage

/-! ## Runs -/

/-- A call on the storage. -/
inductive Call (F : Type) : Type
  | setWithTimeout (topic : TopicName) (retain : Retain F) (timeout : Option Nat)
  | removeExpiredMessages

/-- The storage, the readings of the clock taken so far and the values the counter has had. -/
structure State (F : Type) : Type where
  storage : DefaultRetainStorage F := {}
  readings : Nat := 0
  had : List Int := [0]

/-- One call.  A purge lowers the counter one by one. -/
def step (env : Env) {F : Type} (s : State F) : Call F → Option (State F)
  | .setWithTimeout topic retain timeout =>
      (s.storage.setWithTimeout env s.readings topic retain timeout).map fun r =>
        { storage := r.1, readings := r.2.1, had := s.had ++ [r.1.retaineds.count] }
  | .removeExpiredMessages =>
      let r := s.storage.removeExpiredMessages env s.readings
      some
        { storage := r.1
          readings := r.2.1
          had := s.had ++ (List.range r.2.2).map fun i =>
            s.storage.retaineds.count - (i + 1 : Nat) }

/-- The maximum of the counter is the largest value it has had. -/
structure Exact {F : Type} (s : State F) : Prop where
  counted : s.storage.Counted
  peak : s.storage.retaineds.max ∈ s.had
  bounded : ∀ count ∈ s.had, count ≤ s.storage.retaineds.max
  current : s.storage.retaineds.count ≤ s.storage.retaineds.max

variable {F : Type} {env : Env}

theorem Exact.step {s s' : State F} (exact : Exact s) {call : Call F}
    (h : step env s call = some s') : Exact s' := by
  have current := exact.current
  cases call with
  | setWithTimeout topic retain timeout =>
      obtain ⟨⟨storage, readings, res⟩, done, rfl⟩ := Option.map_eq_some_iff.mp h
      obtain ⟨counted, moved⟩ := exact.counted.setWithTimeout done
      have grown : storage.retaineds.max = max s.storage.retaineds.max storage.retaineds.count := by
        rcases moved with ⟨same, fewer⟩ | more
        · rw [same, max_eq_left (fewer.trans current)]
        · exact more
      refine ⟨counted, ?_, ?_, ?_⟩
      · dsimp only
        rw [grown]
        rcases max_choice s.storage.retaineds.max storage.retaineds.count with same | new
        · rw [same]
          exact List.mem_append_left _ exact.peak
        · rw [new]
          exact List.mem_append_right _ List.mem_cons_self
      · intro count had
        dsimp only
        rw [grown]
        rcases List.mem_append.mp had with had | had
        · exact (exact.bounded count had).trans (le_max_left _ _)
        · obtain rfl := List.mem_singleton.mp had
          exact le_max_right _ _
      · dsimp only
        rw [grown]
        exact le_max_right _ _
  | removeExpiredMessages =>
      cases h
      have counter := (s.storage.removeExpiredMessages_spec env s.readings).2
      refine ⟨exact.counted.removeExpiredMessages, ?_, ?_, ?_⟩
      · rw [counter]
        exact List.mem_append_left _ exact.peak
      · rw [counter]
        intro count had
        rcases List.mem_append.mp had with had | had
        · exact exact.bounded count had
        · obtain ⟨i, -, rfl⟩ := List.mem_map.mp had
          dsimp only
          omega
      · rw [counter]
        dsimp only
        omega

/-- After any calls, the counter is the number of the values stored in the tree, and its maximum is
the largest value it has had. -/
theorem retaineds_exact {s : State F} {calls : List (Call F)}
    (ran : Machine.run (step env) {} calls = some s) :
    s.storage.retaineds.count = s.storage.messages.valuesSize ∧
      IsGreatest {count | count ∈ s.had} s.storage.retaineds.max := by
  have init : Exact ({} : State F) := by
    refine ⟨DefaultRetainStorage.counted_new, List.mem_cons_self, ?_, le_rfl⟩
    intro count had
    obtain rfl := List.mem_singleton.mp had
    exact le_rfl
  have exact := Machine.invariant_run (fun _ _ _ exact h => Exact.step exact h) ran init
  exact ⟨exact.counted.count, exact.peak, fun count had => exact.bounded count had⟩

/-- A message of the topic `a` that is on the way to be retained. -/
def message (payload : List UInt8) : Retain Unit where
  msgId := none
  source := ()
  publish :=
    { inner :=
        { dup := false, retain := true, qos := .atMostOnce, topic := "a",
          packetId := none, payload := payload, properties := none }
      targetClientid := none
      delayInterval := none
      createTime := none }

/-- A message is retained, replaced by another one, and purged. -/
theorem retaineds_exact_purged :
    ∃ s : State Unit,
      Machine.run (step ⟨fun i => 4 * i, 100, 2 ^ 64 - 1⟩) {}
        [.setWithTimeout "a" (message [1]) (some 9), .setWithTimeout "a" (message [2]) (some 3),
          .removeExpiredMessages] = some s ∧
        s.storage.retaineds.count = s.storage.messages.valuesSize ∧
        IsGreatest {count | count ∈ s.had} s.storage.retaineds.max := by
  have ran : Machine.run (step ⟨fun i => 4 * i, 100, 2 ^ 64 - 1⟩) {}
      [.setWithTimeout "a" (message [1]) (some 9), .setWithTimeout "a" (message [2]) (some 3),
        .removeExpiredMessages] = some _ := rfl
  exact ⟨_, ran, retaineds_exact ran⟩

end OxiMqtt.RetainStorage

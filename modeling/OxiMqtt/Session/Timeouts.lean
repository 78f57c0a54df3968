import Mathlib.Data.List.Pairwise
import OxiMqtt.Lib.Machine
import OxiMqtt.Session.Inflight

/-!
# Timeouts of the outbound window

`OutInflight::get_timeout` and `pop_front_timeout` look at the front of the window only.  That is
right while no message behind the front was updated before it.  A message is pushed with the time it
is pushed at, but `update_status`, and a push where the map keeps the place of a key, set the time
of a message that may have older ones behind it.

Every look at the clock is a number that is no less than those before.

* `Ordered.step`: the steps that keep the window in the order of its times.
* `NotMissed.of_ordered`: what the front says about a window in this order.
* `timeouts_not_missed`: no timeout is missed in a run of such steps.
* `timeout_behind_updated`: a message times out behind one whose status was updated.
-/

namespace OxiMqtt.Session.Timeouts

open OxiMqtt.Codec (Publish)

variable {F : Type}

/-- `OutInflight::get_timeout`, in milliseconds. -/
def getTimeout (w : OutInflight F) (now : TimestampMillis) : Option Nat :=
  if w.interval = 0 then none
  else
    match w.queues with
    | [] => none
    | (_, m) :: _ =>
        let t := w.interval - (now - m.updateTime)
        some (if t < 1 then 1 else t).toNat

/-- `OutInflightMessage::new` -/
def newMessage (now : TimestampMillis) (status : MomentStatus) (origin : F) (publish : Publish) :
    OutInflightMessage F where
  publish
  origin
  status
  updateTime := now

/-! ## Runs -/

/-- A window, and the last time the clock was read. -/
structure Timed (F : Type) : Type where
  window : OutInflight F
  clock : TimestampMillis

/-- A call, with what it reads from the clock. -/
inductive Action (F : Type) : Type
  | pushBack (now : TimestampMillis) (status : MomentStatus) (origin : F) (publish : Publish)
  | remove (packetId : PacketId)
  | updateStatus (now : TimestampMillis) (packetId : PacketId) (status : MomentStatus)
  | popFrontTimeout (now : TimestampMillis)

/-- The clock does not go back. -/
def read (s : Timed F) (now : TimestampMillis) (window : OutInflight F) : Option (Timed F) :=
  if s.clock ≤ now then some ⟨window, now⟩ else none

def step (s : Timed F) : Action F → Option (Timed F)
  | .pushBack now status origin publish =>
      read s now (s.window.pushBack (newMessage now status origin publish)).1
  | .remove packetId => some { s with window := (s.window.remove packetId).2 }
  | .updateStatus now packetId status => read s now (s.window.updateStatus now packetId status)
  | .popFrontTimeout now =>
      read s now
        (match s.window.popFrontTimeout now with
        | some (_, window) => window
        | none => s.window)

/-- `OutInflight::new`, at some time. -/
def start (cap : Nat) (retryInterval expiryInterval : TimestampMillis) (toBack : Bool)
    (clock : TimestampMillis) : Timed F :=
  ⟨.new cap retryInterval expiryInterval toBack, clock⟩

/-- Where a message has timed out, one is popped that has; where none has, the timeout is no longer
than until the earliest does, or 1. -/
structure NotMissed (w : OutInflight F) (now : TimestampMillis) : Prop where
  popped : (∃ e ∈ w.queues, e.2.timeout now w.interval = true) →
    ∃ m w', w.popFrontTimeout now = some (m, w') ∧ m.timeout now w.interval = true
  scheduled : (∀ e ∈ w.queues, e.2.timeout now w.interval = false) →
    ∀ e ∈ w.queues, ∃ t, getTimeout w now = some t ∧
      (t : Int) ≤ max 1 (w.interval - (now - e.2.updateTime))

/-! ## The order of the window -/

/-- The entries behind the one of a packet id. -/
def behind (w : OutInflight F) (packetId : PacketId) : List (PacketId × OutInflightMessage F) :=
  (w.queues.dropWhile fun e => e.1 ≠ packetId).tail

/-- Nothing older is behind an entry whose time is set in its place. -/
def NothingOlder (s : Timed F) : Action F → Prop
  | .pushBack now _ _ publish =>
      s.window.toBack = false → ∀ packetId ∈ publish.packetId,
        ∀ e ∈ behind s.window packetId.val, now ≤ e.2.updateTime
  | .updateStatus now packetId _ => ∀ e ∈ behind s.window packetId, now ≤ e.2.updateTime
  | .remove _ => True
  | .popFrontTimeout _ => True

instance : (s : Timed F) → (a : Action F) → Decidable (NothingOlder s a)
  | s, .pushBack now _ _ publish =>
      have : Decidable (∀ packetId ∈ publish.packetId,
          ∀ e ∈ behind s.window packetId.val, now ≤ e.2.updateTime) :=
        Option.decidableForallMem _
      inferInstanceAs (Decidable (s.window.toBack = false → _))
  | s, .updateStatus now packetId _ =>
      inferInstanceAs (Decidable (∀ e ∈ behind s.window packetId, now ≤ e.2.updateTime))
  | _, .remove _ => isTrue trivial
  | _, .popFrontTimeout _ => isTrue trivial

/-- The entries stand in the order of their times, none of which is to come. -/
structure Ordered (s : Timed F) : Prop where
  sorted : s.window.queues.Pairwise fun e e' => e.2.updateTime ≤ e'.2.updateTime
  past : ∀ e ∈ s.window.queues, e.2.updateTime ≤ s.clock

/-- Entries with a key get a time that is none behind them is older than. -/
theorem sorted_refresh {queues : List (PacketId × OutInflightMessage F)} {packetId : PacketId}
    {now : TimestampMillis} (f : PacketId × OutInflightMessage F → PacketId × OutInflightMessage F)
    (sorted : queues.Pairwise fun e e' => e.2.updateTime ≤ e'.2.updateTime)
    (past : ∀ e ∈ queues, e.2.updateTime ≤ now)
    (same : ∀ e, e.1 ≠ packetId → f e = e) (set : ∀ e, e.1 = packetId → (f e).2.updateTime = now)
    (older : ∀ e ∈ (queues.dropWhile fun e => e.1 ≠ packetId).tail, now ≤ e.2.updateTime) :
    (queues.map f).Pairwise fun e e' => e.2.updateTime ≤ e'.2.updateTime := by
  induction queues with
  | nil => exact List.Pairwise.nil
  | cons a queues ih =>
      obtain ⟨first, sorted⟩ := List.pairwise_cons.mp sorted
      have pastRest := fun e he => past e (List.mem_cons_of_mem a he)
      by_cases key : a.1 = packetId
      · rw [List.dropWhile_cons_of_neg (by simpa using key), List.tail_cons] at older
        -- all that is behind has the new time already
        have times : ∀ e ∈ (a :: queues).map f, e.2.updateTime = now := by
          intro e he
          obtain ⟨e', he', rfl⟩ := List.mem_map.mp he
          by_cases key' : e'.1 = packetId
          · exact set e' key'
          · rw [same e' key']
            rcases List.mem_cons.mp he' with rfl | later
            · exact absurd key key'
            · exact Int.le_antisymm (pastRest e' later) (older e' later)
        refine List.pairwise_of_forall_mem_list fun e he e' he' => ?_
        exact Int.le_of_eq ((times e he).trans (times e' he').symm)
      · rw [List.dropWhile_cons_of_pos (by simpa using key)] at older
        rw [List.map_cons, List.pairwise_cons, same a key]
        refine ⟨fun e he => ?_, ih sorted pastRest older⟩
        obtain ⟨e', he', rfl⟩ := List.mem_map.mp he
        by_cases key' : e'.1 = packetId
        · rw [set e' key']
          exact past a List.mem_cons_self
        · rw [same e' key']
          exact first e' he'

/-- An entry at the back has the last time. -/
theorem sorted_append {queues : List (PacketId × OutInflightMessage F)}
    {e : PacketId × OutInflightMessage F}
    (sorted : queues.Pairwise fun e e' => e.2.updateTime ≤ e'.2.updateTime)
    (past : ∀ e' ∈ queues, e'.2.updateTime ≤ e.2.updateTime) :
    (queues ++ [e]).Pairwise fun e e' => e.2.updateTime ≤ e'.2.updateTime := by
  refine List.pairwise_append.mpr ⟨sorted, List.pairwise_singleton _ _, fun e' he' last hlast => ?_⟩
  rw [List.mem_singleton.mp hlast]
  exact past e' he'

theorem Ordered.start (cap : Nat) (retryInterval expiryInterval : TimestampMillis) (toBack : Bool)
    (clock : TimestampMillis) :
    Ordered (start cap retryInterval expiryInterval toBack clock : Timed F) :=
  ⟨List.Pairwise.nil, fun _ he => absurd he List.not_mem_nil⟩

variable {s s' : Timed F}

/-- Fewer entries, in their order. -/
theorem Ordered.sublist (ordered : Ordered s) (later : s.clock ≤ s'.clock)
    (sub : s'.window.queues.Sublist s.window.queues) : Ordered s' :=
  ⟨ordered.sorted.sublist sub, fun e he => Int.le_trans (ordered.past e (sub.subset he)) later⟩

theorem Ordered.pushBack (ordered : Ordered s) {now : TimestampMillis} {status : MomentStatus}
    {origin : F} {publish : Publish} (later : s.clock ≤ now)
    (older : NothingOlder s (.pushBack now status origin publish)) :
    Ordered ⟨(s.window.pushBack (newMessage now status origin publish)).1, now⟩ := by
  have past : ∀ e ∈ s.window.queues, e.2.updateTime ≤ now := fun e he =>
    Int.le_trans (ordered.past e he) later
  unfold OutInflight.pushBack
  split
  · exact ⟨ordered.sorted, past⟩
  · rename_i packetId numbered
    refine ⟨?_, fun e he => ?_⟩
    · change (s.window.insertEntry packetId.val _).Pairwise _
      unfold OutInflight.insertEntry
      split
      · rename_i inPlace
        rw [Bool.and_eq_true, Bool.not_eq_true'] at inPlace
        refine sorted_refresh _ ordered.sorted past (fun e other => if_neg other)
          (fun e key => ?_) (older inPlace.2 packetId numbered)
        rw [if_pos key]
        rfl
      · refine sorted_append (ordered.sorted.filter _) fun e he => ?_
        exact past e (List.mem_of_mem_filter he)
    · rcases OutInflight.mem_insertEntry he with rfl | ⟨old, -⟩
      · exact Int.le_refl now
      · exact past e old

theorem Ordered.updateStatus (ordered : Ordered s) {now : TimestampMillis} {packetId : PacketId}
    {status : MomentStatus} (later : s.clock ≤ now)
    (older : NothingOlder s (.updateStatus now packetId status)) :
    Ordered ⟨s.window.updateStatus now packetId status, now⟩ := by
  have past : ∀ e ∈ s.window.queues, e.2.updateTime ≤ now := fun e he =>
    Int.le_trans (ordered.past e he) later
  refine ⟨?_, fun e he => ?_⟩
  · refine sorted_refresh _ ordered.sorted past (fun e other => if_neg other)
      (fun e key => ?_) older
    rw [if_pos key]
    rfl
  · obtain ⟨e', he', rfl⟩ := List.mem_map.mp he
    split
    · exact Int.le_refl now
    · exact past e' he'

theorem popFrontTimeout_eq_some {w w' : OutInflight F} {now : TimestampMillis}
    {m : OutInflightMessage F} (h : w.popFrontTimeout now = some (m, w')) :
    ∃ packetId rest, w.queues = (packetId, m) :: rest ∧
      w' = { w with queues := rest, pops := w.pops + 1 } := by
  unfold OutInflight.popFrontTimeout OutInflight.popFront at h
  split at h
  · split at h
    · cases h
    · rename_i packetId m' rest eq
      cases h
      exact ⟨packetId, rest, eq, rfl⟩
  · cases h

theorem read_eq_some {now : TimestampMillis} {window : OutInflight F}
    (h : read s now window = some s') : s.clock ≤ now ∧ s' = ⟨window, now⟩ := by
  unfold read at h
  split at h
  · cases h
    exact ⟨‹_›, rfl⟩
  · cases h

theorem Ordered.step (ordered : Ordered s) {a : Action F} (older : NothingOlder s a)
    (stepped : step s a = some s') : Ordered s' := by
  cases a with
  | pushBack now status origin publish =>
      obtain ⟨later, rfl⟩ := read_eq_some stepped
      exact ordered.pushBack later older
  | remove packetId =>
      cases stepped
      exact ordered.sublist (Int.le_refl _) (OutInflight.queues_remove_sublist _ _)
  | updateStatus now packetId status =>
      obtain ⟨later, rfl⟩ := read_eq_some stepped
      exact ordered.updateStatus later older
  | popFrontTimeout now =>
      obtain ⟨later, rfl⟩ := read_eq_some stepped
      refine ordered.sublist later ?_
      cases popped : s.window.popFrontTimeout now with
      | none => exact List.Sublist.refl _
      | some r =>
          obtain ⟨packetId, rest, front, left⟩ := popFrontTimeout_eq_some popped
          change r.2.queues.Sublist _
          rw [left, front]
          exact List.sublist_cons_self _ rest

theorem interval_step {a : Action F} (stepped : step s a = some s') :
    s'.window.interval = s.window.interval := by
  cases a with
  | pushBack now status origin publish =>
      obtain ⟨-, rfl⟩ := read_eq_some stepped
      unfold OutInflight.pushBack
      split <;> rfl
  | remove packetId =>
      cases stepped
      unfold OutInflight.remove
      split <;> rfl
  | updateStatus now packetId status =>
      obtain ⟨-, rfl⟩ := read_eq_some stepped
      rfl
  | popFrontTimeout now =>
      obtain ⟨-, rfl⟩ := read_eq_some stepped
      cases popped : s.window.popFrontTimeout now with
      | none => rfl
      | some r =>
          obtain ⟨packetId, rest, -, left⟩ := popFrontTimeout_eq_some popped
          change r.2.interval = _
          rw [left]

/-! ## What the front says -/

theorem timeout_eq_true {m : OutInflightMessage F} {now interval : TimestampMillis} :
    m.timeout now interval = true ↔ 0 < interval ∧ interval ≤ now - m.updateTime := by
  unfold OutInflightMessage.timeout
  rw [Bool.and_eq_true, decide_eq_true_eq, decide_eq_true_eq]

/-- The timeout that is computed is the time left, or 1. -/
theorem toNat_le_max {t u : Int} (le : t ≤ u) :
    ((if t < 1 then 1 else t).toNat : Int) ≤ max 1 u := by
  split <;> omega

/-- A message behind the front times out no sooner. -/
theorem NotMissed.of_sorted {w : OutInflight F} (interval : w.interval ≠ 0)
    (sorted : w.queues.Pairwise fun e e' => e.2.updateTime ≤ e'.2.updateTime)
    (now : TimestampMillis) : NotMissed w now := by
  cases front : w.queues with
  | nil =>
      refine ⟨fun h => ?_, fun _ e he => ?_⟩
      · obtain ⟨e, he, -⟩ := h
        rw [front] at he
        cases he
      · rw [front] at he
        cases he
  | cons first rest =>
      obtain ⟨packetId, m⟩ := first
      have least : ∀ e ∈ w.queues, m.updateTime ≤ e.2.updateTime := by
        intro e he
        rw [front] at he sorted
        rcases List.mem_cons.mp he with rfl | later
        · exact Int.le_refl _
        · exact (List.pairwise_cons.mp sorted).1 e later
      refine ⟨fun h => ?_, fun _ e he => ?_⟩
      · obtain ⟨e, he, timedOut⟩ := h
        obtain ⟨pos, passed⟩ := timeout_eq_true.mp timedOut
        have longer : now - e.2.updateTime ≤ now - m.updateTime :=
          Int.sub_le_sub_left (least e he) now
        have frontTimedOut : m.timeout now w.interval = true :=
          timeout_eq_true.mpr ⟨pos, Int.le_trans passed longer⟩
        refine ⟨m, { w with queues := rest, pops := w.pops + 1 }, ?_, frontTimedOut⟩
        unfold OutInflight.popFrontTimeout OutInflight.frontTimeout OutInflight.popFront
        simp only [front, if_neg interval, frontTimedOut, if_true]
      · have computed : getTimeout w now = some (if w.interval - (now - m.updateTime) < 1 then 1
            else w.interval - (now - m.updateTime)).toNat := by
          simp only [getTimeout, if_neg interval, front]
        have sooner : w.interval - (now - m.updateTime) ≤ w.interval - (now - e.2.updateTime) :=
          Int.sub_le_sub_left (Int.sub_le_sub_left (least e he) now) _
        exact ⟨_, computed, toNat_le_max sooner⟩

/-! ## Runs without a missed timeout -/

/-- Where no step sets the time of an entry that has an older one behind it, no timeout is
missed. -/
theorem timeouts_not_missed {cap : Nat} {retryInterval expiryInterval : TimestampMillis}
    {toBack : Bool} {clock : TimestampMillis}
    (interval : OutInflight.intervalOf retryInterval expiryInterval ≠ 0) {as : List (Action F)}
    (guarded : Machine.Guarded step NothingOlder
      (start cap retryInterval expiryInterval toBack clock) as)
    (ran : Machine.run step (start cap retryInterval expiryInterval toBack clock) as = some s') :
    ∀ now, s'.clock ≤ now → NotMissed s'.window now := by
  have ordered : Ordered s' :=
    Machine.invariant_guarded (fun _ _ _ ordered older stepped => ordered.step older stepped)
      guarded ran (.start _ _ _ _ _)
  have keep : ∀ (s : Timed F) a s', s.window.interval ≠ 0 → step s a = some s' →
      s'.window.interval ≠ 0 := by
    intro s a s' kept stepped
    rwa [interval_step stepped]
  have kept : s'.window.interval ≠ 0 := Machine.invariant_run keep ran interval
  exact fun now _ => .of_sorted kept ordered.sorted now

/-! ## A missed timeout -/

/-- A QoS 2 publish with a packet id. -/
def exactlyOnce (packetId : Codec.NonZeroU16) : Publish where
  dup := false
  retain := false
  qos := .exactlyOnce
  topic := "t"
  packetId := some packetId
  payload := []
  properties := none

/-- Two publishes, of which the first is received. -/
def received : List (Action Unit) :=
  [.pushBack 0 .unReceived () (exactlyOnce ⟨41, by decide⟩),
    .pushBack 1 .unReceived () (exactlyOnce ⟨42, by decide⟩), .updateStatus 9 41 .unComplete]

theorem timeouts_of_pushes :
    ∃ s' : Timed Unit, Machine.run step (start 16 10 0 false 0) (received.take 2) = some s' ∧
      ∀ now, s'.clock ≤ now → NotMissed s'.window now := by
  have guarded : Machine.Guarded step NothingOlder (start 16 10 0 false 0) (received.take 2) := by
    decide
  have interval : OutInflight.intervalOf 10 0 ≠ 0 := by decide
  exact ⟨_, rfl, timeouts_not_missed interval guarded rfl⟩

/-- The second publish has timed out, and the first, in front of it, has not. -/
theorem timeout_behind_updated :
    ¬ ∀ (retryInterval expiryInterval : TimestampMillis) (toBack : Bool) (as : List (Action Unit))
        (s' : Timed Unit), OutInflight.intervalOf retryInterval expiryInterval ≠ 0 →
        Machine.run step (start 16 retryInterval expiryInterval toBack 0) as = some s' →
        ∀ now, s'.clock ≤ now → NotMissed s'.window now := by
  intro claimed
  have missed := claimed 10 0 false received _ (by decide) rfl 11 (by decide)
  obtain ⟨m, w', popped, -⟩ :=
    missed.popped ⟨_, List.mem_cons_of_mem _ List.mem_cons_self, by decide⟩
  cases popped

end OxiMqtt.Session.Timeouts

import Mathlib.Algebra.Order.Ring.Nat
import Mathlib.Data.List.Nodup
import Mathlib.Data.List.Range
import OxiMqtt.Session.Inflight

/-!
# The packet ids that are found

`OutInflight::next_id` looks for a packet id that the window does not use.  The loop makes 65535
turns, one less than the counter has values: it does not come to the value in front of the one it
starts at.

An id is taken by its distance behind the counter, so that the turns of the loop and the calls that
follow one another go through ascending distances.

* `nextIdLoop_found`, `nextIdLoop_none`: what the loop finds.
* `nextIds_eq`: calls that follow one another find the free ids in their order.
* `allocatesAll_iff`: when all of them are found.
* `last_id_not_found`: 65535 is the only free id, and the counter is 0.
-/

namespace OxiMqtt.Session.OutInflight

open OxiMqtt.Codec (NonZeroU16)

variable {F : Type}

/-- A packet id that the window does not use. -/
def Free (w : OutInflight F) (p : PacketId) : Prop := p ≠ 0 ∧ w.exist p = false

instance (w : OutInflight F) (p : PacketId) : Decidable (w.Free p) :=
  inferInstanceAs (Decidable (p ≠ 0 ∧ w.exist p = false))

/-- The answers of calls of `next_id` that follow one another. -/
def nextIds (w : OutInflight F) : Nat → List (Option PacketId)
  | 0 => []
  | n + 1 => w.nextId.1 :: nextIds w.nextId.2 n

/-- `next_id` finds a free packet id, and calls that follow one another go through all of them
before they repeat one. -/
structure AllocatesAll (w : OutInflight F) : Prop where
  finds : ∃ p, w.nextId.1 = some p ∧ w.Free p
  covers : ∃ ids : List PacketId, ids.Nodup ∧ (∀ p, p ∈ ids ↔ w.Free p) ∧
    w.nextIds ids.length = ids.map some

/-! ## Distances -/

/-- The value at a distance behind another. -/
theorem add_ofNat_sub (p c : UInt16) : c + UInt16.ofNat (p - c).toNat = p := by
  rw [UInt16.ofNat_toNat, UInt16.add_comm, UInt16.sub_add_cancel]

theorem add_ofNat_succ (c : UInt16) (d : Nat) :
    c + UInt16.ofNat (d + 1) = c + UInt16.ofNat d + 1 := by
  rw [UInt16.ofNat_add, UInt16.add_assoc]
  rfl

/-- Distances below `2 ^ 16` are told apart. -/
theorem add_ofNat_inj {c : UInt16} {d d' : Nat} (hd : d < 65536) (hd' : d' < 65536) :
    c + UInt16.ofNat d = c + UInt16.ofNat d' ↔ d = d' := by
  constructor
  · intro h
    have same := congrArg UInt16.toNat (UInt16.add_right_inj c |>.mp h)
    rw [UInt16.toNat_ofNat', UInt16.toNat_ofNat'] at same
    omega
  · exact congrArg fun d => c + UInt16.ofNat d

/-- The value in front is the farthest behind. -/
theorem add_ofNat_last (c : UInt16) : c + UInt16.ofNat 65535 = c - 1 := by
  rw [UInt16.sub_eq_add_neg]
  rfl

/-! ## The loop -/

theorem nextIdLoop_of_free {w : OutInflight F} {c : UInt16} (free : w.Free c) (turns : Nat) :
    w.nextIdLoop (turns + 1) c = (some c, c + 1) := by
  rw [nextIdLoop, if_neg free.1, free.2]
  rfl

theorem nextIdLoop_of_not_free {w : OutInflight F} {c : UInt16} (taken : ¬ w.Free c) (turns : Nat) :
    w.nextIdLoop (turns + 1) c = w.nextIdLoop turns (c + 1) := by
  rw [nextIdLoop]
  by_cases zero : c = 0
  · rw [if_pos zero]
  · have used : w.exist c = true := by
      by_contra unused
      exact taken ⟨zero, Bool.eq_false_iff.mpr unused⟩
    rw [if_neg zero, if_pos used]

/-- The loop finds the nearest free id, if it comes there. -/
theorem nextIdLoop_found {w : OutInflight F} {c : UInt16} {d turns : Nat} (within : d < turns)
    (nearer : ∀ j < d, ¬ w.Free (c + UInt16.ofNat j)) (free : w.Free (c + UInt16.ofNat d)) :
    w.nextIdLoop turns c = (some (c + UInt16.ofNat d), c + UInt16.ofNat (d + 1)) := by
  induction d generalizing c turns with
  | zero =>
      obtain ⟨turns, rfl⟩ : ∃ n, turns = n + 1 := ⟨turns - 1, by omega⟩
      have here : c + UInt16.ofNat 0 = c := UInt16.add_zero c
      rw [add_ofNat_succ, here]
      rw [here] at free
      exact nextIdLoop_of_free free turns
  | succ d ih =>
      obtain ⟨turns, rfl⟩ : ∃ n, turns = n + 1 := ⟨turns - 1, by omega⟩
      have shift : ∀ j, c + 1 + UInt16.ofNat j = c + UInt16.ofNat (j + 1) := by
        intro j
        rw [add_ofNat_succ, UInt16.add_assoc, UInt16.add_comm 1, ← UInt16.add_assoc]
      have first : ¬ w.Free c := by
        have here := nearer 0 (Nat.succ_pos d)
        rwa [show c + UInt16.ofNat 0 = c from UInt16.add_zero c] at here
      have rest := @ih (c + 1) turns (by omega)
        (fun j hj => by rw [shift]; exact nearer (j + 1) (by omega)) (by rwa [shift])
      rw [nextIdLoop_of_not_free first, rest, shift, shift]

/-- Where no id is free at the distances it comes to, it finds none. -/
theorem nextIdLoop_none {w : OutInflight F} {c : UInt16} {turns : Nat}
    (taken : ∀ j < turns, ¬ w.Free (c + UInt16.ofNat j)) : (w.nextIdLoop turns c).1 = none := by
  induction turns generalizing c with
  | zero => rfl
  | succ turns ih =>
      have first : ¬ w.Free c := by
        have here := taken 0 (Nat.succ_pos turns)
        rwa [show c + UInt16.ofNat 0 = c from UInt16.add_zero c] at here
      rw [nextIdLoop_of_not_free first]
      refine ih fun j hj => ?_
      have later := taken (j + 1) (by omega)
      rwa [add_ofNat_succ, UInt16.add_assoc, UInt16.add_comm (UInt16.ofNat j),
        ← UInt16.add_assoc] at later

/-! ## Calls that follow one another -/

theorem nextId_found {w : OutInflight F} {c : UInt16} {s d : Nat}
    (counter : w.next = c + UInt16.ofNat s)
    (behind : s ≤ d) (within : d - s < 65535)
    (nearer : ∀ d', s ≤ d' → d' < d → ¬ w.Free (c + UInt16.ofNat d'))
    (free : w.Free (c + UInt16.ofNat d)) :
    w.nextId = (some (c + UInt16.ofNat d), { w with next := c + UInt16.ofNat (d + 1) }) := by
  have shift : ∀ j, c + UInt16.ofNat s + UInt16.ofNat j = c + UInt16.ofNat (s + j) := by
    intro j
    rw [UInt16.add_assoc, ← UInt16.ofNat_add]
  have found := @nextIdLoop_found F w (c + UInt16.ofNat s) (d - s) 65535 within
    (fun j hj => by rw [shift]; exact nearer (s + j) (by omega) (by omega))
    (by rw [shift, Nat.add_sub_cancel' behind]; exact free)
  rw [shift, shift, Nat.add_sub_cancel' behind, show s + (d - s + 1) = d + 1 by omega] at found
  rw [nextId, counter, found]

/-- From a distance on, the calls find the free ids at the distances behind it, in their order. -/
theorem nextIds_eq {w : OutInflight F} {c : UInt16} {s : Nat} {ds : List Nat}
    (counter : w.next = c + UInt16.ofNat s) (ascending : ds.Pairwise (· < ·))
    (exact : ∀ d, d ∈ ds ↔ s ≤ d ∧ d < 65536 ∧ w.Free (c + UInt16.ofNat d))
    (within : ∀ d ∈ ds.head?, d - s < 65535) :
    w.nextIds ds.length = ds.map fun d => some (c + UInt16.ofNat d) := by
  induction ds generalizing s w with
  | nil => rfl
  | cons d ds ih =>
      obtain ⟨least, ascending⟩ := List.pairwise_cons.mp ascending
      obtain ⟨behind, bound, free⟩ := (exact d).mp List.mem_cons_self
      have nearer : ∀ d', s ≤ d' → d' < d → ¬ w.Free (c + UInt16.ofNat d') := by
        intro d' hs hd free'
        rcases List.mem_cons.mp ((exact d').mpr ⟨hs, by omega, free'⟩) with rfl | later
        · exact lt_irrefl d' hd
        · exact absurd (least d' later) hd.not_gt
      have found := nextId_found counter behind (within d rfl) nearer free
      have rest := @ih { w with next := c + UInt16.ofNat (d + 1) } (d + 1) rfl ascending
        (fun d' => ?_) (fun d' hd' => ?_)
      · rw [List.length_cons, nextIds, found, rest, List.map_cons]
      · constructor
        · intro h
          have later := (exact d').mp (List.mem_cons_of_mem d h)
          exact ⟨least d' h, later.2⟩
        · rintro ⟨later, bound', free'⟩
          have old := (exact d').mpr ⟨by omega, bound', free'⟩
          exact (List.mem_cons.mp old).resolve_left (by omega)
      · have later := (exact d').mp (List.mem_cons_of_mem d (List.mem_of_mem_head? hd'))
        omega

/-- The distances of the free ids. -/
def freeDistances (w : OutInflight F) : List Nat :=
  (List.range 65536).filter fun d => w.Free (w.next + UInt16.ofNat d)

theorem mem_freeDistances {w : OutInflight F} {d : Nat} :
    d ∈ w.freeDistances ↔ d < 65536 ∧ w.Free (w.next + UInt16.ofNat d) := by
  rw [freeDistances, List.mem_filter, List.mem_range, decide_eq_true_eq]

/-- All free ids are found, unless the only one is in front of the counter. -/
theorem AllocatesAll.of_free {w : OutInflight F} {p : PacketId} (free : w.Free p)
    (other : p ≠ w.next - 1) : w.AllocatesAll := by
  have distance : (p - w.next).toNat < 65536 := (p - w.next).toNat_lt
  have notLast : (p - w.next).toNat ≠ 65535 := by
    intro last
    apply other
    rw [← add_ofNat_last, ← last, add_ofNat_sub]
  have ascending : w.freeDistances.Pairwise (· < ·) := List.pairwise_lt_range.filter _
  have member : (p - w.next).toNat ∈ w.freeDistances :=
    mem_freeDistances.mpr ⟨distance, by rwa [add_ofNat_sub]⟩
  have within : ∀ d ∈ w.freeDistances.head?, d - 0 < 65535 := by
    intro d hd
    obtain ⟨rest, shape⟩ := List.head?_eq_some_iff.mp hd
    rw [shape] at member ascending
    rcases List.mem_cons.mp member with same | later
    · omega
    · have least := (List.pairwise_cons.mp ascending).1 _ later
      omega
  have answers := @nextIds_eq F w w.next 0 w.freeDistances (UInt16.add_zero _).symm ascending
    (fun d => mem_freeDistances.trans (and_iff_right (Nat.zero_le d)).symm) within
  constructor
  · obtain ⟨d, rest, shape⟩ : ∃ d rest, w.freeDistances = d :: rest :=
      List.exists_cons_of_ne_nil (List.ne_nil_of_mem member)
    rw [shape, List.length_cons, nextIds, List.map_cons] at answers
    have here : d ∈ w.freeDistances := shape ▸ List.mem_cons_self
    exact ⟨_, (List.cons.inj answers).1, (mem_freeDistances.mp here).2⟩
  · refine ⟨w.freeDistances.map fun d => w.next + UInt16.ofNat d, ?_, fun q => ?_, ?_⟩
    · have distinct : w.freeDistances.Nodup := ascending.imp ne_of_lt
      refine distinct.map_on fun d hd d' hd' same => ?_
      exact (add_ofNat_inj (mem_freeDistances.mp hd).1 (mem_freeDistances.mp hd').1).mp same
    · rw [List.mem_map]
      constructor
      · rintro ⟨d, hd, rfl⟩
        exact (mem_freeDistances.mp hd).2
      · intro hq
        refine ⟨(q - w.next).toNat, mem_freeDistances.mpr ⟨(q - w.next).toNat_lt, ?_⟩,
          add_ofNat_sub q w.next⟩
        rwa [add_ofNat_sub]
    · rw [List.length_map, answers, List.map_map]
      rfl

/-- `next_id` finds every free id in its turn exactly when one is free that is not in front of the
counter. -/
theorem allocatesAll_iff (w : OutInflight F) :
    w.AllocatesAll ↔ ∃ p, w.Free p ∧ p ≠ w.next - 1 := by
  constructor
  · intro all
    by_contra only
    have taken : ∀ j < 65535, ¬ w.Free (w.next + UInt16.ofNat j) := by
      intro j hj free
      have last : w.next + UInt16.ofNat j = w.next - 1 := by
        by_contra other
        exact only ⟨_, free, other⟩
      rw [← add_ofNat_last, add_ofNat_inj (by omega) (by omega)] at last
      omega
    obtain ⟨p, found, -⟩ := all.finds
    have none_found : w.nextId.1 = none := nextIdLoop_none taken
    rw [none_found] at found
    cases found
  · rintro ⟨p, free, other⟩
    exact .of_free free other

/-! ## A window with one free id -/

/-- The window's entry for an id. -/
def entryOf (packetId : PacketId) : PacketId × OutInflightMessage Unit where
  fst := packetId
  snd :=
    { publish :=
        { dup := false, retain := false, qos := .atLeastOnce, topic := "t"
          packetId := NonZeroU16.new packetId, payload := [], properties := none }
      origin := ()
      status := .unAck
      updateTime := 0 }

/-- A window that uses the ids from 1 to `n`, with the counter at 0. -/
def crowded (n : Nat) : OutInflight Unit where
  cap := 65535
  interval := 0
  next := 0
  queues := (List.range n).map fun i => entryOf (UInt16.ofNat (i + 1))
  toBack := false
  pushes := n
  pops := 0

theorem length_crowded (n : Nat) : (crowded n).queues.length = n := by
  rw [crowded, List.length_map, List.length_range]

theorem exist_crowded {n : Nat} {p : PacketId} (pos : p ≠ 0) (used : p.toNat ≤ n) :
    (crowded n).exist p = true := by
  have nonzero : p.toNat ≠ 0 := fun h => pos (UInt16.toNat_inj.mp h)
  have key : UInt16.ofNat (p.toNat - 1 + 1) = p := by
    rw [show p.toNat - 1 + 1 = p.toNat by omega, UInt16.ofNat_toNat]
  have entry : entryOf p ∈ (crowded n).queues :=
    List.mem_map.mpr ⟨p.toNat - 1, List.mem_range.mpr (by omega), congrArg entryOf key⟩
  exact List.any_eq_true.mpr ⟨entryOf p, entry, beq_self_eq_true p⟩

/-- Only the id 65535 is free, and `next_id` does not find it from the counter 0. -/
theorem last_id_not_found :
    ¬ ∀ w : OutInflight Unit, w.queues.length < 65535 → w.AllocatesAll := by
  intro claimed
  have all := claimed (crowded 65534) (by rw [length_crowded]; omega)
  obtain ⟨p, ⟨nonzero, unused⟩, other⟩ := (allocatesAll_iff _).mp all
  have bound : p.toNat < 65536 := p.toNat_lt
  have small : p.toNat ≠ 65535 := fun h => other (UInt16.toNat_inj.mp h)
  rw [exist_crowded nonzero (by omega)] at unused
  cases unused

end OxiMqtt.Session.OutInflight

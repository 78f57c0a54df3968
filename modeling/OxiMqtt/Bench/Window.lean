import Mathlib.Data.List.TakeDrop
import OxiMqtt.Lib.Collections

/-!
# The window of packet ids

`oximqtt-bench/src/window.rs`: a slot for each id from 1 on, and a cursor from which the next free
one is looked for.  A window has a slot at least, and the cursor is within it.

* `take_some`, `take_eq_none`, `claimed_release`: what the operations do to the claimed ids.
* `length_eq_inUse`: the number of claimed ids.
-/

namespace OxiMqtt.Bench

/-- `Slots` -/
structure Slots : Type where
  used : List Bool
  cursor : Nat
  within : cursor < used.length
  deriving DecidableEq, Repr

namespace Slots

/-- `Slots::new` -/
def new (count : Nat) : Slots where
  used := List.replicate (max count 1) false
  cursor := 0
  within := by
    rw [List.length_replicate]
    exact Nat.lt_of_lt_of_le Nat.one_pos (Nat.le_max_right count 1)

/-- `Slots::capacity` -/
def capacity (s : Slots) : Nat := s.used.length

/-- The slot is used, and the cursor moves behind it. -/
def claim (s : Slots) (idx : Nat) : Slots where
  used := s.used.set idx true
  cursor := (idx + 1) % s.capacity
  within := by
    rw [List.length_set]
    exact Nat.mod_lt _ (Nat.zero_lt_of_lt s.within)

/-- The slots in the order in which `take` looks at them. -/
def order (s : Slots) : List Nat :=
  (List.range s.capacity).map fun i => (s.cursor + i) % s.capacity

/-- `Slots::take` -/
def take (s : Slots) : Option (UInt16 × Slots) :=
  (s.order.find? fun idx => !s.used.getD idx false).map fun idx =>
    (UInt16.ofNat idx + 1, s.claim idx)

/-- `Slots::release` -/
def release (s : Slots) (pid : UInt16) : Slots :=
  if pid = 0 then s
  else
    let idx := pid.toNat - 1
    if idx < s.capacity then
      { used := s.used.set idx false
        cursor := s.cursor
        within := by
          rw [List.length_set]
          exact s.within }
    else s

/-- `Slots::in_use` -/
def inUse (s : Slots) : Nat := s.used.countP id

/-- The slot of the id is used. -/
def Claimed (s : Slots) (pid : UInt16) : Prop := pid ≠ 0 ∧ s.used[pid.toNat - 1]? = some true

instance (s : Slots) (pid : UInt16) : Decidable (s.Claimed pid) :=
  inferInstanceAs (Decidable (_ ∧ _))

/-! ## The claimed ids -/

section

variable {s s' : Slots} {pid p : UInt16}

@[simp]
theorem capacity_new (count : Nat) : (new count).capacity = max count 1 := List.length_replicate

@[simp]
theorem capacity_claim (idx : Nat) : (s.claim idx).capacity = s.capacity := List.length_set

@[simp]
theorem capacity_release (pid : UInt16) : (s.release pid).capacity = s.capacity := by
  unfold release
  split
  · rfl
  · dsimp only
    split
    · exact List.length_set
    · rfl

theorem not_claimed_new (count : Nat) (pid : UInt16) : ¬ (new count).Claimed pid := by
  intro claimed
  have free := List.eq_of_mem_replicate (List.mem_of_getElem? claimed.2)
  cases free

theorem Claimed.le_capacity (claimed : s.Claimed pid) : pid.toNat ≤ s.capacity := by
  have within := (List.getElem?_eq_some_iff.mp claimed.2).1
  unfold capacity
  omega

/-- Every slot is looked at. -/
theorem mem_order {idx : Nat} : idx ∈ s.order ↔ idx < s.capacity := by
  have pos : 0 < s.capacity := Nat.zero_lt_of_lt s.within
  constructor
  · intro h
    obtain ⟨i, -, rfl⟩ := List.mem_map.mp h
    exact Nat.mod_lt _ pos
  · intro h
    have cursor : s.cursor < s.capacity := s.within
    refine List.mem_map.mpr ⟨(idx + s.capacity - s.cursor) % s.capacity,
      List.mem_range.mpr (Nat.mod_lt _ pos), ?_⟩
    rw [Nat.add_mod_mod, show s.cursor + (idx + s.capacity - s.cursor) = idx + s.capacity by omega,
      Nat.add_mod_right, Nat.mod_eq_of_lt h]

/-- The id of a slot. -/
theorem toNat_id {idx : Nat} (few : s.capacity ≤ 65535) (h : idx < s.capacity) :
    (UInt16.ofNat idx + 1).toNat = idx + 1 := by
  rw [UInt16.toNat_add, UInt16.toNat_ofNat', UInt16.toNat_one]
  omega

theorem claimed_claim {idx : Nat} (few : s.capacity ≤ 65535) (h : idx < s.capacity) :
    (s.claim idx).Claimed p ↔ p = UInt16.ofNat idx + 1 ∨ s.Claimed p := by
  have id := toNat_id few h
  have own : p = UInt16.ofNat idx + 1 ↔ p ≠ 0 ∧ idx = p.toNat - 1 := by
    rw [← UInt16.toNat_inj, id, Ne, ← UInt16.toNat_inj, UInt16.toNat_zero]
    omega
  rw [own]
  unfold Claimed claim
  rw [List.getElem?_set]
  by_cases same : idx = p.toNat - 1
  · rw [if_pos same, if_pos (show idx < s.used.length from h)]
    exact ⟨fun c => .inl ⟨c.1, same⟩, fun c => ⟨c.elim And.left And.left, rfl⟩⟩
  · rw [if_neg same]
    exact ⟨.inr, fun c => c.resolve_left fun other => same other.2⟩

theorem claimed_release : (s.release pid).Claimed p ↔ p ≠ pid ∧ s.Claimed p := by
  unfold release
  by_cases zero : pid = 0
  · rw [if_pos zero, zero]
    exact ⟨fun c => ⟨c.1, c⟩, And.right⟩
  rw [if_neg zero]
  dsimp only
  have own : p = pid ∧ p ≠ 0 ↔ pid.toNat - 1 = p.toNat - 1 ∧ p ≠ 0 := by
    rw [← UInt16.toNat_inj, Ne, ← UInt16.toNat_inj, UInt16.toNat_zero]
    rw [← UInt16.toNat_inj, UInt16.toNat_zero] at zero
    omega
  by_cases same : p = pid
  · subst same
    refine ⟨fun c => ?_, fun c => absurd rfl c.1⟩
    -- a slot that is released is free, and one out of range is no slot
    split at c
    · rename_i within
      have free := c.2
      rw [List.getElem?_set_self within] at free
      cases free
    · rename_i beyond
      have claimed := c.le_capacity
      have nonzero : p.toNat ≠ 0 := fun h => zero (UInt16.toNat_inj.mp h)
      omega
  · split
    · unfold Claimed
      refine ⟨fun c => ⟨same, c.1, ?_⟩, fun c => ⟨c.2.1, ?_⟩⟩
      · have other : pid.toNat - 1 ≠ p.toNat - 1 := fun eq => same (own.mpr ⟨eq, c.1⟩).1
        rw [← c.2, List.getElem?_set_ne other]
      · have other : pid.toNat - 1 ≠ p.toNat - 1 := fun eq => same (own.mpr ⟨eq, c.2.1⟩).1
        rw [List.getElem?_set_ne other]
        exact c.2.2
    · exact ⟨fun c => ⟨same, c⟩, And.right⟩

/-- An id that is taken was free. -/
theorem take_some (few : s.capacity ≤ 65535) (h : s.take = some (pid, s')) :
    pid ≠ 0 ∧ ¬ s.Claimed pid ∧ s'.capacity = s.capacity ∧
      ∀ p, s'.Claimed p ↔ p = pid ∨ s.Claimed p := by
  obtain ⟨idx, found, eq⟩ := Option.map_eq_some_iff.mp h
  cases eq
  have within := mem_order.mp (List.mem_of_find?_eq_some found)
  have id := toNat_id few within
  have free : s.used[idx]? = some false := by
    have value := List.find?_some found
    rw [List.getD_eq_getElem?_getD, List.getElem?_eq_getElem within, Option.getD_some] at value
    rw [List.getElem?_eq_getElem within, Bool.not_eq_true' _ |>.mp value]
  refine ⟨fun zero => ?_, fun claimed => ?_, capacity_claim idx, fun p => claimed_claim few within⟩
  · rw [zero, UInt16.toNat_zero] at id
    omega
  · have used := claimed.2
    rw [id, Nat.add_sub_cancel, free] at used
    cases used

/-- No id is found exactly where all are claimed. -/
theorem take_eq_none : s.take = none ↔ s.inUse = s.capacity := by
  rw [take, Option.map_eq_none_iff, List.find?_eq_none, inUse, capacity, List.countP_eq_length]
  constructor
  · intro full b hb
    obtain ⟨idx, within, rfl⟩ := List.getElem_of_mem hb
    have used := full idx (mem_order.mpr within)
    rw [List.getD_eq_getElem?_getD, List.getElem?_eq_getElem within] at used
    exact Bool.not_eq_false' _ |>.mp (Bool.not_eq_true _ |>.mp used)
  · intro all idx h
    have within : idx < s.used.length := mem_order.mp h
    have used : s.used[idx] = true := all _ (List.getElem_mem within)
    rw [List.getD_eq_getElem?_getD, List.getElem?_eq_getElem within, Option.getD_some, used]
    decide

/-- The used slots, counted by their numbers. -/
theorem countP_range_used (used : List Bool) :
    ((List.range used.length).filter fun idx => used.getD idx false).length = used.countP id := by
  rw [← List.countP_eq_length_filter]
  induction used with
  | nil => rfl
  | cons b used ih =>
      rw [List.length_cons, List.range_succ_eq_map, List.countP_cons, List.countP_map,
        List.countP_cons, ← ih]
      rfl

/-- Distinct ids, which are those of the used slots, are as many as these. -/
theorem length_eq_inUse {pids : List UInt16} (few : s.capacity ≤ 65535) (nodup : pids.Nodup)
    (claimed : ∀ pid, pid ∈ pids ↔ s.Claimed pid) : pids.length = s.inUse := by
  rw [inUse, ← countP_range_used]
  -- the slots of the ids are the used ones
  have slot : ∀ {pid}, s.Claimed pid → pid.toNat = pid.toNat - 1 + 1 := by
    intro pid claimed
    have nonzero : pid.toNat ≠ 0 := fun h => claimed.1 (UInt16.toNat_inj.mp h)
    omega
  have slots : (pids.map fun pid => pid.toNat - 1).Nodup := by
    refine nodup.map_on fun pid h pid' h' same => UInt16.toNat_inj.mp ?_
    rw [slot ((claimed pid).mp h), slot ((claimed pid').mp h')]
    exact congrArg (· + 1) same
  have length : pids.length = (pids.map fun pid => pid.toNat - 1).length :=
    List.length_map _ |>.symm
  rw [length]
  refine ((List.perm_ext_iff_of_nodup slots (List.nodup_range.filter _)).mpr fun idx =>
    ?_).length_eq
  rw [List.mem_map, List.mem_filter, List.mem_range]
  constructor
  · rintro ⟨pid, h, rfl⟩
    have used := ((claimed pid).mp h).2
    refine ⟨(List.getElem?_eq_some_iff.mp used).1, ?_⟩
    rw [List.getD_eq_getElem?_getD, used]
    rfl
  · rintro ⟨within, used⟩
    have id := toNat_id few within
    refine ⟨UInt16.ofNat idx + 1, (claimed _).mpr ⟨fun zero => ?_, ?_⟩,
      by rw [id, Nat.add_sub_cancel]⟩
    · rw [zero, UInt16.toNat_zero] at id
      omega
    · rw [List.getD_eq_getElem?_getD, List.getElem?_eq_getElem within, Option.getD_some] at used
      rw [id, Nat.add_sub_cancel, List.getElem?_eq_getElem within, used]

end

end Slots

end OxiMqtt.Bench

import Mathlib.Algebra.Ring.Nat
import Mathlib.Data.List.Sort

/-!
# Ranks in a histogram

Samples are counted in buckets that are numbered in their order.  A scan adds the counts up, and
stops at the bucket where a target is reached.

* `scan_eq_some`: what the scan stops at.
* `scan_counts`: on the counts of samples, that is the bucket of the sample whose rank is the
  target.
-/

namespace Histogram

/-- The number of the first count, from `idx` on, with which the sum reaches the target. -/
def scan (target acc idx : Nat) : List Nat → Option Nat
  | [] => none
  | c :: cs => if acc + c ≥ target then some idx else scan target (acc + c) (idx + 1) cs

theorem scan_eq_some {target acc idx : Nat} {counts : List Nat} {j : Nat}
    (before : acc + (counts.take j).sum < target)
    (reached : target ≤ acc + (counts.take (j + 1)).sum) :
    scan target acc idx counts = some (idx + j) := by
  induction counts generalizing acc idx j with
  | nil =>
      rw [List.take_nil] at before reached
      omega
  | cons c cs ih =>
      rw [List.take_succ_cons, List.sum_cons] at reached
      cases j with
      | zero =>
          rw [List.take_zero, List.sum_nil] at reached
          exact if_pos (by omega)
      | succ j =>
          rw [List.take_succ_cons, List.sum_cons] at before
          rw [scan, if_neg (by omega), ih (j := j) (by omega) (by omega)]
          congr 1
          omega

section

variable {α : Type} (bucket : α → Nat)

/-- The counts of the first `n` buckets. -/
def counts (n : Nat) (samples : List α) : List Nat :=
  (List.range n).map fun i => samples.countP fun x => decide (bucket x = i)

theorem counts_nil (n : Nat) : counts bucket n [] = List.replicate n 0 := by
  refine List.eq_replicate_iff.mpr ⟨by rw [counts, List.length_map, List.length_range], ?_⟩
  intro c hc
  obtain ⟨i, -, rfl⟩ := List.mem_map.mp hc
  rfl

/-- One more sample is one more in its bucket. -/
theorem counts_append_singleton (n : Nat) (samples : List α) (x : α) :
    counts bucket n (samples ++ [x]) = (counts bucket n samples).modify (bucket x) (· + 1) := by
  refine List.ext_getElem? fun i => ?_
  rw [List.getElem?_modify]
  unfold counts
  rw [List.getElem?_map, List.getElem?_map]
  rcases Nat.lt_or_ge i n with within | beyond
  · rw [List.getElem?_range within, Option.map_some, Option.map_some, List.countP_append,
      List.countP_singleton]
    split_ifs with same same' <;> simp_all
  · rw [List.getElem?_eq_none (by rw [List.length_range]; exact beyond)]
    split <;> rfl

/-- The first counts are those of the samples in the buckets before. -/
theorem sum_take_counts {n m : Nat} (few : m ≤ n) (samples : List α) :
    ((counts bucket n samples).take m).sum = samples.countP fun x => decide (bucket x < m) := by
  unfold counts
  rw [← List.map_take, List.take_range, Nat.min_eq_left few]
  induction m with
  | zero => exact (List.countP_eq_zero.mpr fun x _ => by simp).symm
  | succ m ih =>
      rw [List.range_succ, List.map_append, List.sum_append, ih (by omega)]
      have apart : ∀ xs : List α, xs.countP (fun x => decide (bucket x < m)) +
          xs.countP (fun x => decide (bucket x = m)) =
          xs.countP fun x => decide (bucket x < m + 1) := by
        intro xs
        induction xs with
        | nil => rfl
        | cons x xs ih =>
            simp only [List.countP_cons, decide_eq_true_eq]
            split_ifs <;> omega
      simpa using apart samples

/-- In an ascending list, the samples in the buckets before that of the `k`-th are fewer than `k`,
and with those in its bucket there are `k`. -/
theorem countP_of_rank {sorted : List α} (ascending : sorted.Pairwise (bucket · ≤ bucket ·))
    {i : Nat} {x : α} (rank : sorted[i]? = some x) :
    sorted.countP (fun y => decide (bucket y < bucket x)) ≤ i ∧
      i < sorted.countP fun y => decide (bucket y < bucket x + 1) := by
  obtain ⟨within, eq⟩ := List.getElem?_eq_some_iff.mp rank
  have split : sorted = sorted.take i ++ x :: sorted.drop (i + 1) := by
    rw [← eq, ← List.drop_eq_getElem_cons within, List.take_append_drop]
  have length : (sorted.take i).length = i := List.length_take_of_le (Nat.le_of_lt within)
  generalize sorted.take i = first at split length
  generalize sorted.drop (i + 1) = last at split
  subst split
  rw [List.pairwise_append, List.pairwise_cons] at ascending
  obtain ⟨-, ⟨after, -⟩, before⟩ := ascending
  have none : (x :: last).countP (fun y => decide (bucket y < bucket x)) = 0 := by
    refine List.countP_eq_zero.mpr fun y hy => ?_
    rw [decide_eq_true_eq, Nat.not_lt]
    rcases List.mem_cons.mp hy with rfl | hy
    · exact Nat.le_refl _
    · exact after y hy
  have all : first.countP (fun y => decide (bucket y < bucket x + 1)) = i := by
    rw [List.countP_eq_length.mpr, length]
    exact fun y hy => decide_eq_true (Nat.lt_succ_of_le (before y hy _ List.mem_cons_self))
  have own : (x :: last).countP (fun y => decide (bucket y < bucket x + 1)) =
      last.countP (fun y => decide (bucket y < bucket x + 1)) + 1 :=
    List.countP_cons_of_pos (decide_eq_true (Nat.lt_succ_self _))
  rw [List.countP_append, List.countP_append, none, all, own]
  constructor
  · exact length ▸ List.countP_le_length
  · omega

/-- The scan stops at the bucket of the sample with the target as its rank. -/
theorem scan_counts {n : Nat} {samples sorted : List α} (perm : sorted.Perm samples)
    (ascending : sorted.Pairwise (bucket · ≤ bucket ·)) {k : Nat} {x : α} (pos : 0 < k)
    (rank : sorted[k - 1]? = some x) (valid : bucket x < n) :
    scan k 0 0 (counts bucket n samples) = some (bucket x) := by
  obtain ⟨before, reached⟩ := countP_of_rank bucket ascending rank
  rw [perm.countP_eq] at before reached
  rw [← sum_take_counts bucket (Nat.le_of_lt valid)] at before
  rw [← sum_take_counts bucket (m := bucket x + 1) valid] at reached
  have stop : scan k 0 0 (counts bucket n samples) = some (0 + bucket x) :=
    scan_eq_some (by omega) (by omega)
  rwa [Nat.zero_add] at stop

end

end Histogram

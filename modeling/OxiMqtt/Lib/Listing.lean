import Mathlib.Data.List.Nodup

/-!
# Answers of a limited length

A listing walks some things, keeps the first of those that are equal, and stops to take after a
number of them.  The number is counted across the groups that it walks.

* `unique`: each thing once.
* `flatUpTo_eq`: the counter goes on from group to group.
* `UpTo`: an answer holds what was asked for, each once, and all of it below the limit.
-/

namespace Listing

variable {α β : Type}

/-- `unique()` of an iterator. -/
def unique [DecidableEq α] (l : List α) : List α := l.eraseDups

theorem mem_unique [DecidableEq α] {l : List α} {a : α} : a ∈ unique l ↔ a ∈ l := List.mem_eraseDups

theorem nodup_unique [DecidableEq α] (l : List α) : (unique l).Nodup := by
  induction h : l.length using Nat.strongRecOn generalizing l with
  | ind n ih =>
      cases l with
      | nil => exact List.nodup_nil
      | cons a l =>
          have shorter : (l.filter fun b => !b == a).length < n := by
            rw [← h, List.length_cons]
            exact Nat.lt_succ_of_le (List.length_filter_le _ _)
          rw [unique, List.eraseDups_cons, List.nodup_cons]
          refine ⟨fun again => ?_, ih _ shorter _ rfl⟩
          have kept := (List.mem_filter.mp (List.mem_eraseDups.mp again)).2
          rw [beq_self_eq_true] at kept
          cases kept

/-- `filter_map` with a closure that counts and takes below the limit; the counter comes back. -/
def upTo (limit : Nat) : Nat → List α → List α × Nat
  | curr, [] => ([], curr)
  | curr, a :: l =>
      if curr < limit then
        let r := upTo limit (curr + 1) l
        (a :: r.1, r.2)
      else upTo limit curr l

/-- A `flat_map` whose groups share the counter. -/
def flatUpTo (limit : Nat) (group : β → List α) : Nat → List β → List α
  | _, [] => []
  | curr, b :: l =>
      let r := upTo limit curr (group b)
      r.1 ++ flatUpTo limit group r.2 l

theorem upTo_eq (limit curr : Nat) (l : List α) :
    upTo limit curr l = (l.take (limit - curr), curr + min (limit - curr) l.length) := by
  induction l generalizing curr with
  | nil => rw [upTo, List.take_nil, List.length_nil, Nat.min_zero, Nat.add_zero]
  | cons a l ih =>
      unfold upTo
      split
      · rename_i room
        have left : limit - curr = (limit - (curr + 1)) + 1 := by omega
        rw [ih, left, List.take_succ_cons, List.length_cons]
        simp only [Prod.mk.injEq, true_and]
        omega
      · rename_i full
        have none : limit - curr = 0 := by omega
        rw [ih, none, List.take_zero, List.take_zero, Nat.zero_min, Nat.zero_min]

theorem flatUpTo_eq (limit : Nat) (group : β → List α) (curr : Nat) (l : List β) :
    flatUpTo limit group curr l = (l.flatMap group).take (limit - curr) := by
  induction l generalizing curr with
  | nil => rw [flatUpTo, List.flatMap_nil, List.take_nil]
  | cons b l ih =>
      have rest : limit - (curr + min (limit - curr) (group b).length) =
          limit - curr - (group b).length := by
        omega
      rw [flatUpTo, upTo_eq, List.flatMap_cons, List.take_append]
      dsimp only
      rw [ih, rest]

/-- Groups with things of different keys share nothing. -/
theorem nodup_flatMap_of_key {κ : Type} {l : List β} {group : β → List α} (k : β → κ)
    (key : α → κ) (distinct : (l.map k).Nodup) (each : ∀ b ∈ l, (group b).Nodup)
    (keys : ∀ b ∈ l, ∀ a ∈ group b, key a = k b) : (l.flatMap group).Nodup := by
  rw [List.nodup_flatMap]
  refine ⟨each, (List.pairwise_map.mp distinct).imp_of_mem ?_⟩
  intro b b' member member' different
  apply List.disjoint_left.mpr
  intro a first second
  exact different ((keys b member a first).symm.trans (keys b' member' a second))

/-- A listing of what was asked for. -/
structure UpTo (limit : Nat) (Asked : α → Prop) (answer : List α) : Prop where
  nodup : answer.Nodup
  asked : ∀ a ∈ answer, Asked a
  within : answer.length ≤ limit
  complete : answer.length < limit → ∀ a, Asked a → a ∈ answer

theorem UpTo.take {Asked : α → Prop} {l : List α} (nodup : l.Nodup)
    (lists : ∀ a, a ∈ l ↔ Asked a) (limit : Nat) : UpTo limit Asked (l.take limit) where
  nodup := nodup.sublist (List.take_sublist _ _)
  asked a member := (lists a).mp (List.mem_of_mem_take member)
  within := List.length_take_le _ _
  complete short a asked := by
    rw [List.length_take] at short
    rw [List.take_of_length_le (by omega)]
    exact (lists a).mpr asked

theorem UpTo.nil {Asked : α → Prop} (none : ∀ a, ¬ Asked a) (limit : Nat) :
    UpTo limit Asked [] := by
  rw [← List.take_nil (i := limit)]
  exact UpTo.take List.nodup_nil (fun a => iff_of_false List.not_mem_nil (none a)) limit

end Listing

import Mathlib.Data.List.Nodup

/-!
# Lists in two phases

A list is in two phases when no early element stands after a late one.  Such a list is its early
elements followed by its late ones.

* `ordered_append`, `Ordered.eq_filter_append`: the list is determined by its two parts.
* `ordered_insert_iff`: a late element before elements that are all early.
* `reverse_eq_self_iff`: a list without repetitions that is its own reverse.
-/

namespace TwoPhase

variable {α : Type} {late : α → Bool}

/-- After a late element come late elements only. -/
def Ordered (late : α → Bool) (l : List α) : Prop :=
  l.Pairwise fun a b => late a = true → late b = true

/-- Early elements followed by late ones. -/
theorem ordered_append {before after : List α} (early : ∀ a ∈ before, late a = false)
    (allLate : ∀ a ∈ after, late a = true) : Ordered late (before ++ after) := by
  refine List.pairwise_append.mpr ⟨?_, ?_, fun a _ b hb _ => allLate b hb⟩
  · apply List.pairwise_of_forall_mem_list
    intro a ha b _ isLate
    rw [early a ha] at isLate
    cases isLate
  · apply List.pairwise_of_forall_mem_list
    intro a _ b hb _
    exact allLate b hb

/-- A list in two phases is its early part and its late part. -/
theorem Ordered.eq_filter_append {l : List α} (ordered : Ordered late l) :
    l = l.filter (fun a => !late a) ++ l.filter late := by
  induction l with
  | nil => rfl
  | cons a l ih =>
      obtain ⟨after, rest⟩ := List.pairwise_cons.mp ordered
      cases isLate : late a with
      | false =>
          rw [List.filter_cons_of_pos (by simp [isLate]),
            List.filter_cons_of_neg (by simp [isLate]), List.cons_append, ← ih rest]
      | true =>
          have noneEarly : l.filter (fun b => !late b) = [] :=
            List.filter_eq_nil_iff.mpr fun b hb => by simp [after b hb isLate]
          have allLate : l.filter late = l := List.filter_eq_self.mpr fun b hb => after b hb isLate
          rw [List.filter_cons_of_neg (by simp [isLate]), List.filter_cons_of_pos isLate,
            noneEarly, allLate]
          rfl

/-- A late element can stand before early ones only if there are none. -/
theorem ordered_insert_iff {l rest : List α} {a : α} (isLate : late a = true)
    (early : ∀ b ∈ rest, late b = false) :
    Ordered late (l ++ [a] ++ rest) ↔ Ordered late (l ++ rest) ∧ rest = [] := by
  constructor
  · intro ordered
    constructor
    · apply List.Pairwise.sublist _ ordered
      exact (List.sublist_append_left l [a]).append_right rest
    · cases rest with
      | nil => rfl
      | cons b rest =>
          have after := (List.pairwise_append.mp ordered).2.2 a (by simp) b (by simp) isLate
          rw [early b (by simp)] at after
          cases after
  · intro ⟨ordered, empty⟩
    subst empty
    rw [List.append_nil] at ordered ⊢
    exact List.pairwise_append.mpr ⟨ordered, List.pairwise_singleton _ _, fun b _ c hc _ =>
      List.mem_singleton.mp hc ▸ isLate⟩

theorem reverse_eq_self_iff {l : List α} (distinct : l.Nodup) :
    l.reverse = l ↔ l.length ≤ 1 := by
  cases l with
  | nil => simp
  | cons a l =>
      rcases List.eq_nil_or_concat l with rfl | ⟨front, b, rfl⟩
      · simp
      · constructor
        · intro same
          have heads : b = a := by simpa using congrArg List.head? same
          subst heads
          simp at distinct
        · intro short
          simp at short

end TwoPhase

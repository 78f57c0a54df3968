import Mathlib.Data.List.Perm.Basic

/-!
# Priority queues

A max-heap is kept as the list of its elements.  An operation on the top names a position: any
position of an element that none exceeds may be the top, so what is proved of the queue does not
depend on how a heap arranges equal elements.

* `perm_of_top`: taking the top out leaves the other elements.
-/

namespace PriorityQueue

variable {α : Type} {cmp : α → α → Ordering}

/-- The element at a position that may be the top of the queue. -/
def top (cmp : α → α → Ordering) (q : List α) (i : Nat) : Option α :=
  match q[i]? with
  | some a => if q.all fun b => cmp b a != .gt then some a else none
  | none => none

theorem top_eq_some {q : List α} {i : Nat} {a : α} :
    top cmp q i = some a ↔ q[i]? = some a ∧ ∀ b ∈ q, cmp b a ≠ .gt := by
  unfold top
  split
  · rename_i c at_i
    constructor
    · intro h
      split at h
      · rename_i greatest
        cases h
        exact ⟨at_i, fun b hb => by simpa using List.all_eq_true.mp greatest b hb⟩
      · cases h
    · intro ⟨here, greatest⟩
      rw [at_i] at here
      cases here
      rw [if_pos (List.all_eq_true.mpr fun b hb => by simpa using greatest b hb)]
  · rename_i at_i
    simp [at_i]

theorem mem_of_top {q : List α} {i : Nat} {a : α} (h : top cmp q i = some a) : a ∈ q :=
  List.mem_of_getElem? (top_eq_some.mp h).1

theorem perm_of_top {q : List α} {i : Nat} {a : α} (h : top cmp q i = some a) :
    q.Perm (a :: q.eraseIdx i) := by
  obtain ⟨bound, rfl⟩ := List.getElem?_eq_some_iff.mp (top_eq_some.mp h).1
  exact (List.getElem_cons_eraseIdx_perm bound).symm

end PriorityQueue

import Mathlib.Data.List.Perm.Basic
import Mathlib.Data.List.Range

/-!
# A conveyor

Items are numbered as they are put on a line, which they leave at its front.  Some are taken off the
line on their way.

* `Carried.put`, `Carried.take`: what is put on the line, and what is taken off it.
-/

namespace Conveyor

/-- The line is in the order in which it was put on, and what was put on is on the line or off it,
once. -/
structure Carried (n : Nat) (line off : List Nat) : Prop where
  ordered : line.Pairwise (· < ·)
  all : (line ++ off).Perm (List.range n)

variable {n : Nat} {line off : List Nat}

theorem Carried.empty : Carried 0 [] [] := ⟨List.Pairwise.nil, List.Perm.nil⟩

theorem Carried.lt (h : Carried n line off) {m : Nat} (member : m ∈ line) : m < n :=
  List.mem_range.mp (h.all.subset (List.mem_append_left _ member))

theorem Carried.put (h : Carried n line off) : Carried (n + 1) (line ++ [n]) off where
  ordered := by
    refine List.pairwise_append.mpr ⟨h.ordered, List.pairwise_singleton _ _, ?_⟩
    intro m member k last
    rw [List.mem_singleton.mp last]
    exact h.lt member
  all := by
    rw [List.range_succ, List.append_assoc]
    refine List.Perm.trans ?_ (h.all.append_right [n])
    rw [List.append_assoc]
    exact List.perm_append_comm.append_left line

/-- Some items are taken off, and the others stay in their order. -/
theorem Carried.take (h : Carried n line off) {line' taken : List Nat} (rest : line'.Sublist line)
    (both : (taken ++ line').Perm line) : Carried n line' (off ++ taken) where
  ordered := h.ordered.sublist rest
  all := by
    refine List.Perm.trans ?_ ((both.append_right off).trans h.all)
    rw [← List.append_assoc, List.append_assoc taken]
    exact List.perm_append_comm

end Conveyor

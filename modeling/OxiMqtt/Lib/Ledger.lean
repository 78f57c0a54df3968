import Mathlib.Data.List.Perm.Basic

/-!
# A ledger

Tasks find things that are due, hold them, and put them out.  A ledger is balanced if what is out
and what the tasks hold is what was due, each thing as often as it was.

* `Balanced.set`: a step of a task that puts out or holds what it has found and held before.
* `Balanced.settled`: where no task holds anything, everything due is out.
-/

namespace Ledger

variable {T C : Type} {held : T → List C} {out due : List C} {tasks : List T}

/-- What is out and what is held is what was due. -/
def Balanced (held : T → List C) (out : List C) (tasks : List T) (due : List C) : Prop :=
  (out ++ tasks.flatMap held).Perm due

/-- A task that is replaced takes what it holds with it. -/
theorem perm_flatMap_set (held : T → List C) {k : Nat} {t t' : T} (at_ : tasks[k]? = some t) :
    ((tasks.set k t').flatMap held ++ held t).Perm (tasks.flatMap held ++ held t') := by
  induction tasks generalizing k with
  | nil => cases at_
  | cons first tasks ih =>
      cases k with
      | zero =>
          cases at_
          rw [List.set_cons_zero, List.flatMap_cons, List.flatMap_cons, List.append_assoc]
          refine List.perm_append_comm.trans ?_
          rw [List.append_assoc, List.append_assoc]
          exact List.perm_append_comm_assoc _ _ _
      | succ k =>
          rw [List.set_cons_succ, List.flatMap_cons, List.flatMap_cons, List.append_assoc,
            List.append_assoc]
          exact (ih at_).append_left _

theorem balanced_nil : Balanced held [] ([] : List T) [] := List.Perm.nil

/-- A task begins with nothing. -/
theorem Balanced.start (balanced : Balanced held out tasks due) {t : T} (empty : held t = []) :
    Balanced held out (tasks ++ [t]) due := by
  rw [Balanced, List.flatMap_append, List.flatMap_singleton, empty, List.append_nil]
  exact balanced

theorem Balanced.set (balanced : Balanced held out tasks due) {k : Nat} {t : T}
    (at_ : tasks[k]? = some t) (t' : T) (more found : List C) {out' : List C}
    (grown : out'.Perm (out ++ more)) (balance : (more ++ held t').Perm (found ++ held t)) :
    Balanced held out' (tasks.set k t') (due ++ found) := by
  have whole : ((out' ++ (tasks.set k t').flatMap held) ++ held t).Perm
      ((due ++ found) ++ held t) := by
    calc
      List.Perm ((out' ++ (tasks.set k t').flatMap held) ++ held t)
          (out' ++ ((tasks.set k t').flatMap held ++ held t)) := by rw [List.append_assoc]
      List.Perm _ ((out ++ more) ++ (tasks.flatMap held ++ held t')) :=
          grown.append (perm_flatMap_set held at_)
      List.Perm _ ((out ++ tasks.flatMap held) ++ (more ++ held t')) := by
          rw [List.append_assoc, List.append_assoc]
          exact (List.perm_append_comm_assoc _ _ _).append_left _
      List.Perm _ (due ++ (found ++ held t)) := balanced.append balance
      List.Perm _ ((due ++ found) ++ held t) := by rw [List.append_assoc]
  exact (List.perm_append_right_iff _).mp whole

/-- Where no task holds anything, everything due is out. -/
theorem Balanced.settled (balanced : Balanced held out tasks due)
    (empty : ∀ t ∈ tasks, held t = []) : out.Perm due := by
  have none : tasks.flatMap held = [] := List.flatMap_eq_nil_iff.mpr empty
  rw [Balanced, none, List.append_nil] at balanced
  exact balanced

end Ledger

import Mathlib.Data.List.Basic

/-!
# Traces of events

A trace is a list of events, oldest first.  `Each P trace` says of every event of the trace that it
is as it should be, given the events before it.

* `Each.snoc`: a trace grows by one event.
-/

namespace Trace

variable {E : Type}

/-- The last event of a trace is the one looked at, or comes after it. -/
theorem snoc_eq_append_cons {events before after : List E} {a b : E}
    (h : events ++ [a] = before ++ b :: after) :
    before = events ∧ b = a ∧ after = [] ∨
      ∃ mid, after = mid ++ [a] ∧ events = before ++ b :: mid := by
  rcases List.eq_nil_or_concat after with rfl | ⟨mid, c, rfl⟩
  · obtain ⟨same, last⟩ := List.append_inj' h rfl
    exact .inl ⟨same.symm, (List.cons.inj last).1.symm, rfl⟩
  · have h' : events ++ [a] = (before ++ b :: mid) ++ [c] := by
      rw [h, List.append_assoc, List.concat_eq_append]
      rfl
    obtain ⟨same, last⟩ := List.append_inj' h' rfl
    obtain rfl : a = c := (List.cons.inj last).1
    exact .inr ⟨mid, List.concat_eq_append, same⟩

/-- Every event of the trace meets `P` with the events before it. -/
def Each (P : List E → E → Prop) (trace : List E) : Prop :=
  ∀ before e after, trace = before ++ e :: after → P before e

variable {P : List E → E → Prop} {trace : List E}

theorem Each.nil : Each P [] := by
  intro before e after h
  simp at h

theorem Each.snoc (each : Each P trace) {e : E} (h : P trace e) : Each P (trace ++ [e]) := by
  intro before e' after split
  rcases snoc_eq_append_cons split with ⟨rfl, rfl, -⟩ | ⟨mid, -, rfl⟩
  · exact h
  · exact each before e' mid rfl

end Trace

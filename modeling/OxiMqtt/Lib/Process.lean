import Mathlib.Tactic.TypeStar

/-!
# Pre- and postconditions of stateful processes

A process that changes a state and may fail keeps the changes it has made when it
fails; that is `EStateM`.  `Triple P x Q E` says what such a process does from the
states with `P`: it returns with `Q`, or fails with `E`.

The rules follow the statements a process is written with, and `Triple.forM` is the
rule for a process that is run for each element of a list until it fails.
-/

namespace Process

variable {ε σ α β : Type} {P P' : σ → Prop} {Q Q' : α → σ → Prop} {E E' : σ → Prop}

/-- From a state with `P`, the process returns with `Q` or fails with `E`. -/
def Triple (P : σ → Prop) (x : EStateM ε σ α) (Q : α → σ → Prop) (E : σ → Prop) : Prop :=
  ∀ s, P s →
    match x s with
    | .ok a s' => Q a s'
    | .error _ s' => E s'

namespace Triple

theorem of_pure {a : α} (h : ∀ s, P s → Q a s) :
    Triple P (Pure.pure a : EStateM ε σ α) Q E := fun s hs => h s hs

theorem of_throw {e : ε} (h : ∀ s, P s → E s) :
    Triple P (throw e : EStateM ε σ α) Q E := fun s hs => h s hs

theorem bind {x : EStateM ε σ α} {f : α → EStateM ε σ β} {R : β → σ → Prop}
    (hx : Triple P x Q E) (hf : ∀ a, Triple (Q a) (f a) R E) : Triple P (x >>= f) R E := by
  intro s hs
  have first := hx s hs
  change match EStateM.bind x f s with
    | .ok a s' => R a s'
    | .error _ s' => E s'
  unfold EStateM.bind
  rcases h : x s with ⟨a, s'⟩ | ⟨e, s'⟩
  · rw [h] at first
    exact hf a s' first
  · rw [h] at first
    exact first

/-- A return before other statements. -/
theorem pure_bind {a : α} {f : α → EStateM ε σ β} {R : β → σ → Prop} (h : Triple P (f a) R E) :
    Triple P (Pure.pure a >>= f) R E := h

/-- A failure skips the other statements. -/
theorem throw_bind {e : ε} {f : α → EStateM ε σ β} {R : β → σ → Prop} (h : ∀ s, P s → E s) :
    Triple P ((throw e : EStateM ε σ α) >>= f) R E := h

/-- Change the state, and go on. -/
theorem modify_bind (P' : σ → Prop) {g : σ → σ} {f : PUnit → EStateM ε σ β} {R : β → σ → Prop}
    (step : ∀ s, P s → P' (g s)) (h : Triple P' (f ⟨⟩) R E) : Triple P (modify g >>= f) R E :=
  fun s hs => h (g s) (step s hs)

/-- Replace the state, and go on. -/
theorem set_bind {t : σ} {f : PUnit → EStateM ε σ β} {R : β → σ → Prop}
    (h : Triple (fun s => s = t) (f ⟨⟩) R E) : Triple P (set t >>= f) R E :=
  fun _ _ => h t rfl

/-- Read the state, and go on from it. -/
theorem get_bind {f : σ → EStateM ε σ α} (h : ∀ s, P s → Triple (fun s' => s' = s) (f s) Q E) :
    Triple P (get >>= f) Q E := fun s hs => h s hs s rfl

theorem weaken {x : EStateM ε σ α} (h : Triple P x Q E) (hP : ∀ s, P' s → P s)
    (hQ : ∀ a s, Q a s → Q' a s) (hE : ∀ s, E s → E' s) : Triple P' x Q' E' := by
  intro s hs
  have run := h s (hP s hs)
  rcases hx : x s with ⟨a, s'⟩ | ⟨e, s'⟩
  · rw [hx] at run
    exact hQ a s' run
  · rw [hx] at run
    exact hE s' run

/-- What every element preserves, the whole list does. -/
theorem forM {I : σ → Prop} {f : α → EStateM ε σ PUnit} (as : List α)
    (h : ∀ a ∈ as, Triple I (f a) (fun _ => I) E) : Triple I (as.forM f) (fun _ => I) E := by
  induction as with
  | nil => exact of_pure fun _ hs => hs
  | cons a as ih =>
      exact (h a List.mem_cons_self).bind fun _ => ih fun a' ha' =>
        h a' (List.mem_cons_of_mem _ ha')

end Triple

end Process

import OxiMqtt.Lib.Reader

/-!
# The errors of a reader

`Errors d E`: whatever buffer the reader `d` is given, an error it stops with satisfies `E`.  The
rules follow the program, as those of `Yields` do for what it returns.
-/

namespace Wire

open Outcome

namespace Reader

variable {ε α β σ : Type} {E : ε → Prop}

/-- Every error of `d` satisfies `E`. -/
def Errors (d : Reader ε α) (E : ε → Prop) : Prop := ∀ s e, d s = err e → E e

theorem Errors.pure (a : α) : Errors (Pure.pure a : Reader ε α) E := by
  intro s e h
  cases h

theorem Errors.fail {e : ε} (h : E e) : Errors (fail e : Reader ε α) E := by
  intro s e' h'
  cases h'
  exact h

theorem Errors.bind {d : Reader ε α} {f : α → Reader ε β} (h : Errors d E)
    (h' : ∀ a, Errors (f a) E) : Errors (d >>= f) E := by
  intro s e failed
  rw [bind_apply] at failed
  rcases hd : d s with ⟨a, s'⟩ | e' | x
  · rw [hd] at failed
    exact h' a s' e failed
  · rw [hd] at failed
    cases failed
    exact h s e hd
  · rw [hd] at failed
    cases failed

theorem Errors.map {d : Reader ε α} {f : α → β} (h : Errors d E) : Errors (f <$> d) E :=
  Errors.bind h fun a => Errors.pure (f a)

theorem Errors.ite {d d' : Reader ε α} {c : Prop} [Decidable c] (h : Errors d E)
    (h' : Errors d' E) : Errors (if c then d else d') E := by
  split
  · exact h
  · exact h'

theorem Errors.ensure {e : ε} (c : Bool) (h : E e) : Errors (ensure c e) E :=
  Errors.ite (Errors.pure ()) (Errors.fail h)

theorem Errors.ensureRemaining {e : ε} (n : Nat) (h : E e) : Errors (ensureRemaining n e) E := by
  intro s e' failed
  unfold Reader.ensureRemaining at failed
  split at failed
  · cases failed
  · cases failed
    exact h

theorem Errors.okOr {e : ε} (o : Option α) (h : E e) : Errors (okOr o e) E := by
  cases o with
  | some a => exact Errors.pure a
  | none => exact Errors.fail h

theorem Errors.fromOutcome {o : Outcome ε α} (h : ∀ e, o = err e → E e) :
    Errors (fromOutcome o) E := by
  intro s e failed
  unfold Reader.fromOutcome at failed
  cases o with
  | ok a => cases failed
  | err e' =>
      cases failed
      exact h e rfl
  | fault x => cases failed

theorem Errors.readIf {d : Reader ε α} (c : Bool) (h : Errors d E) : Errors (readIf c d) E :=
  Errors.ite h.map (Errors.pure none)

/-! ## Primitives without errors -/

theorem Errors.getU8 : Errors (getU8 : Reader ε UInt8) E := by
  intro s e failed
  cases s with
  | nil => cases failed
  | cons b s => cases failed

theorem Errors.getU16 : Errors (getU16 : Reader ε UInt16) E := by
  intro s e failed
  unfold Reader.getU16 at failed
  split at failed
  · cases failed
  · cases failed

theorem Errors.getU32 : Errors (getU32 : Reader ε UInt32) E := by
  intro s e failed
  unfold Reader.getU32 at failed
  split at failed
  · cases failed
  · cases failed

theorem Errors.splitTo (n : Nat) : Errors (splitTo n : Reader ε Bytes) E := by
  intro s e failed
  unfold Reader.splitTo at failed
  split at failed
  · cases failed
  · cases failed

/-! ## Loops -/

theorem Errors.within {d : Reader ε α} (bs : Bytes) (h : Errors d E) : Errors (within bs d) E := by
  intro s e failed
  unfold Reader.within at failed
  rcases hd : d bs with ⟨a, s'⟩ | e' | x
  · rw [hd] at failed
    cases failed
  · rw [hd] at failed
    cases failed
    exact h bs e hd
  · rw [hd] at failed
    cases failed

theorem Errors.loopWith {step : σ → Reader ε σ} (h : ∀ acc, Errors (step acc) E) (fuel : Nat)
    (acc : σ) : Errors (loopWith step fuel acc) E := by
  induction fuel generalizing acc with
  | zero =>
      intro s e failed
      cases s with
      | nil => cases failed
      | cons b s => cases failed
  | succ fuel ih =>
      intro s e failed
      cases s with
      | nil => cases failed
      | cons b s =>
          rw [Reader.loopWith] at failed
          rcases hs : step acc (b :: s) with ⟨acc', s'⟩ | e' | x
          · rw [hs] at failed
            dsimp only at failed
            split at failed
            · exact ih acc' s' e failed
            · cases failed
          · rw [hs] at failed
            cases failed
            exact h acc (b :: s) e hs
          · rw [hs] at failed
            cases failed

theorem Errors.whileRemaining {step : σ → Reader ε σ} (h : ∀ acc, Errors (step acc) E) (acc : σ) :
    Errors (whileRemaining step acc) E := fun s => Errors.loopWith h s.length acc s

end Reader

end Wire

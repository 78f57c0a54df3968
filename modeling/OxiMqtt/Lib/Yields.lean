import OxiMqtt.Lib.Reader

/-!
# What a reader yields

`Yields d Q`: whenever `d` returns, `Q` holds of the value and of the number of bytes that were
consumed for it.  Where `Decodes` starts from a value and its bytes, `Yields` starts from any
bytes at all, so it is the way to say what an accepting run has found in them.

It composes along `bind`, where the numbers of bytes add up, and along a loop, where they add up
to an invariant of the accumulator (`Yields.whileRemaining`).
-/

namespace Wire.Reader

open Outcome

variable {ε α β σ : Type}

/-- If `d` returns a value, then `Q` holds of it and of the number of bytes consumed. -/
def Yields (d : Reader ε α) (Q : α → Nat → Prop) : Prop :=
  ∀ s a s', d s = ok (a, s') → ∃ n, s.length = n + s'.length ∧ Q a n

theorem Yields.mono {d : Reader ε α} {P Q : α → Nat → Prop} (h : Yields d P)
    (le : ∀ a n, P a n → Q a n) : Yields d Q := by
  intro s a s' run
  rcases h s a s' run with ⟨n, len, holds⟩
  exact ⟨n, len, le a n holds⟩

theorem Yields.pure {a : α} {Q : α → Nat → Prop} (h : Q a 0) :
    Yields (Pure.pure a : Reader ε α) Q := by
  intro s b s' run
  cases run
  exact ⟨0, (Nat.zero_add _).symm, h⟩

theorem Yields.fail {e : ε} {Q : α → Nat → Prop} : Yields (fail e : Reader ε α) Q := by
  intro s a s' run
  cases run

theorem Yields.bind {d : Reader ε α} {f : α → Reader ε β} {P : α → Nat → Prop}
    {Q : β → Nat → Prop} (hd : Yields d P)
    (hf : ∀ a n, P a n → Yields (f a) fun b m => Q b (n + m)) : Yields (d >>= f) Q := by
  intro s b s' run
  rw [bind_apply] at run
  rcases bind_eq_ok.mp run with ⟨⟨a, mid⟩, first, second⟩
  rcases hd s a mid first with ⟨n, len, holds⟩
  rcases hf a n holds mid b s' second with ⟨m, len', holds'⟩
  exact ⟨n + m, by omega, holds'⟩

/-- Sequencing after a reader that consumes nothing. -/
theorem Yields.zero_bind {d : Reader ε α} {f : α → Reader ε β} {P : α → Prop} {Q : β → Nat → Prop}
    (hd : Yields d fun a n => P a ∧ n = 0) (hf : ∀ a, P a → Yields (f a) Q) :
    Yields (d >>= f) Q := by
  apply hd.bind
  rintro a n ⟨holds, rfl⟩
  simpa only [Nat.zero_add] using hf a holds

theorem Yields.map {d : Reader ε α} {f : α → β} {Q : β → Nat → Prop}
    (h : Yields d fun a n => Q (f a) n) : Yields (f <$> d) Q := by
  change Yields (d >>= fun a => Pure.pure (f a)) Q
  exact h.bind fun a n holds => Yields.pure holds

/-! ## Primitives -/

theorem Yields.ensure (c : Bool) (e : ε) :
    Yields (ensure c e : Reader ε Unit) fun _ n => c = true ∧ n = 0 := by
  cases c with
  | true => exact Yields.pure ⟨rfl, rfl⟩
  | false => exact Yields.fail

theorem Yields.ensureRemaining (k : Nat) (e : ε) :
    Yields (ensureRemaining k e : Reader ε Unit) fun _ n => True ∧ n = 0 := by
  intro s a s' run
  unfold Reader.ensureRemaining at run
  split at run
  · cases run
    exact ⟨0, (Nat.zero_add _).symm, trivial, rfl⟩
  · cases run

theorem Yields.ensureConsumed (e : ε) :
    Yields (ensureConsumed e : Reader ε Unit) fun _ n => True ∧ n = 0 := by
  intro s a s' run
  unfold Reader.ensureConsumed at run
  split at run
  · cases run
    exact ⟨0, (Nat.zero_add _).symm, trivial, rfl⟩
  · cases run

theorem Yields.hasRemaining :
    Yields (hasRemaining : Reader ε Bool) fun _ n => True ∧ n = 0 := by
  intro s a s' run
  cases run
  exact ⟨0, (Nat.zero_add _).symm, trivial, rfl⟩

theorem Yields.ifRemaining {d₁ d₂ : Reader ε α} {Q : α → Nat → Prop} (h₁ : Yields d₁ Q)
    (h₂ : Yields d₂ Q) : Yields (ifRemaining d₁ d₂) Q := by
  intro s a s' run
  unfold Reader.ifRemaining at run
  split at run
  · exact h₂ s a s' run
  · exact h₁ s a s' run

/-- An optional part of the buffer. -/
theorem Yields.readIf {d : Reader ε α} {Q : α → Nat → Prop} (c : Bool) (h : Yields d Q) :
    Yields (readIf c d) fun v n => ∀ a ∈ v, Q a n := by
  cases c with
  | true =>
      apply Yields.map
      apply h.mono
      rintro a n holds _ ⟨⟩
      exact holds
  | false => exact Yields.pure fun a ha => (Option.not_mem_none a ha).elim

theorem Yields.okOr (o : Option α) (e : ε) :
    Yields (okOr o e : Reader ε α) fun a n => o = some a ∧ n = 0 := by
  cases o with
  | some a => exact Yields.pure ⟨rfl, rfl⟩
  | none => exact Yields.fail

theorem Yields.fromOutcome (o : Outcome ε α) :
    Yields (fromOutcome o) fun a n => o = ok a ∧ n = 0 := by
  cases o with
  | ok a => exact Yields.pure ⟨rfl, rfl⟩
  | err e => intro s a s' run; cases run
  | fault x => intro s a s' run; cases run

theorem Yields.getU8 : Yields (getU8 : Reader ε UInt8) fun _ n => n = 1 := by
  intro s a s' run
  match s, run with
  | b :: s, run =>
      cases run
      exact ⟨1, Nat.add_comm _ _, rfl⟩

theorem Yields.getU16 : Yields (getU16 : Reader ε UInt16) fun _ n => n = 2 := by
  intro s a s' run
  match s, run with
  | b₁ :: b₀ :: s, run =>
      cases run
      exact ⟨2, by simp only [List.length_cons]; omega, rfl⟩

theorem Yields.getU32 : Yields (getU32 : Reader ε UInt32) fun _ n => n = 4 := by
  intro s a s' run
  match s, run with
  | b₃ :: b₂ :: b₁ :: b₀ :: s, run =>
      cases run
      exact ⟨4, by simp only [List.length_cons]; omega, rfl⟩

theorem Yields.splitTo (k : Nat) :
    Yields (splitTo k : Reader ε Bytes) fun bs n => bs.length = k ∧ n = k := by
  intro s bs s' run
  unfold Reader.splitTo at run
  split at run
  · cases run
    exact ⟨k, by rw [List.length_drop]; omega, by rw [List.length_take]; omega, rfl⟩
  · cases run

theorem Yields.peek (k : Nat) : Yields (peek k : Reader ε Bytes) fun _ n => True ∧ n = 0 := by
  intro s bs s' run
  unfold Reader.peek at run
  split at run
  · cases run
    exact ⟨0, (Nat.zero_add _).symm, trivial, rfl⟩
  · cases run

theorem Yields.advance (k : Nat) : Yields (advance k : Reader ε Unit) fun _ n => n = k := by
  intro s a s' run
  unfold Reader.advance at run
  split at run
  · cases run
    exact ⟨k, by rw [List.length_drop]; omega, rfl⟩
  · cases run

theorem Yields.takeRest : Yields (takeRest : Reader ε Bytes) fun bs n => bs.length = n := by
  intro s bs s' run
  cases run
  exact ⟨s.length, rfl, rfl⟩

/-- A buffer of its own is read for nothing, and at most its length is used up. -/
theorem Yields.within {bs : Bytes} {d : Reader ε α} {Q : α → Nat → Prop} (h : Yields d Q) :
    Yields (within bs d) fun a n => (∃ k, k ≤ bs.length ∧ Q a k) ∧ n = 0 := by
  intro s a s' run
  unfold Reader.within at run
  rcases hd : d bs with ⟨b, left⟩ | e | x
  · rw [hd] at run
    cases run
    rcases h bs a left hd with ⟨k, len, holds⟩
    exact ⟨0, (Nat.zero_add _).symm, ⟨k, by omega, holds⟩, rfl⟩
  · rw [hd] at run
    cases run
  · rw [hd] at run
    cases run

/-! ## Loops -/

/-- An invariant of the accumulator and the bytes consumed so far holds at the end of a loop. -/
theorem Yields.whileRemaining {step : σ → Reader ε σ} {I : σ → Nat → Prop}
    (h : ∀ acc k, I acc k → Yields (step acc) fun acc' n => I acc' (k + n)) {acc : σ}
    (start : I acc 0) : Yields (whileRemaining step acc) I := by
  -- over the fuel, with the bytes that were consumed before
  have loop : ∀ fuel acc k s acc' s', I acc k → loopWith step fuel acc s = ok (acc', s') →
      ∃ n, s.length = n + s'.length ∧ I acc' (k + n) := by
    intro fuel
    induction fuel with
    | zero =>
        intro acc k s acc' s' inv run
        cases s with
        | nil =>
            cases run
            exact ⟨0, rfl, inv⟩
        | cons b s => cases run
    | succ fuel ih =>
        intro acc k s acc' s' inv run
        cases s with
        | nil =>
            cases run
            exact ⟨0, rfl, inv⟩
        | cons b s =>
            rw [loopWith] at run
            rcases first : step acc (b :: s) with ⟨mid, left⟩ | e | x
            · rw [first] at run
              dsimp only at run
              split at run
              · rcases h acc k inv _ _ _ first with ⟨n, len, inv'⟩
                rcases ih mid (k + n) left acc' s' inv' run with ⟨m, len', inv''⟩
                exact ⟨n + m, by omega, by rwa [← Nat.add_assoc]⟩
              · cases run
            · rw [first] at run
              cases run
            · rw [first] at run
              cases run
  intro s acc' s' run
  rcases loop s.length acc 0 s acc' s' start run with ⟨n, len, inv⟩
  exact ⟨n, len, by rwa [Nat.zero_add] at inv⟩

/-- Elements that are read one after the other, each with a size that it was worth. -/
theorem Yields.elements {d : Reader ε α} {P : α → Prop} {image : α → Bytes}
    (h : Yields d fun a n => P a ∧ (image a).length ≤ n) :
    Yields (Reader.whileRemaining (fun acc => d >>= fun a => Pure.pure (acc ++ [a])) [])
      fun as n => (∀ a ∈ as, P a) ∧ (as.flatMap image).length ≤ n := by
  apply Yields.whileRemaining
  · rintro as k ⟨each, size⟩
    apply h.bind
    rintro a n ⟨holds, worth⟩
    refine Yields.pure ⟨fun b hb => ?_, ?_⟩
    · rcases List.mem_append.mp hb with old | new
      · exact each b old
      · rwa [List.mem_singleton.mp new]
    · rw [List.flatMap_append, List.length_append, List.flatMap_singleton]
      omega
  · exact ⟨fun a ha => (List.not_mem_nil ha).elim, Nat.le_refl 0⟩

theorem length_of_forEach {f : α → Outcome ε β} {as : List α} {bs : List β}
    (h : forEach f as = ok bs) : bs.length = as.length := by
  induction as generalizing bs with
  | nil =>
      cases h
      rfl
  | cons a as ih =>
      rcases bind_eq_ok.mp h with ⟨b, -, h⟩
      rcases bind_eq_ok.mp h with ⟨bs', rest, h⟩
      cases h
      rw [List.length_cons, List.length_cons, ih rest]

end Wire.Reader

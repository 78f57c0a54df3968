import Mathlib.Algebra.Ring.Nat
import Mathlib.Data.List.Basic

/-!
# Reading a byte buffer

A reader consumes a byte buffer from the front.  Its result is an `Outcome`: a
value, an error that the reader reports, or a `Fault`.  A fault is what checked
code never reaches: a read past the end of the buffer, a loop iteration that
consumes nothing, an arithmetic underflow, a failed assertion.

* `Safe n d m k`: started on at least `n` bytes, `d` does not fault, and on
  success it leaves at least `m` bytes and has consumed at least `k`.
* `Decodes d bs a`: on `bs` followed by anything, `d` returns `a` and leaves what
  follows.
* `DecodesAll d bs a`: on exactly `bs`, `d` returns `a` and leaves nothing.
* `Feeds step acc bs acc'`: the loop over `step` gets from `acc` to `acc'` by
  consuming `bs`.

All of them compose along `bind`, so a decoder is verified statement by statement.
-/

namespace Wire

/-- A byte buffer. -/
abbrev Bytes : Type := List UInt8

/-- Why a run stopped outside of its error type. -/
inductive Fault : Type
  | shortRead
  | stalledLoop
  | overflow
  | assertion
  deriving DecidableEq, Repr

/-- A value, a reported error, or a fault. -/
inductive Outcome (ε α : Type) : Type
  | ok (a : α)
  | err (e : ε)
  | fault (f : Fault)
  deriving DecidableEq, Repr

namespace Outcome

variable {ε α β : Type}

def bind (x : Outcome ε α) (f : α → Outcome ε β) : Outcome ε β :=
  match x with
  | ok a => f a
  | err e => err e
  | fault f => fault f

instance : Monad (Outcome ε) where
  pure := ok
  bind := bind

@[simp] theorem ok_bind (a : α) (f : α → Outcome ε β) : (ok a >>= f) = f a := rfl
@[simp] theorem err_bind (e : ε) (f : α → Outcome ε β) : (err e >>= f) = err e := rfl
@[simp] theorem fault_bind (x : Fault) (f : α → Outcome ε β) : (fault x >>= f) = fault x := rfl

/-- A bind that returns comes from a return of its first part. -/
theorem bind_eq_ok {x : Outcome ε α} {f : α → Outcome ε β} {b : β} :
    (x >>= f) = ok b ↔ ∃ a, x = ok a ∧ f a = ok b := by
  cases x with
  | ok a => simp
  | err e => simp
  | fault f => simp

end Outcome

open Outcome

/-- A reader of a byte buffer. -/
def Reader (ε α : Type) : Type := Bytes → Outcome ε (α × Bytes)

namespace Reader

variable {ε α β σ : Type}

def bind (d : Reader ε α) (f : α → Reader ε β) : Reader ε β := fun s =>
  match d s with
  | ok (a, s') => f a s'
  | err e => err e
  | fault f => fault f

instance : Monad (Reader ε) where
  pure a := fun s => ok (a, s)
  bind := bind

theorem bind_apply (d : Reader ε α) (f : α → Reader ε β) (s : Bytes) :
    (d >>= f) s = d s >>= fun r => f r.1 r.2 := by
  change bind d f s = _
  unfold bind
  cases d s <;> rfl

theorem bind_of_ok {d : Reader ε α} {f : α → Reader ε β} {s s' : Bytes} {a : α}
    (h : d s = ok (a, s')) : (d >>= f) s = f a s' := by
  rw [bind_apply, h]
  rfl

/-! ## Primitives -/

/-- Stop with an error. -/
def fail (e : ε) : Reader ε α := fun _ => err e

/-- Go on only if the condition holds. -/
def ensure (c : Bool) (e : ε) : Reader ε Unit := if c then pure () else fail e

/-- Go on only if at least `n` bytes are left. -/
def ensureRemaining (n : Nat) (e : ε) : Reader ε Unit := fun s =>
  if n ≤ s.length then ok ((), s) else err e

/-- Go on only at the end of the buffer. -/
def ensureConsumed (e : ε) : Reader ε Unit := fun s =>
  if s = [] then ok ((), s) else err e

/-- Whether bytes are left. -/
def hasRemaining : Reader ε Bool := fun s => ok (!s.isEmpty, s)

/-- Branch on whether bytes are left. -/
def ifRemaining (d₁ d₂ : Reader ε α) : Reader ε α := fun s => if s = [] then d₂ s else d₁ s

/-- Read a part of the buffer that is announced by a flag. -/
def readIf (c : Bool) (d : Reader ε α) : Reader ε (Option α) :=
  if c then some <$> d else pure none

/-- Take the value of an option, or stop with an error. -/
def okOr (o : Option α) (e : ε) : Reader ε α :=
  match o with
  | some a => pure a
  | none => fail e

/-- Take the value of an outcome, or stop as it does. -/
def fromOutcome (o : Outcome ε α) : Reader ε α := fun s => o >>= fun a => ok (a, s)

/-- Take one byte. -/
def getU8 : Reader ε UInt8
  | [] => fault .shortRead
  | b :: s => ok (b, s)

/-- Take the next `n` bytes. -/
def splitTo (n : Nat) : Reader ε Bytes := fun s =>
  if n ≤ s.length then ok (s.take n, s.drop n) else fault .shortRead

/-- Look at the next `n` bytes without taking them. -/
def peek (n : Nat) : Reader ε Bytes := fun s =>
  if n ≤ s.length then ok (s.take n, s) else fault .shortRead

/-- Skip the next `n` bytes. -/
def advance (n : Nat) : Reader ε Unit := fun s =>
  if n ≤ s.length then ok ((), s.drop n) else fault .shortRead

/-- Take everything that is left. -/
def takeRest : Reader ε Bytes := fun s => ok (s, [])

/-- Take a big-endian 16-bit word. -/
def getU16 : Reader ε UInt16
  | b₁ :: b₀ :: s => ok (UInt16.ofNat (b₁.toNat * 256 + b₀.toNat), s)
  | _ => fault .shortRead

/-- Take a big-endian 32-bit word. -/
def getU32 : Reader ε UInt32
  | b₃ :: b₂ :: b₁ :: b₀ :: s =>
      ok (UInt32.ofNat
        (b₃.toNat * 16777216 + b₂.toNat * 65536 + b₁.toNat * 256 + b₀.toNat), s)
  | _ => fault .shortRead

/-- Read a buffer of its own, whose rest is thrown away. -/
def within (bs : Bytes) (d : Reader ε α) : Reader ε α := fun s =>
  match d bs with
  | ok (a, _) => ok (a, s)
  | err e => err e
  | fault f => fault f

/-- Repeat `step` until the buffer is empty.  An iteration that consumes nothing
would run forever; it is recorded as a fault.  `fuel` bounds the iterations left. -/
def loopWith (step : σ → Reader ε σ) : Nat → σ → Reader ε σ
  | _, acc, [] => ok (acc, [])
  | 0, _, _ :: _ => fault .stalledLoop
  | fuel + 1, acc, b :: s =>
      match step acc (b :: s) with
      | ok (acc', s') =>
          if s'.length < (b :: s).length then loopWith step fuel acc' s' else fault .stalledLoop
      | err e => err e
      | fault f => fault f

/-- Repeat `step` while bytes remain. -/
def whileRemaining (step : σ → Reader ε σ) (acc : σ) : Reader ε σ := fun s =>
  loopWith step s.length acc s

/-- A reader for each element of a list, which it hands over to `f` in order. -/
def forEach (f : α → Outcome ε β) : List α → Outcome ε (List β)
  | [] => ok []
  | a :: as => do
      let b ← f a
      let bs ← forEach f as
      return b :: bs

/-! ## The loop does not depend on its fuel -/

theorem loopWith_congr {step : σ → Reader ε σ} {fuel fuel' : Nat} {acc : σ} {s : Bytes}
    (enough : s.length ≤ fuel) (enough' : s.length ≤ fuel') :
    loopWith step fuel acc s = loopWith step fuel' acc s := by
  induction fuel generalizing fuel' acc s with
  | zero =>
      have empty : s = [] := List.eq_nil_of_length_eq_zero (by omega)
      subst empty
      cases fuel' <;> rfl
  | succ fuel ih =>
      cases s with
      | nil => cases fuel' <;> rfl
      | cons b s =>
          cases fuel' with
          | zero => simp at enough'
          | succ fuel' =>
              simp only [loopWith]
              rcases step acc (b :: s) with ⟨acc', s'⟩ | e | f
              · dsimp only
                split
                · rename_i shorter
                  simp only [List.length_cons] at enough enough' shorter
                  exact ih (by omega) (by omega)
                · rfl
              · rfl
              · rfl

@[simp] theorem whileRemaining_nil (step : σ → Reader ε σ) (acc : σ) :
    whileRemaining step acc [] = ok (acc, []) := rfl

/-- One iteration that consumes something. -/
theorem whileRemaining_of_ok {step : σ → Reader ε σ} {acc acc' : σ} {s s' : Bytes}
    (h : step acc s = ok (acc', s')) (shorter : s'.length < s.length) :
    whileRemaining step acc s = whileRemaining step acc' s' := by
  cases s with
  | nil => simp at shorter
  | cons b s =>
      unfold whileRemaining
      rw [List.length_cons, loopWith, h]
      dsimp only
      rw [if_pos shorter]
      simp only [List.length_cons] at shorter
      exact loopWith_congr (by omega) (by omega)

/-! ## Safety -/

/-- From at least `n` bytes, `d` does not fault; if it returns, it leaves at
least `m` bytes and has consumed at least `k`. -/
def Safe (n : Nat) (d : Reader ε α) (m k : Nat) : Prop :=
  ∀ s : Bytes, n ≤ s.length →
    match d s with
    | ok (_, s') => m ≤ s'.length ∧ s'.length + k ≤ s.length
    | err _ => True
    | fault _ => False

theorem Safe.mono {d : Reader ε α} {n n' m m' k k' : Nat} (h : Safe n d m k) (hn : n ≤ n')
    (hm : m' ≤ m) (hk : k' ≤ k) : Safe n' d m' k' := by
  intro s hs
  have run := h s (by omega)
  rcases hd : d s with ⟨a, s'⟩ | e | f
  · rw [hd] at run
    exact ⟨by omega, by omega⟩
  · trivial
  · rw [hd] at run
    exact run

theorem Safe.pure (a : α) (n : Nat) : Safe n (Pure.pure a : Reader ε α) n 0 :=
  fun _ hs => ⟨hs, Nat.le_refl _⟩

theorem Safe.fail (e : ε) (n m k : Nat) : Safe n (fail e : Reader ε α) m k := fun _ _ => trivial

theorem Safe.bind {d : Reader ε α} {f : α → Reader ε β} {n m l k k' : Nat} (hd : Safe n d m k)
    (hf : ∀ a, Safe m (f a) l k') : Safe n (d >>= f) l (k + k') := by
  intro s hs
  have first := hd s hs
  rw [bind_apply]
  rcases h : d s with ⟨a, s'⟩ | e | x
  · rw [h] at first
    have second := hf a s' first.1
    rw [ok_bind]
    rcases h' : f a s' with ⟨b, s''⟩ | e | x
    · rw [h'] at second
      exact ⟨second.1, by have := first.2; have := second.2; omega⟩
    · trivial
    · rw [h'] at second
      exact second
  · trivial
  · rw [h] at first
    exact first

/-- The rule for sequencing when only the absence of faults is of interest. -/
theorem Safe.bind_zero {d : Reader ε α} {f : α → Reader ε β} {n m l k : Nat} (hd : Safe n d m k)
    (hf : ∀ a, Safe m (f a) l 0) : Safe n (d >>= f) l k := hd.bind hf

/-- The rule for sequencing when what the first reader consumes is of no interest. -/
theorem Safe.zero_bind {d : Reader ε α} {f : α → Reader ε β} {n m l k k' : Nat}
    (hd : Safe n d m k') (hf : ∀ a, Safe m (f a) l k) : Safe n (d >>= f) l k :=
  (hd.bind hf).mono (Nat.le_refl n) (Nat.le_refl l) (Nat.le_add_left k k')

theorem Safe.map {d : Reader ε α} {f : α → β} {n m k : Nat} (hd : Safe n d m k) :
    Safe n (f <$> d) m k := by
  change Safe n (d >>= fun a => Pure.pure (f a)) m k
  exact hd.bind_zero fun a => Safe.pure _ _

theorem Safe.ensure (c : Bool) (e : ε) (n : Nat) : Safe n (ensure c e : Reader ε Unit) n 0 := by
  cases c with
  | true => exact Safe.pure () n
  | false => exact Safe.fail e n n 0

theorem Safe.ensureRemaining (n : Nat) (e : ε) :
    Safe 0 (ensureRemaining n e : Reader ε Unit) n 0 := by
  intro s _
  unfold Reader.ensureRemaining
  by_cases h : n ≤ s.length
  · rw [if_pos h]
    exact ⟨h, Nat.le_refl _⟩
  · rw [if_neg h]
    trivial

theorem Safe.ensureConsumed (e : ε) (n : Nat) : Safe n (ensureConsumed e : Reader ε Unit) n 0 := by
  intro s hs
  unfold Reader.ensureConsumed
  by_cases h : s = []
  · rw [if_pos h]
    exact ⟨hs, Nat.le_refl _⟩
  · rw [if_neg h]
    trivial

theorem Safe.hasRemaining (n : Nat) : Safe n (hasRemaining : Reader ε Bool) n 0 :=
  fun _ hs => ⟨hs, Nat.le_refl _⟩

theorem Safe.ifRemaining {d₁ d₂ : Reader ε α} {n m k : Nat} (h₁ : Safe (max n 1) d₁ m k)
    (h₂ : Safe n d₂ m k) : Safe n (ifRemaining d₁ d₂) m k := by
  intro s hs
  unfold Reader.ifRemaining
  by_cases h : s = []
  · rw [if_pos h]
    exact h₂ s hs
  · rw [if_neg h]
    have := List.length_pos_of_ne_nil h
    exact h₁ s (by omega)

theorem Safe.readIf {d : Reader ε α} {n k : Nat} (c : Bool) (h : Safe n d n k) :
    Safe n (readIf c d) n 0 := by
  cases c with
  | true => exact (h.mono (Nat.le_refl n) (Nat.le_refl n) (Nat.zero_le k)).map
  | false => exact Safe.pure none n

theorem Safe.okOr (o : Option α) (e : ε) (n : Nat) : Safe n (okOr o e : Reader ε α) n 0 := by
  cases o with
  | some a => exact Safe.pure a n
  | none => exact Safe.fail e n n 0

theorem Safe.fromOutcome {o : Outcome ε α} (h : ∀ x, o ≠ fault x) (n : Nat) :
    Safe n (fromOutcome o) n 0 := by
  intro s hs
  unfold Reader.fromOutcome
  rcases o with a | e | x
  · exact ⟨hs, Nat.le_refl _⟩
  · trivial
  · exact h x rfl

theorem Safe.getU8 (n : Nat) : Safe (n + 1) (getU8 : Reader ε UInt8) n 1 := by
  intro s hs
  cases s with
  | nil => simp at hs
  | cons b s => exact ⟨by simpa using hs, Nat.le_refl _⟩

theorem Safe.getU16 (n : Nat) : Safe (n + 2) (getU16 : Reader ε UInt16) n 2 := by
  intro s hs
  match s, hs with
  | b₁ :: b₀ :: s, hs => exact ⟨by simpa using hs, Nat.le_refl _⟩

theorem Safe.getU32 (n : Nat) : Safe (n + 4) (getU32 : Reader ε UInt32) n 4 := by
  intro s hs
  match s, hs with
  | b₃ :: b₂ :: b₁ :: b₀ :: s, hs => exact ⟨by simpa using hs, Nat.le_refl _⟩

theorem Safe.splitTo (n k : Nat) : Safe (n + k) (splitTo k : Reader ε Bytes) n k := by
  intro s hs
  rw [Reader.splitTo, if_pos (by omega)]
  simp only [List.length_drop]
  omega

theorem Safe.peek (n k : Nat) : Safe (n + k) (peek k : Reader ε Bytes) (n + k) 0 := by
  intro s hs
  rw [Reader.peek, if_pos (by omega)]
  exact ⟨hs, Nat.le_refl _⟩

theorem Safe.advance (n k : Nat) : Safe (n + k) (advance k : Reader ε Unit) n k := by
  intro s hs
  rw [Reader.advance, if_pos (by omega)]
  simp only [List.length_drop]
  omega

theorem Safe.takeRest (n : Nat) : Safe n (takeRest : Reader ε Bytes) 0 0 :=
  fun _ _ => ⟨Nat.zero_le _, Nat.zero_le _⟩

theorem Safe.within {bs : Bytes} {d : Reader ε α} {m k : Nat} (n : Nat) (h : Safe 0 d m k) :
    Safe n (within bs d) n 0 := by
  intro s hs
  have run := h bs (Nat.zero_le _)
  unfold Reader.within
  rcases hd : d bs with ⟨a, s'⟩ | e | f
  · exact ⟨hs, Nat.le_refl _⟩
  · trivial
  · rw [hd] at run
    exact run

/-- A loop is safe when every iteration is, and consumes. -/
theorem Safe.whileRemaining {step : σ → Reader ε σ} {k : Nat}
    (h : ∀ acc, Safe 1 (step acc) 0 (k + 1)) (acc : σ) : Safe 0 (whileRemaining step acc) 0 0 := by
  intro s _
  -- on the length of the buffer, which every iteration shortens
  induction hlen : s.length using Nat.strongRecOn generalizing s acc with
  | ind len ih =>
      cases s with
      | nil => exact ⟨Nat.zero_le _, Nat.zero_le _⟩
      | cons b s =>
          have run := h acc (b :: s) (by simp)
          rcases hs : step acc (b :: s) with ⟨acc', s'⟩ | e | f
          · rw [hs] at run
            have shorter : s'.length < (b :: s).length := by have := run.2; omega
            rw [whileRemaining_of_ok hs shorter]
            have rest := ih s'.length (by omega) acc' s' (Nat.zero_le _) rfl
            rcases hr : Reader.whileRemaining step acc' s' with ⟨a, s''⟩ | e | f
            · rw [hr] at rest
              exact ⟨rest.1, by have := rest.2; omega⟩
            · trivial
            · rw [hr] at rest
              exact rest
          · rw [Reader.whileRemaining, List.length_cons, loopWith, hs]
            trivial
          · rw [hs] at run
            exact run.elim

/-- A safe reader that needs nothing never faults. -/
theorem Safe.ne_fault {d : Reader ε α} {m k : Nat} (h : Safe 0 d m k) (s : Bytes) (f : Fault) :
    d s ≠ fault f := by
  intro hf
  have run := h s (Nat.zero_le _)
  rw [hf] at run
  exact run

/-! ## What a reader decodes -/

/-- On `bs` followed by anything, `d` returns `a` and leaves what follows. -/
def Decodes (d : Reader ε α) (bs : Bytes) (a : α) : Prop := ∀ rest, d (bs ++ rest) = ok (a, rest)

theorem Decodes.pure (a : α) : Decodes (Pure.pure a : Reader ε α) [] a := fun _ => rfl

theorem Decodes.bind {d : Reader ε α} {f : α → Reader ε β} {bs bs' : Bytes} {a : α} {b : β}
    (hd : Decodes d bs a) (hf : Decodes (f a) bs' b) : Decodes (d >>= f) (bs ++ bs') b := by
  intro rest
  rw [List.append_assoc, bind_of_ok (hd _), hf]

/-- Sequencing after a reader that consumes nothing. -/
theorem Decodes.bind_nil {d : Reader ε α} {f : α → Reader ε β} {bs : Bytes} {a : α} {b : β}
    (hd : Decodes d [] a) (hf : Decodes (f a) bs b) : Decodes (d >>= f) bs b := hd.bind hf

/-- Sequencing before a reader that consumes nothing. -/
theorem Decodes.bind_last {d : Reader ε α} {f : α → Reader ε β} {bs : Bytes} {a : α} {b : β}
    (hd : Decodes d bs a) (hf : Decodes (f a) [] b) : Decodes (d >>= f) bs b := by
  have run := hd.bind hf
  rwa [List.append_nil] at run

theorem Decodes.map {d : Reader ε α} {f : α → β} {bs : Bytes} {a : α} (hd : Decodes d bs a) :
    Decodes (f <$> d) bs (f a) := by
  intro rest
  change (d >>= fun a => Pure.pure (f a)) (bs ++ rest) = _
  rw [bind_of_ok (hd rest)]
  rfl

theorem Decodes.ensure {c : Bool} {e : ε} (h : c = true) :
    Decodes (ensure c e : Reader ε Unit) [] () := by
  rw [h]
  exact Decodes.pure ()

theorem Decodes.getU8 (b : UInt8) : Decodes (getU8 : Reader ε UInt8) [b] b := fun _ => rfl

theorem Decodes.splitTo {bs : Bytes} {n : Nat} (h : bs.length = n) :
    Decodes (splitTo n : Reader ε Bytes) bs bs := by
  intro rest
  subst h
  rw [Reader.splitTo, if_pos (by simp)]
  simp

theorem Decodes.advance {bs : Bytes} {n : Nat} (h : bs.length = n) :
    Decodes (advance n : Reader ε Unit) bs () := by
  intro rest
  subst h
  rw [Reader.advance, if_pos (by simp)]
  simp

theorem Decodes.okOr {o : Option α} {a : α} {e : ε} (h : o = some a) :
    Decodes (okOr o e : Reader ε α) [] a := by
  rw [h]
  exact Decodes.pure a

/-- An optional part of the buffer under the flag that announces it. -/
theorem Decodes.readIf {d : Reader ε α} {image : α → Bytes} {c : Bool} {v : Option α}
    (flag : c = v.isSome) (h : ∀ a ∈ v, Decodes d (image a) a) :
    Decodes (readIf c d) ((v.map image).getD []) v := by
  subst flag
  cases v with
  | none => exact Decodes.pure none
  | some a => exact (h a rfl).map

theorem Decodes.fromOutcome {o : Outcome ε α} {a : α} (h : o = ok a) :
    Decodes (fromOutcome o) [] a := by
  rw [h]
  exact Decodes.pure a

/-- A check of the remaining length before a reader that consumes that much. -/
theorem Decodes.ensureRemaining {d : Reader ε α} {bs : Bytes} {a : α} {n : Nat} {e : ε}
    (enough : n ≤ bs.length) (h : Decodes d bs a) :
    Decodes (ensureRemaining n e >>= fun _ => d) bs a := by
  intro rest
  have check : Reader.ensureRemaining n e (bs ++ rest) = ok ((), bs ++ rest) := by
    rw [Reader.ensureRemaining, if_pos (by rw [List.length_append]; omega)]
  rw [bind_of_ok check, h]

theorem Decodes.within {bs : Bytes} {d : Reader ε α} {a : α} {s : Bytes} (h : d bs = ok (a, s)) :
    Decodes (within bs d) [] a := by
  intro rest
  rw [Reader.within, h]
  rfl

/-! ## Decoding a whole buffer -/

/-- On exactly `bs`, `d` returns `a` and leaves nothing. -/
def DecodesAll (d : Reader ε α) (bs : Bytes) (a : α) : Prop := d bs = ok (a, [])

theorem Decodes.all {d : Reader ε α} {bs : Bytes} {a : α} (h : Decodes d bs a) :
    DecodesAll d bs a := by
  have run := h []
  rwa [List.append_nil] at run

theorem DecodesAll.pure (a : α) : DecodesAll (Pure.pure a : Reader ε α) [] a := rfl

theorem DecodesAll.bind {d : Reader ε α} {f : α → Reader ε β} {bs bs' : Bytes} {a : α} {b : β}
    (hd : Decodes d bs a) (hf : DecodesAll (f a) bs' b) : DecodesAll (d >>= f) (bs ++ bs') b :=
  (bind_of_ok (hd bs')).trans hf

theorem DecodesAll.bind_nil {d : Reader ε α} {f : α → Reader ε β} {bs : Bytes} {a : α} {b : β}
    (hd : Decodes d [] a) (hf : DecodesAll (f a) bs b) : DecodesAll (d >>= f) bs b :=
  DecodesAll.bind hd hf

theorem DecodesAll.getU8 {f : UInt8 → Reader ε α} {b : UInt8} {bs : Bytes} {a : α}
    (h : DecodesAll (f b) bs a) : DecodesAll (getU8 >>= f) (b :: bs) a := h

/-- Go on after a reader that took the rest of the buffer. -/
theorem DecodesAll.bind_all {d : Reader ε α} {f : α → Reader ε β} {bs : Bytes} {a : α} {b : β}
    (hd : DecodesAll d bs a) (hf : DecodesAll (f a) [] b) : DecodesAll (d >>= f) bs b :=
  (bind_of_ok hd).trans hf

theorem DecodesAll.map {d : Reader ε α} {f : α → β} {bs : Bytes} {a : α} (h : DecodesAll d bs a) :
    DecodesAll (f <$> d) bs (f a) := DecodesAll.bind_all h (DecodesAll.pure (f a))

theorem DecodesAll.ensureRemaining {f : Unit → Reader ε α} {bs : Bytes} {a : α} {n : Nat} {e : ε}
    (enough : n ≤ bs.length) (h : DecodesAll (f ()) bs a) :
    DecodesAll (ensureRemaining n e >>= f) bs a := by
  have check : Reader.ensureRemaining n e bs = ok ((), bs) := by
    rw [Reader.ensureRemaining, if_pos enough]
  exact (bind_of_ok check).trans h

theorem DecodesAll.ensureConsumed {f : Unit → Reader ε α} {a : α} {e : ε}
    (h : DecodesAll (f ()) [] a) : DecodesAll (ensureConsumed e >>= f) [] a := h

theorem DecodesAll.hasRemaining {f : Bool → Reader ε α} {bs : Bytes} {a : α} (nonempty : bs ≠ [])
    (h : DecodesAll (f true) bs a) : DecodesAll (hasRemaining >>= f) bs a := by
  have check : Reader.hasRemaining bs = (ok (true, bs) : Outcome ε (Bool × Bytes)) := by
    cases bs with
    | nil => exact (nonempty rfl).elim
    | cons b bs => rfl
  exact (bind_of_ok check).trans h

theorem DecodesAll.ifRemaining {d₁ d₂ : Reader ε α} {bs : Bytes} {a : α} (nonempty : bs ≠ [])
    (h : DecodesAll d₁ bs a) : DecodesAll (ifRemaining d₁ d₂) bs a := by
  unfold DecodesAll Reader.ifRemaining
  rw [if_neg nonempty]
  exact h

theorem DecodesAll.takeRest (bs : Bytes) : DecodesAll (takeRest : Reader ε Bytes) bs bs := rfl

/-! ## What a loop consumes -/

/-- The loop over `step` gets from `acc` to `acc'` by consuming `bs`. -/
def Feeds (step : σ → Reader ε σ) (acc : σ) (bs : Bytes) (acc' : σ) : Prop :=
  ∀ rest, whileRemaining step acc (bs ++ rest) = whileRemaining step acc' rest

theorem Feeds.refl (step : σ → Reader ε σ) (acc : σ) : Feeds step acc [] acc := fun _ => rfl

theorem Feeds.trans {step : σ → Reader ε σ} {acc acc' acc'' : σ} {bs bs' : Bytes}
    (h : Feeds step acc bs acc') (h' : Feeds step acc' bs' acc'') :
    Feeds step acc (bs ++ bs') acc'' := by
  intro rest
  rw [List.append_assoc, h, h']

theorem Feeds.of_decodes {step : σ → Reader ε σ} {acc acc' : σ} {bs : Bytes}
    (h : Decodes (step acc) bs acc') (nonempty : bs ≠ []) : Feeds step acc bs acc' := by
  intro rest
  refine whileRemaining_of_ok (h rest) ?_
  have := List.length_pos_of_ne_nil nonempty
  rw [List.length_append]
  omega

/-- Elements that one iteration each adds to a list in the accumulator. -/
theorem Feeds.append {step : σ → Reader ε σ} {image : α → Bytes} {push : List α → σ} (as : List α)
    (h : ∀ a ∈ as, ∀ pre, Feeds step (push pre) (image a) (push (pre ++ [a]))) (pre : List α) :
    Feeds step (push pre) (as.flatMap image) (push (pre ++ as)) := by
  induction as generalizing pre with
  | nil =>
      rw [List.append_nil]
      exact Feeds.refl step (push pre)
  | cons a as ih =>
      have rest := ih (fun a' ha' => h a' (List.mem_cons_of_mem _ ha')) (pre ++ [a])
      rw [List.append_assoc] at rest
      exact (h a List.mem_cons_self pre).trans rest

/-- A loop that is fed the whole buffer returns the final accumulator. -/
theorem Feeds.decodesAll {step : σ → Reader ε σ} {acc acc' : σ} {bs : Bytes}
    (h : Feeds step acc bs acc') : DecodesAll (whileRemaining step acc) bs acc' := by
  have run := h []
  rwa [List.append_nil, whileRemaining_nil] at run

theorem forEach_map {f : β → Outcome ε α} {g : α → β} (as : List α) (h : ∀ a ∈ as, f (g a) = ok a) :
    forEach f (as.map g) = ok as := by
  induction as with
  | nil => rfl
  | cons a as ih =>
      rw [List.map_cons, forEach, h a List.mem_cons_self, ok_bind,
        ih fun a' ha' => h a' (List.mem_cons_of_mem _ ha'), ok_bind]
      rfl

theorem forEach_ne_fault {f : α → Outcome ε β} (h : ∀ a x, f a ≠ fault x) (as : List α)
    (x : Fault) :
    forEach f as ≠ fault x := by
  induction as with
  | nil => simp [forEach]
  | cons a as ih =>
      rw [forEach]
      rcases ha : f a with b | e | y
      · rw [ok_bind]
        rcases has : forEach f as with bs | e | y
        · simp [Pure.pure]
        · simp
        · rw [has] at ih
          simpa using ih
      · simp
      · exact (h a y ha).elim

end Reader

end Wire

import OxiMqtt.Lib.Writer
import Mathlib.Algebra.Ring.Nat

/-!
# Arithmetic on unsigned words

`Checked w` is the value of an expression over unsigned words of `w` bits, as a build that checks
for overflow computes it: an operation that leaves the range leaves no value.

An expression of sums has the value of the exact sum if that is in range, and no value otherwise
(`word_add`, `foldl_word`): the partial sums are never larger than the whole one.  For other
expressions `Evaluates x P n` says that `x` has the value `n` if `P`, and no value otherwise.
-/

namespace Wire

/-- The value of an expression over unsigned words of `w` bits, if it has one. -/
inductive Checked (w : Nat) : Type
  | value (n : Nat)
  | overflow
  deriving DecidableEq, Repr

namespace Checked

variable {v w : Nat}

/-- A number as a word, if it is in range. -/
def word (n : Nat) : Checked w := if n < 2 ^ w then value n else overflow

/-- An expression that uses the value of another one. -/
def bind (x : Checked v) (f : Nat → Checked w) : Checked w :=
  match x with
  | value n => f n
  | overflow => overflow

instance : Add (Checked w) where
  add x y := x.bind fun a => y.bind fun b => word (a + b)

instance : Sub (Checked w) where
  sub x y := x.bind fun a => y.bind fun b => if b ≤ a then word (a - b) else overflow

instance (n : Nat) : OfNat (Checked w) n where
  ofNat := word n

theorem word_of_lt {n : Nat} (h : n < 2 ^ w) : (word n : Checked w) = value n := if_pos h

theorem word_of_le {n : Nat} (h : 2 ^ w ≤ n) : (word n : Checked w) = overflow :=
  if_neg (Nat.not_lt.mpr h)

theorem value_bind (n : Nat) (f : Nat → Checked w) : (value n : Checked v).bind f = f n := rfl

theorem word_bind {n : Nat} (h : n < 2 ^ w) (f : Nat → Checked v) :
    (word n : Checked w).bind f = f n := by
  rw [word_of_lt h]
  rfl

theorem word_bind_of_le {n : Nat} (h : 2 ^ w ≤ n) (f : Nat → Checked v) :
    (word n : Checked w).bind f = overflow := by
  rw [word_of_le h]
  rfl

/-- A literal. -/
theorem ofNat_eq (n : Nat) : (OfNat.ofNat n : Checked w) = word (OfNat.ofNat n) := rfl

theorem word_add (a b : Nat) : (word a + word b : Checked w) = word (a + b) := by
  change ((word a : Checked w).bind fun a => (word b : Checked w).bind fun b => word (a + b)) = _
  rcases Nat.lt_or_ge a (2 ^ w) with ha | ha
  · rcases Nat.lt_or_ge b (2 ^ w) with hb | hb
    · rw [word_bind ha, word_bind hb]
    · rw [word_bind ha, word_bind_of_le hb, word_of_le (by omega)]
  · rw [word_bind_of_le ha, word_of_le (by omega)]

theorem word_sub {a b : Nat} (ha : a < 2 ^ w) (hb : b ≤ a) :
    (word a - word b : Checked w) = word (a - b) := by
  change ((word a : Checked w).bind fun a => (word b : Checked w).bind fun b =>
    if b ≤ a then word (a - b) else overflow) = _
  rw [word_bind ha, word_bind (Nat.lt_of_le_of_lt hb ha), if_pos hb]

theorem word_sub_of_lt {a b : Nat} (h : a < b) : (word a - word b : Checked w) = overflow := by
  change ((word a : Checked w).bind fun a => (word b : Checked w).bind fun b =>
    if b ≤ a then word (a - b) else overflow) = _
  rcases Nat.lt_or_ge b (2 ^ w) with hb | hb
  · rw [word_bind (Nat.lt_trans h hb), word_bind hb, if_neg (by omega)]
  · rcases Nat.lt_or_ge a (2 ^ w) with ha | ha
    · rw [word_bind ha, word_bind_of_le hb]
    · rw [word_bind_of_le ha]

/-- A part of a sum is used before the sum is taken. -/
theorem word_bind_word {n : Nat} {f : Nat → Nat} (le : n ≤ f n) :
    ((word n : Checked w).bind fun n => word (f n) : Checked w) = word (f n) := by
  rcases Nat.lt_or_ge n (2 ^ w) with h | h
  · rw [word_bind h]
  · rw [word_bind_of_le h, word_of_le (Nat.le_trans h le)]

/-- A sum over a list, from the left. -/
theorem foldl_word {α : Type} {add : Checked w → α → Checked w} {size : α → Nat}
    (h : ∀ n a, add (word n) a = word (n + size a)) (as : List α) (n : Nat) :
    as.foldl add (word n) = word (as.foldl (fun acc a => acc + size a) n) := by
  induction as generalizing n with
  | nil => rfl
  | cons a as ih => rw [List.foldl_cons, List.foldl_cons, h, ih]

/-! ## When an expression has a value -/

/-- `x` has the value `n` if `P`, and no value otherwise. -/
def Evaluates (x : Checked w) (P : Prop) (n : Nat) : Prop :=
  (P → x = value n) ∧ (¬P → x = overflow)

theorem evaluates_word (n : Nat) : Evaluates (word n : Checked w) (n < 2 ^ w) n :=
  ⟨word_of_lt, fun h => word_of_le (Nat.le_of_not_lt h)⟩

theorem evaluates_of_lt {n : Nat} (h : n < 2 ^ w) : Evaluates (word n : Checked w) True n :=
  ⟨fun _ => word_of_lt h, fun f => (f trivial).elim⟩

theorem evaluates_sub {a b : Nat} (ha : a < 2 ^ w) :
    Evaluates (word a - word b : Checked w) (b ≤ a) (a - b) := by
  refine ⟨fun h => ?_, fun h => word_sub_of_lt (Nat.lt_of_not_le h)⟩
  rw [word_sub ha h, word_of_lt (by omega)]

theorem Evaluates.congr {x : Checked w} {P Q : Prop} {n : Nat} (h : Evaluates x P n) (e : P ↔ Q) :
    Evaluates x Q n := ⟨fun q => h.1 (e.mpr q), fun q => h.2 fun p => q (e.mp p)⟩

theorem Evaluates.bind {x : Checked v} {f : Nat → Checked w} {P Q : Prop} {n m : Nat}
    (h : Evaluates x P n) (h' : P → Evaluates (f n) Q m) : Evaluates (x.bind f) (P ∧ Q) m := by
  constructor
  · rintro ⟨p, q⟩
    rw [h.1 p]
    exact (h' p).1 q
  · intro not
    by_cases p : P
    · rw [h.1 p]
      exact (h' p).2 fun q => not ⟨p, q⟩
    · rw [h.2 p]
      rfl

theorem Evaluates.add {x y : Checked w} {P Q : Prop} {a b : Nat} (hx : Evaluates x P a)
    (hy : Evaluates y Q b) : Evaluates (x + y) (P ∧ Q ∧ a + b < 2 ^ w) (a + b) :=
  hx.bind fun _ => hy.bind fun _ => evaluates_word (a + b)

theorem Evaluates.sub_word {x : Checked w} {P : Prop} {a : Nat} (h : Evaluates x P a)
    (ha : a < 2 ^ w) (b : Nat) : Evaluates (x - word b) (P ∧ b ≤ a) (a - b) := by
  refine Evaluates.bind h fun _ => ?_
  have sub := evaluates_sub (b := b) ha
  rw [word_of_lt ha] at sub
  exact sub

end Checked

open Outcome

/-! ## Words in a computation -/

namespace Outcome

variable {ε α : Type} {w : Nat}

/-- The value of an expression; without one it is an overflow. -/
def fromChecked (x : Checked w) : Outcome ε Nat :=
  match x with
  | .value n => ok n
  | .overflow => fault .overflow

end Outcome

namespace ByteWriter

variable {ε α : Type} {w : Nat}

/-- The value of an expression; without one it is an overflow. -/
def fromChecked (x : Checked w) : ByteWriter ε Nat := fromOutcome (Outcome.fromChecked x)

theorem pure_then {β : Type} (a : α) (f : α → ByteWriter ε β) :
    ((pure a : ByteWriter ε α) >>= f) = f a := rfl

theorem fromChecked_word {n : Nat} (h : n < 2 ^ w) :
    (fromChecked (Checked.word n : Checked w) : ByteWriter ε Nat) = pure n := by
  rw [Checked.word_of_lt h]
  rfl

theorem fromChecked_sub {a b : Nat} (ha : a < 2 ^ w) :
    (fromChecked (Checked.word a - Checked.word b : Checked w) : ByteWriter ε Nat) =
      checkedSub a b := by
  unfold checkedSub
  by_cases h : b ≤ a
  · rw [(Checked.evaluates_sub ha).1 h, if_pos h]
    rfl
  · rw [(Checked.evaluates_sub ha).2 h, if_neg h]
    rfl

/-- Write `w`, and go on with the number of bytes it appended, taken as a difference of words. -/
def countedChecked (w : ByteWriter ε Unit) (f : Nat → ByteWriter ε Unit) : ByteWriter ε Unit := do
  let start ← bufLen
  w
  let now ← bufLen
  let written ← checkedSub now start
  f written

/-- Two writers that go on in the same way with the number of bytes that are appended. -/
theorem countedChecked_eq {w : ByteWriter ε Unit} {f g : Nat → ByteWriter ε Unit} {n : Nat}
    (h : Emits w n) (same : f n = g n) : countedChecked w f = counted w g := by
  funext buf
  change ByteWriter.bind w (fun _ => bufLen >>= fun now => checkedSub now buf.length >>= f) buf =
    ByteWriter.bind w (fun _ => bufLen >>= fun now => g (now - buf.length)) buf
  have emitted := h buf
  unfold ByteWriter.bind
  rcases hw : w buf with ⟨a | e | x, mid⟩
  · rw [hw] at emitted
    change mid.length = buf.length + n at emitted
    change (checkedSub mid.length buf.length >>= f) mid = g (mid.length - buf.length) mid
    rw [checkedSub_of_eq emitted, emitted, Nat.add_sub_cancel_left, ← same]
    rfl
  · rfl
  · rfl

end ByteWriter

end Wire

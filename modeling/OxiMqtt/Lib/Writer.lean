import OxiMqtt.Lib.Reader

/-!
# Writing a byte buffer

A writer appends to a byte buffer.  What was written before an error or a fault
stays in the buffer, so the buffer is returned beside the outcome.

`Writes w bs` says that `w` succeeds on every buffer and appends exactly `bs`.
`Emits w n` says less of a writer that may fail: when it succeeds it has appended
`n` bytes, and none of its subtractions goes below zero.
Big-endian words are written as `be16` and `be32`; the readers of `Reader` take
them back (`Reader.Decodes.getU16`, `Reader.Decodes.getU32`).
-/

namespace Wire

open Outcome

/-- A writer of a byte buffer. -/
def ByteWriter (ε α : Type) : Type := Bytes → Outcome ε α × Bytes

namespace ByteWriter

variable {ε α β : Type}

def bind (w : ByteWriter ε α) (f : α → ByteWriter ε β) : ByteWriter ε β := fun buf =>
  match w buf with
  | (ok a, buf') => f a buf'
  | (err e, buf') => (err e, buf')
  | (fault x, buf') => (fault x, buf')

instance : Monad (ByteWriter ε) where
  pure a := fun buf => (ok a, buf)
  bind := bind

theorem bind_of_ok {w : ByteWriter ε α} {f : α → ByteWriter ε β} {buf buf' : Bytes} {a : α}
    (h : w buf = (ok a, buf')) : (w >>= f) buf = f a buf' := by
  change bind w f buf = _
  rw [bind, h]

/-- A bind that returns comes from a return of its first part. -/
theorem bind_eq_ok {w : ByteWriter ε α} {f : α → ByteWriter ε β} {buf buf' : Bytes} {b : β}
    (h : (w >>= f) buf = (ok b, buf')) :
    ∃ a mid, w buf = (ok a, mid) ∧ f a mid = (ok b, buf') := by
  change bind w f buf = _ at h
  unfold bind at h
  rcases hw : w buf with ⟨a | e | x, mid⟩
  · rw [hw] at h
    exact ⟨a, mid, rfl, h⟩
  · rw [hw] at h
    cases h
  · rw [hw] at h
    cases h

/-! ## Primitives -/

/-- Stop with an error. -/
def fail (e : ε) : ByteWriter ε α := fun buf => (err e, buf)

/-- Stop with a fault. -/
def crash (x : Fault) : ByteWriter ε α := fun buf => (fault x, buf)

/-- Append bytes. -/
def putSlice (bs : Bytes) : ByteWriter ε Unit := fun buf => (ok (), buf ++ bs)

/-- Append one byte. -/
def putU8 (b : UInt8) : ByteWriter ε Unit := putSlice [b]

/-- The big-endian image of a 16-bit word. -/
def be16 (n : UInt16) : Bytes := [UInt8.ofNat (n.toNat / 256), UInt8.ofNat (n.toNat % 256)]

/-- The big-endian image of a 32-bit word. -/
def be32 (n : UInt32) : Bytes :=
  [UInt8.ofNat (n.toNat / 16777216), UInt8.ofNat (n.toNat / 65536 % 256),
    UInt8.ofNat (n.toNat / 256 % 256), UInt8.ofNat (n.toNat % 256)]

@[simp] theorem length_be16 (n : UInt16) : (be16 n).length = 2 := rfl

/-- Append a big-endian 16-bit word. -/
def putU16 (n : UInt16) : ByteWriter ε Unit := putSlice (be16 n)

/-- Append a big-endian 32-bit word. -/
def putU32 (n : UInt32) : ByteWriter ε Unit := putSlice (be32 n)

/-- The length of the buffer so far. -/
def bufLen : ByteWriter ε Nat := fun buf => (ok buf.length, buf)

/-- Write `w`, and go on with the number of bytes it appended. -/
def counted (w : ByteWriter ε Unit) (f : Nat → ByteWriter ε Unit) : ByteWriter ε Unit := do
  let start ← bufLen
  w
  let now ← bufLen
  f (now - start)

/-- Subtraction of unsigned words; going below zero is a fault. -/
def checkedSub (a b : Nat) : ByteWriter ε Nat := if b ≤ a then pure (a - b) else crash .overflow

/-- Take the value of an option, or stop with an error. -/
def okOr (o : Option α) (e : ε) : ByteWriter ε α :=
  match o with
  | some a => pure a
  | none => fail e

/-- Take the value of an outcome, or stop as it does. -/
def fromOutcome (o : Outcome ε α) : ByteWriter ε α := fun buf => (o, buf)

/-- Write the value of an option, if there is one. -/
def forSome (o : Option α) (w : α → ByteWriter ε Unit) : ByteWriter ε Unit :=
  match o with
  | some a => w a
  | none => pure ()

/-- Write the elements of a list in order. -/
def forEach (w : α → ByteWriter ε Unit) : List α → ByteWriter ε Unit
  | [] => pure ()
  | a :: as => do
      w a
      forEach w as

/-! ## What a writer appends -/

/-- `w` succeeds on every buffer and appends `bs`. -/
def Writes (w : ByteWriter ε Unit) (bs : Bytes) : Prop := ∀ buf, w buf = (ok (), buf ++ bs)

theorem Writes.pure : Writes (Pure.pure () : ByteWriter ε Unit) [] := by
  intro buf
  rw [List.append_nil]
  rfl

theorem Writes.putSlice (bs : Bytes) : Writes (putSlice bs : ByteWriter ε Unit) bs := fun _ => rfl

theorem Writes.putU8 (b : UInt8) : Writes (putU8 b : ByteWriter ε Unit) [b] := Writes.putSlice [b]

theorem Writes.putU16 (n : UInt16) : Writes (putU16 n : ByteWriter ε Unit) (be16 n) :=
  Writes.putSlice (be16 n)

theorem Writes.putU32 (n : UInt32) : Writes (putU32 n : ByteWriter ε Unit) (be32 n) :=
  Writes.putSlice (be32 n)

theorem Writes.bind {w : ByteWriter ε Unit} {f : Unit → ByteWriter ε Unit} {bs bs' : Bytes}
    (h : Writes w bs) (h' : Writes (f ()) bs') : Writes (w >>= f) (bs ++ bs') := by
  intro buf
  rw [bind_of_ok (h buf), h', List.append_assoc]

/-- Take the value of an option before writing. -/
theorem Writes.bind_okOr {o : Option α} {a : α} {e : ε} {f : α → ByteWriter ε Unit} {bs : Bytes}
    (ho : o = some a) (h : Writes (f a) bs) : Writes (okOr o e >>= f) bs := by
  subst ho
  exact h

/-- A subtraction that stays above zero. -/
theorem checkedSub_of_eq {a b c : Nat} (h : a = b + c) :
    checkedSub a b = (Pure.pure c : ByteWriter ε Nat) := by
  rw [checkedSub, if_pos (by omega), show a - b = c by omega]

theorem Writes.bind_checkedSub {a b c : Nat} {f : Nat → ByteWriter ε Unit} {bs : Bytes}
    (hc : a = b + c) (h : Writes (f c) bs) : Writes (checkedSub a b >>= f) bs := by
  rw [checkedSub_of_eq hc]
  exact h

theorem Writes.counted {w : ByteWriter ε Unit} {f : Nat → ByteWriter ε Unit} {bs bs' : Bytes}
    (h : Writes w bs) (h' : Writes (f bs.length) bs') :
    Writes (counted w f) (bs ++ bs') := by
  intro buf
  change (w >>= fun _ => bufLen >>= fun now => f (now - buf.length)) buf = _
  rw [bind_of_ok (h buf)]
  change f ((buf ++ bs).length - buf.length) (buf ++ bs) = _
  rw [List.length_append, Nat.add_sub_cancel_left, h', List.append_assoc]

theorem Writes.forSome {w : α → ByteWriter ε Unit} {image : α → Bytes} {v : Option α}
    (h : ∀ a ∈ v, Writes (w a) (image a)) : Writes (forSome v w) ((v.map image).getD []) := by
  cases v with
  | none => exact Writes.pure
  | some a => exact h a rfl

theorem Writes.forEach {w : α → ByteWriter ε Unit} {image : α → Bytes} (as : List α)
    (h : ∀ a ∈ as, Writes (w a) (image a)) : Writes (forEach w as) (as.flatMap image) := by
  induction as with
  | nil => exact Writes.pure
  | cons a as ih =>
      exact (h a List.mem_cons_self).bind (ih fun a' ha' => h a' (List.mem_cons_of_mem _ ha'))

/-! ## How much a writer appends -/

/-- What a run from a buffer of `len` bytes has left: `n` bytes more if it has
succeeded, and no overflow if it has faulted. -/
def Emitted (len n : Nat) : Outcome ε Unit × Bytes → Prop
  | (ok _, buf) => buf.length = len + n
  | (err _, _) => True
  | (fault x, _) => x ≠ .overflow

/-- If `w` succeeds, it has appended `n` bytes; if it faults, it is not for an
overflow. -/
def Emits (w : ByteWriter ε Unit) (n : Nat) : Prop := ∀ buf, Emitted buf.length n (w buf)

theorem Writes.emits {w : ByteWriter ε Unit} {bs : Bytes} (h : Writes w bs) :
    Emits w bs.length := by
  intro buf
  rw [h buf]
  exact List.length_append

theorem Emits.pure : Emits (Pure.pure () : ByteWriter ε Unit) 0 := Writes.pure.emits

theorem Emits.fail (e : ε) (n : Nat) : Emits (fail e : ByteWriter ε Unit) n := fun _ => trivial

theorem Emits.crash {x : Fault} (h : x ≠ .overflow) (n : Nat) :
    Emits (crash x : ByteWriter ε Unit) n := fun _ => h

theorem Emits.crash_bind {x : Fault} (h : x ≠ .overflow) (f : Unit → ByteWriter ε Unit) (n : Nat) :
    Emits (ByteWriter.crash x >>= f) n := fun _ => h

theorem Emits.putSlice (bs : Bytes) : Emits (putSlice bs : ByteWriter ε Unit) bs.length :=
  (Writes.putSlice bs).emits

theorem Emits.putU8 (b : UInt8) : Emits (putU8 b : ByteWriter ε Unit) 1 := (Writes.putU8 b).emits

theorem Emits.putU16 (n : UInt16) : Emits (putU16 n : ByteWriter ε Unit) 2 :=
  (Writes.putU16 n).emits

theorem Emits.putU32 (n : UInt32) : Emits (putU32 n : ByteWriter ε Unit) 4 :=
  (Writes.putU32 n).emits

theorem Emits.congr {w : ByteWriter ε Unit} {n m : Nat} (h : Emits w n) (e : n = m) : Emits w m :=
  e ▸ h

theorem Emitted.bind {w : ByteWriter ε Unit} {f : Unit → ByteWriter ε Unit} {buf : Bytes}
    {n m : Nat} (h : Emitted buf.length n (w buf))
    (h' : ∀ mid : Bytes, mid.length = buf.length + n → Emitted mid.length m (f () mid)) :
    Emitted buf.length (n + m) ((w >>= f) buf) := by
  change Emitted _ _ (ByteWriter.bind w f buf)
  unfold ByteWriter.bind
  rcases hw : w buf with ⟨a | e | x, mid⟩
  · rw [hw] at h
    have second := h' mid h
    dsimp only [Emitted] at h ⊢
    rcases hf : f () mid with ⟨b | e | x, buf'⟩
    · rw [hf] at second
      dsimp only [Emitted] at second ⊢
      omega
    · trivial
    · rw [hf] at second
      exact second
  · trivial
  · rw [hw] at h
    exact h

theorem Emits.bind {w : ByteWriter ε Unit} {f : Unit → ByteWriter ε Unit} {n m : Nat}
    (h : Emits w n) (h' : Emits (f ()) m) : Emits (w >>= f) (n + m) :=
  fun buf => (h buf).bind fun mid _ => h' mid

/-- A value that the writer does without, or fails. -/
theorem Emits.bind_okOr {o : Option α} {e : ε} {f : α → ByteWriter ε Unit} {n : Nat}
    (h : ∀ a, o = some a → Emits (f a) n) : Emits (okOr o e >>= f) n := by
  cases o with
  | some a => exact h a rfl
  | none => exact Emits.fail e n

/-- A subtraction that stays above zero. -/
theorem Emits.bind_checkedSub {a b c : Nat} {f : Nat → ByteWriter ε Unit} {n : Nat}
    (hc : a = b + c) (h : Emits (f c) n) : Emits (checkedSub a b >>= f) n := by
  rw [checkedSub_of_eq hc]
  exact h

theorem Emits.counted {w : ByteWriter ε Unit} {f : Nat → ByteWriter ε Unit} {n m : Nat}
    (h : Emits w n) (h' : Emits (f n) m) : Emits (counted w f) (n + m) := by
  intro buf
  change Emitted _ _ ((w >>= fun _ => bufLen >>= fun now => f (now - buf.length)) buf)
  refine (h buf).bind fun mid len => ?_
  change Emitted _ _ (f (mid.length - buf.length) mid)
  rw [len, Nat.add_sub_cancel_left, ← len]
  exact h' mid

theorem Emits.forSome {w : α → ByteWriter ε Unit} {size : α → Nat} {v : Option α}
    (h : ∀ a ∈ v, Emits (w a) (size a)) : Emits (forSome v w) ((v.map size).getD 0) := by
  cases v with
  | none => exact Emits.pure
  | some a => exact h a rfl

/-- The elements of a list, whose sizes are added up from the left. -/
theorem Emits.forEach {w : α → ByteWriter ε Unit} {size : α → Nat} (as : List α)
    (h : ∀ a, Emits (w a) (size a)) :
    Emits (forEach w as) (as.foldl (fun len a => len + size a) 0) := by
  have total : ∀ (as : List α) (start : Nat), as.foldl (fun len a => len + size a) start =
      start + as.foldl (fun len a => len + size a) 0 := by
    intro as
    induction as with
    | nil => exact fun start => rfl
    | cons a as ih =>
        intro start
        rw [List.foldl_cons, List.foldl_cons, ih, ih (0 + size a)]
        omega
  induction as with
  | nil => exact Emits.pure
  | cons a as ih =>
      rw [List.foldl_cons, total, Nat.zero_add]
      exact (h a).bind ih

end ByteWriter

/-! ## Words are read back -/

open ByteWriter

namespace Reader

variable {ε : Type}

theorem Decodes.getU16 (n : UInt16) : Decodes (getU16 : Reader ε UInt16) (be16 n) n := by
  intro rest
  have bound := n.toNat_lt
  have value : (UInt8.ofNat (n.toNat / 256)).toNat * 256 + (UInt8.ofNat (n.toNat % 256)).toNat =
      n.toNat := by
    simp only [UInt8.toNat_ofNat']
    omega
  change ok (UInt16.ofNat _, rest) = _
  rw [value, UInt16.ofNat_toNat]

theorem Decodes.getU32 (n : UInt32) : Decodes (getU32 : Reader ε UInt32) (be32 n) n := by
  intro rest
  have bound := n.toNat_lt
  have value : (UInt8.ofNat (n.toNat / 16777216)).toNat * 16777216 +
      (UInt8.ofNat (n.toNat / 65536 % 256)).toNat * 65536 +
      (UInt8.ofNat (n.toNat / 256 % 256)).toNat * 256 +
      (UInt8.ofNat (n.toNat % 256)).toNat = n.toNat := by
    simp only [UInt8.toNat_ofNat']
    omega
  change ok (UInt32.ofNat _, rest) = _
  rw [value, UInt32.ofNat_toNat]

end Reader

end Wire

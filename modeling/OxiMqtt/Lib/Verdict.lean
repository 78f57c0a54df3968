import OxiMqtt.Lib.Writer

/-!
# How a writer ends

`Ends w S F` says of a writer, whatever buffer it is given: it succeeds if `S`, stops with an error
if `F`, and with a fault otherwise; and whatever happens, it only appends.  `Checks w S` is the case
of a writer without faults.  The rules follow the program: what comes second counts only if what
comes first has succeeded.
-/

namespace Wire

open Outcome

namespace ByteWriter

variable {ε α : Type}

/-- Success if `S`, an error if `F`, a fault otherwise. -/
def Verdict (S F : Prop) : Outcome ε Unit → Prop
  | ok _ => S ∧ ¬F
  | err _ => F ∧ ¬S
  | fault _ => ¬S ∧ ¬F

/-- On every buffer `w` appends, and ends as `S` and `F` say. -/
def Ends (w : ByteWriter ε Unit) (S F : Prop) : Prop :=
  ∀ buf, buf <+: (w buf).2 ∧ Verdict S F (w buf).1

/-- On every buffer `w` appends; it succeeds if `S`, and stops with an error otherwise. -/
def Checks (w : ByteWriter ε Unit) (S : Prop) : Prop := Ends w S (¬S)

/-- It succeeds or stops with an error. -/
def Returns (o : Outcome ε α) : Prop := ∀ x, o ≠ fault x

theorem Verdict.returns_iff {S F : Prop} {o : Outcome ε Unit} (h : Verdict S F o) :
    Returns o ↔ S ∨ F := by
  cases o with
  | ok a => exact iff_of_true (fun x => by simp) (.inl h.1)
  | err e => exact iff_of_true (fun x => by simp) (.inr h.1)
  | fault x => exact iff_of_false (fun returns => returns x rfl) (not_or.mpr h)

/-- An error is possible only if `F`. -/
theorem Verdict.exists_err_iff {S F : Prop} {o : Outcome ε Unit} (h : Verdict S F o) :
    (∃ e, o = err e) ↔ F := by
  cases o with
  | ok a => exact iff_of_false (fun some => by simp at some) h.2
  | err e => exact iff_of_true ⟨e, rfl⟩ h.1
  | fault x => exact iff_of_false (fun some => by simp at some) h.2

theorem Verdict.congr {S S' F F' : Prop} {o : Outcome ε Unit} (h : Verdict S F o) (hs : S ↔ S')
    (hf : F ↔ F') : Verdict S' F' o := by
  rw [← propext hs, ← propext hf]
  exact h

theorem Ends.congr {w : ByteWriter ε Unit} {S S' F F' : Prop} (h : Ends w S F) (hs : S ↔ S')
    (hf : F ↔ F') : Ends w S' F' := fun buf => ⟨(h buf).1, (h buf).2.congr hs hf⟩

theorem Checks.congr {w : ByteWriter ε Unit} {S S' : Prop} (h : Checks w S) (hs : S ↔ S') :
    Checks w S' := Ends.congr h hs (not_congr hs)

theorem Writes.checks {w : ByteWriter ε Unit} {bs : Bytes} (h : Writes w bs) : Checks w True := by
  intro buf
  rw [h buf]
  exact ⟨List.prefix_append buf bs, trivial, fun f => f trivial⟩

theorem Checks.pure : Checks (Pure.pure () : ByteWriter ε Unit) True := Writes.pure.checks

theorem Checks.fail (e : ε) : Checks (fail e : ByteWriter ε Unit) False :=
  fun _ => ⟨List.prefix_rfl, id, id⟩

theorem Ends.crash (x : Fault) : Ends (crash x : ByteWriter ε Unit) False False :=
  fun _ => ⟨List.prefix_rfl, id, id⟩

/-- A writer that has appended something before it may fail keeps the buffer as it was exactly if it
never fails. -/
theorem Verdict.keeps_iff {w : ByteWriter ε Unit} {S F : Prop} {buf : Bytes} {b : UInt8}
    (grows : buf ++ [b] <+: (w buf).2) (h : Verdict S F (w buf).1) :
    (∀ e buf', w buf = (err e, buf') → buf' = buf) ↔ ¬F := by
  rw [← h.exists_err_iff]
  constructor
  · intro keeps some
    rcases some with ⟨e, failed⟩
    have same := keeps e (w buf).2 (by rw [← failed])
    have length := grows.length_le
    rw [same, List.length_append, List.length_singleton] at length
    omega
  · intro never e buf' failed
    exact absurd ⟨e, by rw [failed]⟩ never

/-- A decision that does not depend on the buffer. -/
theorem Checks.ite {w w' : ByteWriter ε Unit} {c S S' : Prop} [Decidable c] (h : Checks w S)
    (h' : Checks w' S') : Checks (if c then w else w') (if c then S else S') := by
  split
  · exact h
  · exact h'

/-- The second part counts if the first one has succeeded; what is left in the buffer is then known
to be an extension. -/
theorem Ends.bind_of {w : ByteWriter ε Unit} {f : Unit → ByteWriter ε Unit} {S S' F F' : Prop}
    {buf : Bytes} (h : buf <+: (w buf).2 ∧ Verdict S F (w buf).1)
    (h' : S → ∀ mid, w buf = (ok (), mid) → mid <+: (f () mid).2 ∧ Verdict S' F' (f () mid).1) :
    buf <+: ((w >>= f) buf).2 ∧ Verdict (S ∧ S') (F ∨ S ∧ F') ((w >>= f) buf).1 := by
  change buf <+: (ByteWriter.bind w f buf).2 ∧ Verdict _ _ (ByteWriter.bind w f buf).1
  unfold ByteWriter.bind
  rcases hw : w buf with ⟨a | e | x, mid⟩
  · rw [hw] at h
    rcases h with ⟨grows, succeeds, noError⟩
    have second := h' succeeds mid hw
    refine ⟨grows.trans second.1, second.2.congr ?_ ?_⟩
    · exact ⟨fun s => ⟨succeeds, s⟩, And.right⟩
    · exact ⟨fun f => .inr ⟨succeeds, f⟩, fun f => (f.resolve_left noError).2⟩
  · rw [hw] at h
    exact ⟨h.1, .inl h.2.1, fun s => h.2.2 s.1⟩
  · rw [hw] at h
    exact ⟨h.1, fun s => h.2.1 s.1, fun f => f.elim h.2.2 fun s => h.2.1 s.1⟩

theorem Ends.bind {w : ByteWriter ε Unit} {f : Unit → ByteWriter ε Unit} {S S' F F' : Prop}
    (h : Ends w S F) (h' : S → Ends (f ()) S' F') : Ends (w >>= f) (S ∧ S') (F ∨ S ∧ F') :=
  fun buf => Ends.bind_of (h buf) fun s mid _ => h' s mid

theorem Checks.bind_ends {w : ByteWriter ε Unit} {f : Unit → ByteWriter ε Unit} {S S' F' : Prop}
    (h : Checks w S) (h' : S → Ends (f ()) S' F') : Ends (w >>= f) (S ∧ S') (S → F') := by
  refine (Ends.bind h h').congr Iff.rfl ?_
  by_cases s : S
  · exact ⟨fun f _ => (f.resolve_left fun not => not s).2, fun f => .inr ⟨s, f s⟩⟩
  · exact ⟨fun _ s' => absurd s' s, fun _ => .inl s⟩

theorem Checks.bind {w : ByteWriter ε Unit} {f : Unit → ByteWriter ε Unit} {S S' : Prop}
    (h : Checks w S) (h' : Checks (f ()) S') : Checks (w >>= f) (S ∧ S') :=
  (h.bind_ends fun _ => h').congr Iff.rfl not_and.symm

/-- A value that the writer does without, or fails. -/
theorem Checks.bind_okOr {o : Option α} {e : ε} {f : α → ByteWriter ε Unit}
    (h : ∀ a, Checks (f a) True) : Checks (okOr o e >>= f) (o.isSome = true) := by
  cases o with
  | some a => exact (h a).congr ⟨fun _ => rfl, fun _ => trivial⟩
  | none => exact (Checks.fail e).congr ⟨False.elim, fun h => nomatch h⟩

/-- A writer that knows how many bytes the first part has appended. -/
theorem Checks.counted {w : ByteWriter ε Unit} {f : Nat → ByteWriter ε Unit} {S T G : Prop}
    {n : Nat} (h : Checks w S) (size : Emits w n) (h' : S → Ends (f n) T G) :
    Ends (counted w f) (S ∧ T) (S → G) := by
  intro buf
  change buf <+: ((w >>= fun _ => bufLen >>= fun now => f (now - buf.length)) buf).2 ∧
    Verdict _ _ ((w >>= fun _ => bufLen >>= fun now => f (now - buf.length)) buf).1
  have run := Ends.bind_of (f := fun _ => bufLen >>= fun now => f (now - buf.length)) (h buf)
    fun s mid hw => by
      have length := size buf
      rw [hw] at length
      change mid.length = buf.length + n at length
      change mid <+: (f (mid.length - buf.length) mid).2 ∧
        Verdict T G (f (mid.length - buf.length) mid).1
      rw [length, Nat.add_sub_cancel_left]
      exact h' s mid
  refine ⟨run.1, run.2.congr Iff.rfl ?_⟩
  by_cases s : S
  · exact ⟨fun f _ => (f.resolve_left fun not => not s).2, fun f => .inr ⟨s, f s⟩⟩
  · exact ⟨fun _ s' => absurd s' s, fun _ => .inl s⟩

theorem Checks.forSome {w : α → ByteWriter ε Unit} {S : α → Prop} {v : Option α}
    (h : ∀ a, Checks (w a) (S a)) : Checks (forSome v w) (∀ a ∈ v, S a) := by
  cases v with
  | none =>
      exact Checks.pure.congr ⟨fun _ a ha => (Option.not_mem_none a ha).elim, fun _ => trivial⟩
  | some a =>
      refine (h a).congr ⟨fun s b hb => ?_, fun s => s a rfl⟩
      cases hb
      exact s

theorem Checks.forEach {w : α → ByteWriter ε Unit} {S : α → Prop} (as : List α)
    (h : ∀ a, Checks (w a) (S a)) : Checks (forEach w as) (∀ a ∈ as, S a) := by
  induction as with
  | nil => exact Checks.pure.congr ⟨fun _ a ha => (List.not_mem_nil ha).elim, fun _ => trivial⟩
  | cons a as ih => exact ((h a).bind ih).congr List.forall_mem_cons.symm

/-- The elements of a list, none of which fails with an error. -/
theorem Ends.forEach {w : α → ByteWriter ε Unit} {S : α → Prop} (as : List α)
    (h : ∀ a, Ends (w a) (S a) False) : Ends (forEach w as) (∀ a ∈ as, S a) False := by
  induction as with
  | nil =>
      exact Ends.congr Checks.pure ⟨fun _ a ha => (List.not_mem_nil ha).elim, fun _ => trivial⟩
        ⟨fun f => f trivial, False.elim⟩
  | cons a as ih =>
      refine ((h a).bind fun _ => ih).congr List.forall_mem_cons.symm ?_
      exact ⟨fun f => f.elim id And.right, False.elim⟩

end ByteWriter

end Wire

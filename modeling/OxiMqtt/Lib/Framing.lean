import OxiMqtt.Lib.Reader

/-!
# Incremental decoders

A decoder that is called on a growing buffer: each call returns an item, asks for
more bytes, or fails, and keeps a state between calls.  `Incremental` collects
what a decoder has to satisfy so that the way its input arrives does not matter:
bytes behind the buffer change neither an item nor a failure, a call that asks for
more can be resumed from the state it left, and an item makes progress.

* `drain`: call the decoder until it asks for more or fails.
* `feed`: append the chunks of a stream one at a time, and drain after each.
* `feed_cons`, `feed_eq_flatten`: feeding chunks is feeding their concatenation.
* `feed_forall`: what holds of every item a call returns holds of a whole run.
* `drain_flatMap`: a buffer of whole frames is read as their items.
* `drain_embed`: a decoder inside another one.
-/

namespace Wire

open Outcome

/-- A decoder over states `σ` and items `α` that does not depend on how its input
is cut into pieces. -/
structure Incremental (σ ε α : Type) : Type where
  /-- One call: its result, the state it leaves, and what is left of the buffer. -/
  decode : σ → Bytes → Outcome ε (Option α) × σ × Bytes
  /-- What the state adds to the buffer in the measure of progress. -/
  pending : σ → Nat
  /-- An item consumes bytes, or uses up what is pending. -/
  progress : ∀ {s b a s' b'}, decode s b = (ok (some a), s', b') →
    2 * b'.length + pending s' < 2 * b.length + pending s
  /-- Bytes behind the buffer do not change the result of a call. -/
  append : ∀ s b more,
    match decode s b with
    | (ok (some a), s', b') => decode s (b ++ more) = (ok (some a), s', b' ++ more)
    | (ok none, s', b') => decode s (b ++ more) = decode s' (b' ++ more)
    | (err e, _, _) => (decode s (b ++ more)).1 = err e
    | (fault f, _, _) => (decode s (b ++ more)).1 = fault f

namespace Incremental

variable {σ ε α : Type} (d : Incremental σ ε α)

/-- Call the decoder until it asks for more or fails: the items, and the state and
buffer it is left with unless it failed. -/
def drain (s : σ) (b : Bytes) : List α × Outcome ε (σ × Bytes) :=
  match _h : d.decode s b with
  | (ok (some a), s', b') => (a :: (drain s' b').1, (drain s' b').2)
  | (ok none, s', b') => ([], ok (s', b'))
  | (err e, _, _) => ([], err e)
  | (fault f, _, _) => ([], fault f)
termination_by 2 * b.length + d.pending s
decreasing_by all_goals exact d.progress _h

/-- Append the chunks one at a time and drain after each: the items, and the first
failure if there is one. -/
def feed (s : σ) (b : Bytes) : List Bytes → List α × Outcome ε Unit
  | [] => ([], ok ())
  | c :: cs =>
      match d.drain s (b ++ c) with
      | (as, ok (s', b')) => (as ++ (feed s' b' cs).1, (feed s' b' cs).2)
      | (as, err e) => (as, err e)
      | (as, fault f) => (as, fault f)

section Calls

variable {s s' : σ} {b b' : Bytes}

theorem drain_item {a : α} (h : d.decode s b = (ok (some a), s', b')) :
    d.drain s b = (a :: (d.drain s' b').1, (d.drain s' b').2) := by
  rw [drain]
  split <;> rename_i h' <;> rw [h] at h' <;> cases h'
  rfl

theorem drain_more (h : d.decode s b = (ok none, s', b')) : d.drain s b = ([], ok (s', b')) := by
  rw [drain]
  split <;> rename_i h' <;> rw [h] at h' <;> cases h'
  rfl

theorem drain_err {e : ε} (h : (d.decode s b).1 = err e) : d.drain s b = ([], err e) := by
  rw [drain]
  split <;> rename_i h' <;> rw [h'] at h <;> cases h
  rfl

theorem drain_fault {f : Fault} (h : (d.decode s b).1 = fault f) : d.drain s b = ([], fault f) := by
  rw [drain]
  split <;> rename_i h' <;> rw [h'] at h <;> cases h
  rfl

/-- A call that asks for more may as well have been skipped. -/
theorem drain_resume (h : d.decode s b = (ok none, s', b')) (more : Bytes) :
    d.drain s (b ++ more) = d.drain s' (b' ++ more) := by
  have same := d.append s b more
  rw [h] at same
  rw [drain, drain]
  simp only at same
  rw [same]

end Calls

/-- Draining a buffer, and then what it leaves with more bytes behind, is draining
the buffer with these bytes. -/
theorem drain_append (s : σ) (b more : Bytes) :
    d.drain s (b ++ more) =
      match d.drain s b with
      | (as, ok (s', b')) => (as ++ (d.drain s' (b' ++ more)).1, (d.drain s' (b' ++ more)).2)
      | (as, err e) => (as, err e)
      | (as, fault f) => (as, fault f) := by
  -- on the measure of `drain`: the calls on `b` are the first calls on `b ++ more`
  induction hm : 2 * b.length + d.pending s using Nat.strongRecOn generalizing s b with
  | ind m ih =>
      have law := d.append s b more
      rcases hd : d.decode s b with ⟨(_ | a) | e | f, s', b'⟩
      · rw [d.drain_resume hd, d.drain_more hd]
        rfl
      · rw [hd] at law
        have rest := ih _ (hm ▸ d.progress hd) s' b' rfl
        rw [d.drain_item law, d.drain_item hd, rest]
        rcases d.drain s' b' with ⟨as, ⟨s'', b''⟩ | e | f⟩ <;> rfl
      · rw [hd] at law
        rw [d.drain_err law, d.drain_err (congrArg Prod.fst hd)]
      · rw [hd] at law
        rw [d.drain_fault law, d.drain_fault (congrArg Prod.fst hd)]

/-- Feeding two chunks one after the other is feeding them as one. -/
theorem feed_cons_cons (s : σ) (b c c' : Bytes) (cs : List Bytes) :
    d.feed s b (c :: c' :: cs) = d.feed s b ((c ++ c') :: cs) := by
  have both := d.drain_append s (b ++ c) c'
  rw [List.append_assoc] at both
  rw [feed, feed, both]
  rcases d.drain s (b ++ c) with ⟨as, ⟨s', b'⟩ | e | f⟩
  · dsimp only
    rw [feed]
    rcases d.drain s' (b' ++ c') with ⟨as', ⟨s'', b''⟩ | e | f⟩
    · simp only [List.append_assoc]
    · rfl
    · rfl
  · rfl
  · rfl

/-- Feeding a non-empty list of chunks is feeding their concatenation. -/
theorem feed_cons (s : σ) (b c : Bytes) (cs : List Bytes) :
    d.feed s b (c :: cs) = d.feed s b [c ++ cs.flatten] := by
  induction cs generalizing c with
  | nil => rw [List.flatten_nil, List.append_nil]
  | cons c' cs ih => rw [feed_cons_cons, ih, List.flatten_cons, List.append_assoc]

/-- How a stream is cut does not matter to a decoder that asks for more on an
empty buffer. -/
theorem feed_eq_flatten {s s' : σ} {b' : Bytes} (empty : d.decode s [] = (ok none, s', b'))
    (cs : List Bytes) : d.feed s [] cs = d.feed s [] [cs.flatten] := by
  cases cs with
  | nil =>
      rw [feed, feed, List.flatten_nil, List.append_nil, d.drain_more empty]
      rfl
  | cons c cs => rw [feed_cons, List.flatten_cons]

section Forall

variable {d} {Inv : σ → Prop} {P : α → Prop}

/-- What one call preserves and guarantees, a whole drain does. -/
theorem drain_forall
    (call : ∀ {s b}, Inv s → Inv (d.decode s b).2.1 ∧ ∀ a, (d.decode s b).1 = ok (some a) → P a)
    {s : σ} {b : Bytes} (hs : Inv s) :
    (∀ a ∈ (d.drain s b).1, P a) ∧ ∀ s' b', (d.drain s b).2 = ok (s', b') → Inv s' := by
  induction hm : 2 * b.length + d.pending s using Nat.strongRecOn generalizing s b with
  | ind m ih =>
      obtain ⟨keep, good⟩ := call (b := b) hs
      rcases hd : d.decode s b with ⟨(_ | a) | e | f, s', b'⟩
      · rw [hd] at keep
        rw [d.drain_more hd]
        refine ⟨fun a ha => (List.not_mem_nil ha).elim, fun s'' b'' h => ?_⟩
        cases h
        exact keep
      · rw [hd] at keep good
        obtain ⟨items, state⟩ := ih _ (hm ▸ d.progress hd) keep rfl
        rw [d.drain_item hd]
        refine ⟨fun a' ha' => ?_, state⟩
        rcases List.mem_cons.mp ha' with rfl | later
        · exact good _ rfl
        · exact items _ later
      · rw [d.drain_err (congrArg Prod.fst hd)]
        exact ⟨fun a ha => (List.not_mem_nil ha).elim, fun s'' b'' h => by cases h⟩
      · rw [d.drain_fault (congrArg Prod.fst hd)]
        exact ⟨fun a ha => (List.not_mem_nil ha).elim, fun s'' b'' h => by cases h⟩

/-- What one call preserves and guarantees, a whole run over chunks does. -/
theorem feed_forall
    (call : ∀ {s b}, Inv s → Inv (d.decode s b).2.1 ∧ ∀ a, (d.decode s b).1 = ok (some a) → P a)
    {s : σ} {b : Bytes} (hs : Inv s) (cs : List Bytes) : ∀ a ∈ (d.feed s b cs).1, P a := by
  induction cs generalizing s b with
  | nil => exact fun a ha => (List.not_mem_nil ha).elim
  | cons c cs ih =>
      obtain ⟨items, state⟩ := drain_forall call (b := b ++ c) hs
      intro a ha
      rw [feed] at ha
      rcases hd : d.drain s (b ++ c) with ⟨as, ⟨s', b'⟩ | e | f⟩
      · rw [hd] at ha items state
        rcases List.mem_append.mp ha with first | later
        · exact items a first
        · exact ih (state s' b' rfl) a later
      · rw [hd] at ha items
        exact items a ha
      · rw [hd] at ha items
        exact items a ha

end Forall

/-! ## Whole frames -/

/-- A buffer of whole frames is read as their items, and nothing is left of it. -/
theorem drain_flatMap {β : Type} {Ready : σ → Prop} {frame : β → Bytes} {item : β → α}
    (idle : ∀ s, Ready s → d.decode s [] = (ok none, s, []))
    (frames : List β)
    (one : ∀ f ∈ frames, ∀ s, Ready s → ∀ rest, ∃ s', Ready s' ∧
      d.decode s (frame f ++ rest) = (ok (some (item f)), s', rest))
    {s : σ} (ready : Ready s) :
    ∃ s', Ready s' ∧ d.drain s (frames.flatMap frame) = (frames.map item, ok (s', [])) := by
  induction frames generalizing s with
  | nil => exact ⟨s, ready, d.drain_more (idle s ready)⟩
  | cons f frames ih =>
      obtain ⟨mid, ready', first⟩ := one f List.mem_cons_self s ready (frames.flatMap frame)
      obtain ⟨s', final, rest⟩ := ih (fun f' hf' => one f' (List.mem_cons_of_mem f hf')) ready'
      refine ⟨s', final, ?_⟩
      rw [List.flatMap_cons, d.drain_item first, rest]
      rfl

/-! ## A decoder inside another one -/

section Embed

variable {τ ε' α' : Type} (d' : Incremental τ ε' α')

/-- The result of a call, with its item and its error seen from outside. -/
def lift (item : α → α') (error : ε → ε') : Outcome ε (Option α) → Outcome ε' (Option α')
  | ok (some a) => ok (some (item a))
  | ok none => ok none
  | err e => err (error e)
  | fault f => fault f

/-- What a drain is left with, with its state and its error seen from outside. -/
def liftEnd (state : σ → τ) (error : ε → ε') : Outcome ε (σ × Bytes) → Outcome ε' (τ × Bytes)
  | ok (s, b) => ok (state s, b)
  | err e => err (error e)
  | fault f => fault f

variable {d d'} {state : σ → τ} {item : α → α'} {error : ε → ε'}

/-- Where each call of the outer decoder is a call of the inner one, so is a whole drain. -/
theorem drain_embed
    (call : ∀ s b, d'.decode (state s) b =
      (lift item error (d.decode s b).1, state (d.decode s b).2.1, (d.decode s b).2.2))
    (s : σ) (b : Bytes) :
    d'.drain (state s) b = ((d.drain s b).1.map item, liftEnd state error (d.drain s b).2) := by
  induction hm : 2 * b.length + d.pending s using Nat.strongRecOn generalizing s b with
  | ind m ih =>
      have outer := call s b
      rcases hd : d.decode s b with ⟨(_ | a) | e | f, s', b'⟩
      · rw [hd] at outer
        rw [d.drain_more hd, d'.drain_more outer]
        rfl
      · rw [hd] at outer
        rw [d.drain_item hd, d'.drain_item outer, ih _ (hm ▸ d.progress hd) s' b' rfl]
        rfl
      · rw [hd] at outer
        rw [d.drain_err (congrArg Prod.fst hd), d'.drain_err (congrArg Prod.fst outer)]
        rfl
      · rw [hd] at outer
        rw [d.drain_fault (congrArg Prod.fst hd), d'.drain_fault (congrArg Prod.fst outer)]
        rfl

end Embed

end Incremental

end Wire

import Mathlib.Data.List.Nodup
import Mathlib.Data.List.Perm.Subperm

/-!
# Delivery at most once

A receiver hands a message to its application unless it has seen the message's
number, and forgets a number when it is released.  A sender holds copies of
messages that it may still send: a copy with a number has been sent under it, a
copy without one has not been sent.

`Sound copies r` is what keeps the receiver's log free of repetitions:
every message has one copy at most, and a sent one that the receiver has logged
is sent again only under a number the receiver still knows.  The rules say what
the sender may do: lose and move copies (`subperm`), take on a message (`add`),
send a copy (`publish`), release a number that no copy carries (`release`).
-/

namespace AtMostOnce

variable {M P : Type} [DecidableEq P]

/-- The numbers the receiver has seen and not released, and the messages it has
handed to its application. -/
structure Receiver (M P : Type) : Type where
  received : List P
  delivered : List M
  deriving DecidableEq, Repr

namespace Receiver

def publish (r : Receiver M P) (p : P) (m : M) : Receiver M P :=
  if p ∈ r.received then r else ⟨p :: r.received, r.delivered ++ [m]⟩

def release (r : Receiver M P) (p : P) : Receiver M P :=
  { r with received := r.received.filter fun q => q ≠ p }

theorem mem_received_publish (r : Receiver M P) (p : P) (m : M) :
    p ∈ (r.publish p m).received := by
  unfold publish
  split
  · assumption
  · exact List.mem_cons_self

theorem received_publish_mono {r : Receiver M P} {p q : P} (m : M) (h : q ∈ r.received) :
    q ∈ (r.publish p m).received := by
  unfold publish
  split
  · exact h
  · exact List.mem_cons_of_mem _ h

theorem mem_delivered_publish {r : Receiver M P} {p : P} {m n : M}
    (h : n ∈ (r.publish p m).delivered) : n ∈ r.delivered ∨ n = m := by
  unfold publish at h
  split at h
  · exact .inl h
  · simpa using h

end Receiver

/-- The copies the sender holds cannot make the receiver log a message twice. -/
structure Sound (copies : List (M × Option P)) (r : Receiver M P) : Prop where
  once : (copies.map Prod.fst).Nodup
  log : r.delivered.Nodup
  sent : ∀ m p, (m, some p) ∈ copies → m ∈ r.delivered → p ∈ r.received
  unsent : ∀ m, (m, none) ∈ copies → m ∉ r.delivered

namespace Sound

variable {copies copies' : List (M × Option P)} {r : Receiver M P} {m : M} {p : P}

omit [DecidableEq P] in
theorem subperm (h : Sound copies r) (le : copies'.Subperm copies) : Sound copies' r where
  once := by
    obtain ⟨l, perm, sub⟩ := le
    exact ((perm.map Prod.fst).nodup_iff).mp (h.once.sublist (sub.map Prod.fst))
  log := h.log
  sent m p hmem := h.sent m p (le.subset hmem)
  unsent m hmem := h.unsent m (le.subset hmem)

omit [DecidableEq P] in
theorem add (h : Sound copies r) (fresh : ∀ o, (m, o) ∉ copies) (unsent : m ∉ r.delivered) :
    Sound ((m, none) :: copies) r where
  once := by
    refine List.nodup_cons.mpr ⟨fun hmem => ?_, h.once⟩
    obtain ⟨⟨m', o⟩, hcopy, rfl⟩ := List.mem_map.mp hmem
    exact fresh o hcopy
  log := h.log
  sent m' p' hmem := by
    cases hmem with
    | tail _ hmem => exact h.sent m' p' hmem
  unsent m' hmem := by
    cases hmem with
    | head => exact unsent
    | tail _ hmem => exact h.unsent m' hmem

/-- Sending a copy, under its own number or a chosen one if it has none yet. -/
theorem publish {o : Option P} (h : Sound ((m, o) :: copies) r) (number : ∀ q, o = some q → q = p) :
    Sound ((m, some p) :: copies) (r.publish p m) where
  once := h.once
  log := by
    unfold Receiver.publish
    split
    · exact h.log
    · rename_i unseen
      refine List.nodup_append.mpr ⟨h.log, List.nodup_singleton m, fun n hn n' hn' heq => ?_⟩
      rw [List.mem_singleton] at hn'
      subst heq hn'
      -- A logged message has a number the receiver knows, or no copy at all.
      cases o with
      | none => exact h.unsent n List.mem_cons_self hn
      | some q =>
          have hq := number q rfl
          subst hq
          exact unseen (h.sent n q List.mem_cons_self hn)
  sent n q hmem hn := by
    cases hmem with
    | head => exact r.mem_received_publish p m
    | tail _ hmem =>
        obtain hn | rfl := Receiver.mem_delivered_publish hn
        · exact Receiver.received_publish_mono m (h.sent n q (List.mem_cons_of_mem _ hmem) hn)
        · exact absurd (List.mem_map_of_mem hmem) (List.nodup_cons.mp h.once).1
  unsent n hmem hn := by
    cases hmem with
    | tail _ hmem =>
        obtain hn | rfl := Receiver.mem_delivered_publish hn
        · exact h.unsent n (List.mem_cons_of_mem _ hmem) hn
        · exact absurd (List.mem_map_of_mem hmem) (List.nodup_cons.mp h.once).1

/-- Releasing a number that no copy carries. -/
theorem release (h : Sound copies r) (unused : ∀ m, (m, some p) ∉ copies) :
    Sound copies (r.release p) where
  once := h.once
  log := h.log
  sent m q hmem hm := by
    refine List.mem_filter.mpr ⟨h.sent m q hmem hm, ?_⟩
    simp only [ne_eq, decide_eq_true_eq]
    rintro rfl
    exact unused m hmem
  unsent := h.unsent

end Sound

end AtMostOnce

import Mathlib.Data.List.Perm.Basic

/-!
# The deliver queue

The bounded queue of `queue.rs` between the session channel and the deliver arm,
with the two policies of a full queue: refuse the new value or drop the earliest.
`send_perm` says that a `send` loses nothing: what is not in the queue afterwards
is handed back.
-/

namespace OxiMqtt.Session.DeliverQueue

variable {T : Type}

/-- `Policy` -/
inductive Policy : Type
  | current
  | early
  deriving DecidableEq, Repr

/-- `Queue::push`; `none` is the `Err` that hands the value back. -/
def push (cap : Nat) (queue : List T) (v : T) : Option (List T) :=
  if queue.length ≥ cap then none else some (queue ++ [v])

/-- `Sender::send`: the queue, and the value handed back as an `Err`. -/
def send (cap : Nat) (policy : T → Policy) (queue : List T) (v : T) : List T × Option T :=
  match push cap queue v with
  | some queue' => (queue', none)
  | none =>
      match policy v with
      | .current => (queue, some v)
      | .early =>
          match push cap queue.tail v with
          | some queue' => (queue', queue.head?)
          | none => (queue.tail, some v)

theorem push_of_lt {cap : Nat} {queue : List T} (room : queue.length < cap) (v : T) :
    push cap queue v = some (queue ++ [v]) :=
  if_neg (by omega)

theorem push_of_le {cap : Nat} {queue : List T} (full : cap ≤ queue.length) (v : T) :
    push cap queue v = none :=
  if_pos full

theorem send_of_lt {cap : Nat} (policy : T → Policy) {queue : List T} (room : queue.length < cap)
    (v : T) : send cap policy queue v = (queue ++ [v], none) := by
  rw [send, push_of_lt room]

/-- A full queue does not grow. -/
theorem length_send_le {cap : Nat} (policy : T → Policy) {queue : List T} (v : T)
    (full : cap ≤ queue.length) : (send cap policy queue v).1.length ≤ queue.length := by
  rw [send, push_of_le full]
  cases policy v with
  | current => exact Nat.le_refl _
  | early =>
      dsimp only
      unfold push
      split
      · rename_i queue' hpush
        obtain ⟨room, pushed⟩ := Option.ite_none_left_eq_some.mp hpush
        cases pushed
        simp only [List.length_append, List.length_tail, List.length_singleton] at room ⊢
        omega
      · exact (List.tail_sublist queue).length_le

/-- A queue within its bound and the value sent are the new queue and the value
handed back. -/
theorem send_perm {cap : Nat} (policy : T → Policy) {queue : List T} (v : T)
    (bound : queue.length ≤ cap) :
    ((send cap policy queue v).2.toList ++ (send cap policy queue v).1).Perm (v :: queue) ∧
      (send cap policy queue v).1.length ≤ cap := by
  unfold send
  by_cases room : queue.length < cap
  · rw [push_of_lt room]
    refine ⟨List.perm_append_singleton v queue, ?_⟩
    simp only [List.length_append, List.length_singleton]
    omega
  · rw [push_of_le (by omega)]
    cases policy v with
    | current => exact ⟨.refl _, bound⟩
    | early =>
        cases queue with
        | nil =>
            -- Only a queue without room for anything is both empty and full.
            simp only [List.tail_nil, push_of_le (Nat.le_of_not_lt room)]
            exact ⟨.refl _, bound⟩
        | cons first rest =>
            have length := bound
            rw [List.length_cons] at length
            simp only [List.tail_cons, push_of_lt (Nat.lt_of_succ_le length)]
            refine ⟨List.perm_append_singleton v (first :: rest), ?_⟩
            rw [List.length_append]
            exact length

/-- The new queue is a part, in order, of the queue with the value at its end. -/
theorem send_sublist (cap : Nat) (policy : T → Policy) (queue : List T) (v : T) :
    (send cap policy queue v).1.Sublist (queue ++ [v]) := by
  have tail : (queue.tail ++ [v]).Sublist (queue ++ [v]) := (List.tail_sublist queue).append_right _
  unfold send push
  split
  · rename_i queue' hpush
    split at hpush
    · cases hpush
    · cases hpush
      exact .refl _
  · split
    · exact List.sublist_append_left _ _
    · split
      · rename_i queue' hpush
        split at hpush
        · cases hpush
        · cases hpush
          exact tail
      · exact (List.sublist_append_left _ _).trans tail

end OxiMqtt.Session.DeliverQueue

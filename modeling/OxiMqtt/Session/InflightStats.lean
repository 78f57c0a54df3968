import OxiMqtt.Session.Inflight

/-!
# The count of the outbound windows

`out_inflights` of the server's statistics: a window adds one to it at every `on_push` and takes one
away at every `on_pop`.  The operations call these by hand; `push_back` calls both where it replaces
an entry, and `to_inflight_messages` leaves them to `pop_front`.

* `popLoop_eq`: the loop of `to_inflight_messages` ends, with the entries in their order.
* `Exact`: what every operation keeps.
* `inflights_exact`: after any operations the calls differ by the length of the window.
-/

namespace OxiMqtt.Session.OutInflight

variable {F : Type}

/-- The loop of `OutInflight::to_inflight_messages`, with the turns left. -/
def popLoop (w : OutInflight F) : Nat → List (OutInflightMessage F) × OutInflight F
  | 0 => ([], w)
  | turns + 1 =>
      match w.popFront with
      | some (m, w) =>
          let r := popLoop w turns
          (m :: r.1, r.2)
      | none => ([], w)

/-- The loop ends with an empty window, in a turn more than it has entries. -/
theorem popLoop_eq {w : OutInflight F} {turns : Nat} (enough : w.len < turns) :
    w.popLoop turns = w.toInflightMessages := by
  induction turns generalizing w with
  | zero => cases enough
  | succ turns ih =>
      obtain ⟨cap, interval, next, queues, toBack, pushes, pops⟩ := w
      cases queues with
      | nil => rfl
      | cons e rest =>
          have fewer : rest.length < turns := Nat.lt_of_succ_lt_succ enough
          have later := ih (w := ⟨cap, interval, next, rest, toBack, pushes, pops + 1⟩) fewer
          simp only [popLoop, popFront, later]
          simp only [toInflightMessages, List.map_cons, List.length_cons, Nat.add_assoc,
            Nat.add_comm 1]

/-- An operation of the window. -/
inductive Operation (F : Type) : Type
  | pushBack (m : OutInflightMessage F)
  | popFront
  | popFrontTimeout (now : TimestampMillis)
  | remove (packetId : PacketId)
  | updateStatus (now : TimestampMillis) (packetId : PacketId) (s : MomentStatus)
  | toInflightMessages

/-- The window after an operation. -/
def operate (w : OutInflight F) : Operation F → OutInflight F
  | .pushBack m => (w.pushBack m).1
  | .popFront => w.popFront.elim w Prod.snd
  | .popFrontTimeout now => (w.popFrontTimeout now).elim w Prod.snd
  | .remove packetId => (w.remove packetId).2
  | .updateStatus now packetId s => w.updateStatus now packetId s
  | .toInflightMessages => (w.popLoop (w.len + 1)).2

/-- An entry for every key, which is the packet id of its message; and a call of `on_push` for every
entry, and for every call of `on_pop`. -/
structure Exact (w : OutInflight F) : Prop where
  keys : (w.queues.map Prod.fst).Nodup
  packetId : ∀ e ∈ w.queues, e.2.publish.packetId.map (fun id => id.val) = some e.1
  counted : w.pushes = w.pops + w.len

section

variable {w : OutInflight F}

theorem Exact.popFront (exact_w : w.Exact) : (w.popFront.elim w Prod.snd).Exact := by
  unfold OutInflight.popFront
  split
  · exact exact_w
  · rename_i packetId m rest queues
    have sub : rest.Sublist w.queues := queues ▸ List.sublist_cons_self _ _
    refine ⟨exact_w.keys.sublist (sub.map _), fun e he => exact_w.packetId e (sub.subset he), ?_⟩
    have counted := exact_w.counted
    rw [len, queues, List.length_cons] at counted
    change w.pushes = w.pops + 1 + rest.length
    omega

theorem Exact.pushBack (exact_w : w.Exact) (m : OutInflightMessage F) :
    (w.pushBack m).1.Exact := by
  unfold OutInflight.pushBack
  split
  · exact exact_w
  · rename_i packetId numbered
    refine ⟨keys_insertEntry exact_w.keys packetId.val m, fun e he => ?_, ?_⟩
    · rcases mem_insertEntry he with rfl | ⟨old, -⟩
      · rw [numbered]
        rfl
      · exact exact_w.packetId e old
    · -- the entry that is replaced is one that was counted
      have lengths := (insertEntry_perm exact_w.keys packetId.val m).length_eq
      rw [List.length_append, List.length_cons] at lengths
      have counted := exact_w.counted
      unfold len at counted ⊢
      dsimp only
      cases replaced : w.queues.find? (fun e => e.1 == packetId.val) with
      | none =>
          rw [replaced] at lengths
          simp only [Option.toList_none, List.length_nil] at lengths
          simp only [Option.isSome_none, Bool.false_eq_true, if_false]
          omega
      | some old =>
          rw [replaced] at lengths
          simp only [Option.toList_some, List.length_singleton] at lengths
          simp only [Option.isSome_some, if_true]
          omega

theorem Exact.remove (exact_w : w.Exact) (packetId : PacketId) :
    (w.remove packetId).2.Exact := by
  have sub := queues_remove_sublist w packetId
  refine ⟨exact_w.keys.sublist (sub.map _), fun e he => exact_w.packetId e (sub.subset he), ?_⟩
  have lengths := (remove_perm exact_w.keys packetId).length_eq
  rw [List.length_append, List.length_map, List.length_map] at lengths
  have counted := exact_w.counted
  unfold len at counted ⊢
  unfold OutInflight.remove at lengths ⊢
  split at lengths
  · simp only [Option.toList_some, List.length_singleton] at lengths
    dsimp only
    omega
  · exact counted

theorem Exact.updateStatus (exact_w : w.Exact) (now : TimestampMillis) (packetId : PacketId)
    (s : MomentStatus) : (w.updateStatus now packetId s).Exact where
  keys := by
    rw [keys_updateStatus]
    exact exact_w.keys
  packetId := packetId_updateStatus exact_w.packetId now packetId s
  counted := by
    rw [len, ← List.length_map Prod.fst, keys_updateStatus, List.length_map]
    exact exact_w.counted

theorem Exact.operate (exact_w : w.Exact) (op : Operation F) : (w.operate op).Exact := by
  cases op with
  | pushBack m => exact exact_w.pushBack m
  | popFront => exact exact_w.popFront
  | popFrontTimeout now =>
      change ((w.popFrontTimeout now).elim w Prod.snd).Exact
      unfold OutInflight.popFrontTimeout
      split
      · exact exact_w.popFront
      · exact exact_w
  | remove packetId => exact exact_w.remove packetId
  | updateStatus now packetId s => exact exact_w.updateStatus now packetId s
  | toInflightMessages =>
      change (w.popLoop (w.len + 1)).2.Exact
      rw [popLoop_eq (Nat.lt_succ_self w.len)]
      exact ⟨List.nodup_nil, fun _ he => (by cases he), exact_w.counted⟩

end

/-- After any operations on a window, the calls of `on_push` are more than those of `on_pop` by its
length, its keys are the packet ids of its messages, and `to_inflight_messages` gives its messages
in their order and leaves it empty. -/
theorem inflights_exact (cap : Nat) (retryInterval expiryInterval : TimestampMillis) (toBack : Bool)
    (ops : List (Operation F)) :
    let w := ops.foldl operate (new cap retryInterval expiryInterval toBack)
    (w.pushes : Int) - w.pops = w.len ∧
      (∀ e ∈ w.queues, e.2.publish.packetId.map (fun id => id.val) = some e.1) ∧
      (w.popLoop (w.len + 1)).1 = w.queues.map Prod.snd ∧
      (w.popLoop (w.len + 1)).2.queues = [] := by
  intro w
  have exact_w : w.Exact := by
    have start : (new cap retryInterval expiryInterval toBack : OutInflight F).Exact :=
      ⟨List.nodup_nil, fun _ he => (by cases he), rfl⟩
    exact List.foldlRecOn ops operate start fun w exact_w op _ => exact_w.operate op
  have ended := popLoop_eq (Nat.lt_succ_self w.len)
  refine ⟨?_, exact_w.packetId, ?_, ?_⟩
  · rw [exact_w.counted]
    omega
  · rw [ended]
    rfl
  · rw [ended]
    rfl

end OxiMqtt.Session.OutInflight

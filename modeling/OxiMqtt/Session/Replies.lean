import OxiMqtt.Session.Inbound

/-!
# What the broker answers to a QoS 2 publish

The packet ids of the PUBRECs that a session sends, against those of the publishes it takes.

* `Answered`: since some point of the log, each packet id of a list was answered or still waits, and
  none else; a packet id is registered only with its answer.
* `processQos2_answers`: a publish with a new packet id is answered, now or later.
* `processPublishRelease_answers`: a PUBREL closes its packet id, and answers some that have waited.
-/

namespace OxiMqtt.Session.Inbound

open Process
open OxiMqtt.Codec (QoS NonZeroU16 Publish)

/-! ## The packet ids of a log -/

/-- The packet ids of the PUBRECs. -/
def received (log : List Event) : List NonZeroU16 :=
  log.filterMap fun
    | .received pid _ => some pid
    | _ => none

/-- The packet ids of the PUBRELs. -/
def released (log : List Event) : List NonZeroU16 :=
  log.filterMap fun
    | .pubrel pid => some pid
    | _ => none

/-- The packet ids of the publishes in the queue. -/
def State.waiting (s : State) : List NonZeroU16 := s.qos2Pending.map Prod.fst

/-- Since `log`, the session has answered or still holds exactly the packet ids `ids`, it has taken no
other publish and no PUBREL, and of the packet ids outside of `w` it has registered only those
it has answered. -/
structure Answered (w : InInflight) (ids : List NonZeroU16) (log new : List Event) (s : State) :
    Prop where
  grown : s.log = log ++ new
  taken : accepted new = []
  closed : released new = []
  balance : (received new ++ s.waiting).Perm ids
  registered : ∀ pid ∈ s.inInflight.cached, pid ∈ w.cached ∨ pid ∈ received new
  fifo : accepted log = handed s.log ++ s.qos2Pending

/-- There is such an extension of the log. -/
def Answers (w : InInflight) (ids : List NonZeroU16) (log : List Event) (s : State) : Prop :=
  ∃ new, Answered w ids log new s

/-- The publishes that were handed over are the first ones of these. -/
def HandedFirst (publishes : List (NonZeroU16 × Publish)) (s : State) : Prop :=
  handed s.log <+: publishes

section Specs

variable {world : World} {w w₀ : InInflight} {q rest : List (NonZeroU16 × Publish)}
  {log before new : List Event} {ids : List NonZeroU16} {pid : NonZeroU16} {m : Publish}

theorem Answered.handedFirst {s : State} (answered : Answered w ids log new s) :
    HandedFirst (accepted log) s := answered.fifo ▸ List.prefix_append _ _

/-- The publish in front of the queue is taken and handed over. -/
theorem Answered.handed_snoc {n n' : Nat}
    (answered : Answered w₀ ids before new ⟨w, (pid, m) :: rest, n, log⟩) {w' : InInflight}
    {more : List Event} (res : Except Reason PublishResult) (none : handed more = []) :
    HandedFirst (accepted before) ⟨w', rest, n', log ++ [.handed pid m res] ++ more⟩ := by
  have fifo : accepted before = handed log ++ ((pid, m) :: rest) := answered.fifo
  have kept : handed (log ++ [.handed pid m res] ++ more) = handed log ++ [(pid, m)] := by
    rw [handed, List.filterMap_append]
    change handed (log ++ [.handed pid m res]) ++ handed more = _
    rw [none, List.append_nil, handed_handed]
  change handed (log ++ [.handed pid m res] ++ more) <+: _
  rw [fifo, kept]
  exact ⟨rest, by rw [List.append_assoc]; rfl⟩

/-- The PUBREC of a publish that was taken off the queue. -/
theorem Answered.answer {n n' : Nat} {w' : InInflight} {r r' : PublishResult}
    (answered : Answered w₀ ids before new ⟨w, (pid, m) :: rest, n, log⟩)
    (cached : ∀ p ∈ w'.cached, p = pid ∨ p ∈ w.cached) :
    Answered w₀ ids before (new ++ [.handed pid m (.ok r), .received pid r'])
      ⟨w', rest, n', log ++ [.handed pid m (.ok r)] ++ [.received pid r']⟩ where
  grown := by
    have old : log = before ++ new := answered.grown
    rw [old, List.append_assoc, List.append_assoc]
    rfl
  taken := by simpa [accepted] using answered.taken
  closed := by simpa [released] using answered.closed
  balance := by
    have old := answered.balance
    simp only [received, State.waiting, List.map_cons, List.filterMap_append,
      List.filterMap_cons, List.filterMap_nil] at old ⊢
    rwa [List.append_assoc]
  registered p hp := by
    have grown : p ∈ received (new ++ [.handed pid m (.ok r), .received pid r']) ↔
        p ∈ received new ∨ p = pid := by
      simp [received]
    rw [grown]
    rcases cached p hp with same | old
    · exact .inr (.inr same)
    · exact (answered.registered p old).imp_right .inl
  fifo := by
    have fifo : accepted before = handed log ++ ((pid, m) :: rest) := answered.fifo
    change _ = handed (log ++ [.handed pid m (.ok r)] ++ [.received pid r']) ++ rest
    rw [fifo, handed_received, handed_handed, List.append_assoc]
    rfl

/-- What `add` does with a QoS 2 packet id. -/
theorem InInflight.add_qos2 (w : InInflight) (pid : NonZeroU16) :
    (∃ e, w.add pid .exactlyOnce = .error e) ∨
      w.add pid .exactlyOnce = .ok (true, { w with cached := insert pid w.cached }) := by
  unfold add
  split
  · exact .inl ⟨_, rfl⟩
  · split
    · exact .inr rfl
    · exact .inl ⟨_, rfl⟩

/-- `register` puts at most the one packet id into the window. -/
theorem register_cached {E : State → Prop} {r : PublishResult}
    (fail : ∀ s, At w q (log ++ [.addError pid]) s → E s) :
    Triple (At w q log) (register pid r)
      (fun _ s => ∃ w', At w' q log s ∧ ∀ p ∈ w'.cached, p = pid ∨ p ∈ w.cached) E := by
  unfold register
  split
  · refine Triple.get_bind fun s hs => ?_
    obtain ⟨n, rfl⟩ := hs
    dsimp only
    rcases w.add_qos2 pid with ⟨e, full⟩ | added
    · rw [full]
      refine Triple.set_bind (Triple.of_throw fun s hs => fail s ⟨n, hs⟩)
    · rw [added]
      refine Triple.set_bind (Triple.of_pure fun s hs => ⟨_, ⟨n, hs⟩, fun p hp => ?_⟩)
      exact Finset.mem_insert.mp hp
  · exact Triple.of_pure fun s hs => ⟨w, hs, fun p hp => .inr hp⟩

/-- `ack_qos2_inbound` of the publish in front of the queue, which has been taken off it. -/
theorem ackQos2Inbound_answers {n : Nat}
    (answered : Answered w₀ ids before new ⟨w, (pid, m) :: rest, n, log⟩) :
    Triple (At w rest log) (ackQos2Inbound world pid m)
      (fun _ s => Answers w₀ ids before s ∧ s.qos2Pending = rest)
      (HandedFirst (accepted before)) := by
  refine publish_spec.bind fun res => ?_
  refine Triple.modify_bind (At w rest (log ++ [.handed pid m res])) ?_ ?_
  · intro s hs
    obtain ⟨n', rfl⟩ := hs
    exact ⟨n', rfl⟩
  cases res with
  | error e =>
      refine Triple.throw_bind fun s hs => ?_
      obtain ⟨n', rfl⟩ := hs
      have first : HandedFirst (accepted before)
          ⟨w, rest, n', log ++ [.handed pid m (.error e)] ++ []⟩ := answered.handed_snoc (.error e) rfl
      simpa using first
  | ok r =>
      refine Triple.pure_bind ((register_cached fun s hs => ?_).bind fun inflightRes => ?_)
      · obtain ⟨n', rfl⟩ := hs
        exact answered.handed_snoc (.ok r) rfl
      intro s hs
      obtain ⟨w', hs, cached⟩ := hs
      refine Triple.bind sendPublishReceived_spec (fun recRes => ?_) s hs
      cases recRes with
      | ok _ =>
          refine Triple.modify_bind
            (At w' rest (log ++ [.handed pid m (.ok r)] ++ [.received pid r]))
            (fun s hs => ?_) (Triple.of_pure fun s hs => ?_)
          · simpa [isErr] using hs
          · obtain ⟨n', rfl⟩ := hs
            exact ⟨⟨_, answered.answer cached⟩, rfl⟩
      | error e =>
          refine Triple.modify_bind (HandedFirst (accepted before)) (fun s hs => ?_)
            (Triple.of_throw fun s hs => hs)
          obtain ⟨n', rfl⟩ := hs
          split
          · exact answered.handed_snoc (.ok r) rfl
          · exact answered.handed_snoc (.ok r) rfl

theorem drainLoop_answers (fuel : Nat) :
    Triple (Answers w₀ ids before) (drainLoop world fuel) (fun _ => Answers w₀ ids before)
      (HandedFirst (accepted before)) := by
  induction fuel with
  | zero => exact Triple.of_pure fun s hs => hs
  | succ fuel ih =>
      refine Triple.get_bind fun s hs => ?_
      obtain ⟨w, q, n, log⟩ := s
      cases q with
      | nil => exact Triple.of_pure fun s same => same ▸ hs
      | cons e rest =>
          obtain ⟨pid, m⟩ := e
          obtain ⟨new, answered⟩ := hs
          dsimp only
          by_cases full : w.isFull = true
          · rw [if_pos full]
            exact Triple.of_pure fun s same => same ▸ ⟨new, answered⟩
          · rw [if_neg full]
            refine Triple.set_bind (Triple.bind ((ackQos2Inbound_answers answered).weaken
              (fun s hs => ⟨n, hs⟩) (fun _ s hs => hs.1) fun _ hs => hs) fun _ => ih)

/-- Nothing has been answered yet. -/
theorem answers_nil {n : Nat} (fifo : accepted log = handed log ++ q) :
    Answers w (q.map Prod.fst) log ⟨w, q, n, log⟩ :=
  ⟨[], (List.append_nil log).symm, rfl, rfl, .refl _, fun _ hp => .inl hp, fifo⟩

/-- A publish with a packet id that is neither registered nor waiting, and with room in the queue, is
answered, now or later, and nothing else is. -/
theorem processQos2_answers {max : UInt16} {s : State} (inv : Inv max s)
    (fresh : pid ∉ s.inInflight.cached) (new : pid ∉ s.waiting)
    (room : s.inInflight.isFull = true → s.qos2Pending.length < SESSION_QOS2_PENDING_CAP) :
    Triple (fun t => t = s) (processQos2 world pid m)
      (fun _ => Answers s.inInflight (s.waiting ++ [pid]) (s.log ++ [.accepted pid m]))
      (HandedFirst (accepted s.log ++ [(pid, m)])) := by
  refine Triple.get_bind fun t same => ?_
  subst same
  obtain ⟨w, q, n, log⟩ := t
  have fifo : accepted log = handed log ++ q := inv.core.fifo
  have notQueued : q.any (·.1 == pid) = false := by
    rw [List.any_eq_false]
    intro e he same
    exact new (beq_iff_eq.mp same ▸ List.mem_map_of_mem he)
  have unknown : w.contains pid = false := by simpa [InInflight.contains] using fresh
  dsimp only
  rw [notQueued, unknown, if_neg Bool.false_ne_true, if_neg Bool.false_ne_true]
  have waits : Answers w (q.map Prod.fst ++ [pid]) (log ++ [.accepted pid m])
      ⟨w, q ++ [(pid, m)], n, log ++ [.accepted pid m]⟩ := by
    have grown : accepted (log ++ [.accepted pid m]) =
        handed (log ++ [.accepted pid m]) ++ (q ++ [(pid, m)]) := by
      rw [accepted_accepted, handed_accepted, fifo, List.append_assoc]
    simpa using answers_nil (w := w) (n := n) grown
  by_cases full : w.isFull = true
  · have short := room full
    rw [if_pos full, if_neg (Nat.not_le.mpr short)]
    intro s hs
    exact waits
  · rw [if_neg full]
    have empty : q = [] := by
      by_contra nonempty
      exact full (inv.full nonempty)
    subst empty
    obtain ⟨since, answered⟩ := waits
    refine Triple.set_bind ((ackQos2Inbound_answers answered).weaken (fun s hs => ⟨n, hs⟩)
      (fun _ s hs => hs.1) fun s hs => ?_)
    rwa [accepted_accepted] at hs

/-- A PUBREL closes its packet id, and what has waited is answered as far as there is room. -/
theorem processPublishRelease_answers {max : UInt16} {s : State} (inv : Inv max s) :
    Triple (fun t => t = s) (processPublishRelease world pid)
      (fun _ => Answers (s.inInflight.remove pid) s.waiting (s.log ++ [.pubrel pid]))
      (HandedFirst (accepted s.log)) := by
  obtain ⟨w, q, n, log⟩ := s
  have fifo : accepted (log ++ [.pubrel pid]) = handed (log ++ [.pubrel pid]) ++ q := by
    rw [accepted_pubrel, handed_pubrel]
    exact inv.core.fifo
  have start : ∀ s, At (w.remove pid) q (log ++ [.pubrel pid]) s →
      Answers (w.remove pid) (q.map Prod.fst) (log ++ [.pubrel pid]) s := by
    intro s hs
    obtain ⟨n', rfl⟩ := hs
    exact answers_nil fifo
  have first : ∀ s, Answers (w.remove pid) (q.map Prod.fst) (log ++ [.pubrel pid]) s →
      HandedFirst (accepted log) s := by
    intro s hs
    obtain ⟨new, answered⟩ := hs
    simpa using answered.handedFirst
  refine Triple.modify_bind (At (w.remove pid) q (log ++ [.pubrel pid])) (fun s same => ?_) ?_
  · subst same
    exact ⟨n, rfl⟩
  · refine send_spec.bind fun res => Triple.bind (orReturn_spec (fun _ _ s hs => start s hs)
      fun s hs => first s (start s hs)) fun _ => ?_
    refine Triple.get_bind fun s hs => (drainLoop_answers _).weaken (fun t same => same ▸ hs)
      (fun _ _ hs => hs) fun s hs => ?_
    rwa [accepted_pubrel] at hs

end Specs

end OxiMqtt.Session.Inbound

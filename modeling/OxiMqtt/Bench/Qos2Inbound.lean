import OxiMqtt.Bench.Client
import OxiMqtt.Lib.Machine
import Mathlib.Data.List.Perm.Basic

/-!
# The QoS 2 messages that a client receives

The packets that are read in a session of a client, beside the packet identifiers of the QoS 2
messages that it has received and that the broker has not released.  `on_incoming` remembers these
identifiers.  `wait_for` does not: it sends the PUBREC of a message that comes before the SUBACK,
and drops the PUBREL that answers it.

* `Good`: what a client owes for one packet.
* `onIncoming_good`: `on_incoming` does all of it.
* `exchanges_iff`: a client does all of it over a run exactly when no packet of a QoS 2 message is
  read before the SUBACK.
* `early_message`: one that is.
-/

namespace OxiMqtt.Bench

/-! ## Removal by the last element -/

section

variable {α : Type} {l : List α} {pos : Nat}

/-- What `swap_remove` leaves is what a removal in place leaves, in another order. -/
theorem swapRemove_perm (within : pos < l.length) : (swapRemove l pos).Perm (l.eraseIdx pos) := by
  obtain ⟨front, last, rfl⟩ : ∃ front last, l = front ++ [last] := by
    rcases List.eq_nil_or_concat l with rfl | ⟨front, last, rfl⟩
    · cases within
    · exact ⟨front, last, List.concat_eq_append⟩
  rw [List.length_append, List.length_singleton] at within
  unfold swapRemove
  rw [List.getLast?_concat]
  dsimp only
  rcases Nat.lt_succ_iff_lt_or_eq.mp within with before | rfl
  · rw [List.set_append_left _ _ before, List.dropLast_concat,
      List.eraseIdx_append_of_lt_length before]
    exact (List.set_perm_cons_eraseIdx before last).trans (List.perm_append_singleton _ _).symm
  · rw [List.set_append_right _ _ (Nat.le_refl _), Nat.sub_self, List.set_cons_zero,
      List.dropLast_concat, List.eraseIdx_append_of_length_le (Nat.le_refl _), Nat.sub_self,
      List.eraseIdx_cons_zero, List.append_nil]

theorem mem_swapRemove [DecidableEq α] {a b : α} (distinct : l.Nodup)
    (found : l.findIdx? (· = a) = some pos) : b ∈ swapRemove l pos ↔ b ∈ l ∧ b ≠ a := by
  obtain ⟨within, same, -⟩ := List.findIdx?_eq_some_iff_getElem.mp found
  have eq : l[pos] = a := of_decide_eq_true same
  rw [(swapRemove_perm within).mem_iff, ← distinct.erase_getElem _ within, eq,
    distinct.mem_erase_iff, and_comm]

end

/-! ## What is owed for a packet -/

namespace Qos2Inbound

open Packets (Incoming classify ack)

/-- The identifier of a PUBLISH at QoS 2. -/
def publish2 : Incoming → Option UInt16
  | .publish _ _ qos _ packetId => if qos = 2 then packetId else none
  | _ => none

/-- The identifier that a PUBREL releases. -/
def released : Incoming → Option UInt16
  | .pubRel pid => some pid
  | _ => none

/-- A packet that was handled: what was sent for it, whether it was counted as a duplicate, the
identifiers that were received and not released before it, and those that the client remembers after
it. -/
structure Handled : Type where
  incoming : Incoming
  written : List Packet
  duplicate : Bool
  owed : List UInt16
  remembered : List UInt16

/-- A PUBLISH at QoS 2 is answered by a PUBREC, its identifier is remembered, and it is a duplicate
where this was owed already.  A PUBREL is answered by a PUBCOMP. -/
structure Good (ctx : Ctx) (h : Handled) : Prop where
  received : ∀ pid ∈ publish2 h.incoming, ack ctx .pubRec pid ∈ h.written ∧ pid ∈ h.remembered ∧
    (h.duplicate = true ↔ pid ∈ h.owed)
  released : ∀ pid ∈ released h.incoming, ack ctx .pubComp pid ∈ h.written

instance (ctx : Ctx) (h : Handled) : Decidable (Good ctx h) :=
  have : Decidable (∀ pid ∈ publish2 h.incoming, ack ctx .pubRec pid ∈ h.written ∧
      pid ∈ h.remembered ∧ (h.duplicate = true ↔ pid ∈ h.owed)) :=
    Option.decidableForallMem _
  have : Decidable (∀ pid ∈ released h.incoming, ack ctx .pubComp pid ∈ h.written) :=
    Option.decidableForallMem _
  decidable_of_iff
    ((∀ pid ∈ publish2 h.incoming, ack ctx .pubRec pid ∈ h.written ∧ pid ∈ h.remembered ∧
        (h.duplicate = true ↔ pid ∈ h.owed)) ∧
      ∀ pid ∈ released h.incoming, ack ctx .pubComp pid ∈ h.written)
    ⟨fun good => ⟨good.1, good.2⟩, fun good => ⟨good.1, good.2⟩⟩

/-- The identifiers that are received and not released after a packet. -/
def owing (owed : List UInt16) (inc : Incoming) : List UInt16 :=
  owed.filter (fun pid => released inc ≠ some pid) ++ (publish2 inc).toList

theorem mem_owing {owed : List UInt16} {inc : Incoming} {pid : UInt16} :
    pid ∈ owing owed inc ↔ (pid ∈ owed ∧ released inc ≠ some pid) ∨ publish2 inc = some pid := by
  rw [owing, List.mem_append, List.mem_filter, decide_eq_true_eq, Option.mem_toList]

section

variable {ctx : Ctx} {f f' : Flow} {awaitingRel awaitingRel' owed : List UInt16} {nowUs : UInt64}
  {inc : Incoming}

theorem Good.of_other {h : Handled} (publish : publish2 h.incoming = none)
    (release : Qos2Inbound.released h.incoming = none) : Good ctx h where
  received pid found := by
    rw [publish] at found
    cases found
  released pid found := by
    rw [release] at found
    cases found

theorem arrived_dups (stats : Stats) (nowUs : UInt64) (payload : Wire.Bytes) (retain : Bool) :
    (stats.arrived nowUs payload retain).dups = stats.dups := by
  unfold Stats.arrived
  split
  · rfl
  · rfl

/-- All that a packet is owed is done, and what is owed after it is remembered. -/
structure Answered (ctx : Ctx) (h : Handled) : Prop extends Good ctx h where
  distinct : h.remembered.Nodup
  owing : ∀ pid, pid ∈ h.remembered ↔ pid ∈ owing h.owed h.incoming

theorem Answered.of_other {written : List Packet} {duplicate : Bool} (distinct : awaitingRel.Nodup)
    (publish : publish2 inc = none) (release : Qos2Inbound.released inc = none) :
    Answered ctx ⟨inc, written, duplicate, awaitingRel, awaitingRel⟩ where
  toGood := Good.of_other publish release
  distinct := distinct
  owing pid := by
    rw [mem_owing, publish, release]
    exact ⟨fun old => .inl ⟨old, nofun⟩, fun h => h.elim And.left nofun⟩

/-- What `on_incoming` does for a PUBLISH at QoS 2. -/
theorem Answered.of_publish2 {pid : UInt16} {written : List Packet} (distinct : awaitingRel.Nodup)
    (publish : publish2 inc = some pid) (release : Qos2Inbound.released inc = none)
    (answer : ack ctx .pubRec pid ∈ written) :
    Answered ctx ⟨inc, written, decide (pid ∈ awaitingRel), awaitingRel,
      if pid ∈ awaitingRel then awaitingRel else awaitingRel ++ [pid]⟩ where
  received p found := by
    cases publish.symm.trans found
    refine ⟨answer, ?_, decide_eq_true_iff⟩
    dsimp only
    split
    · assumption
    · exact List.mem_append_right _ (List.mem_singleton_self pid)
  released p found := by cases release.symm.trans found
  distinct := by
    dsimp only
    split
    · exact distinct
    · rename_i new
      exact List.concat_eq_append ▸ distinct.concat new
  owing p := by
    rw [mem_owing, publish, release]
    dsimp only
    split
    · rename_i old
      exact ⟨fun h => .inl ⟨h, nofun⟩,
        fun h => h.elim And.left fun same => Option.some.inj same ▸ old⟩
    · rw [List.mem_append, List.mem_singleton, Option.some.injEq, eq_comm (a := p)]
      exact or_congr_left ⟨fun h => ⟨h, nofun⟩, And.left⟩

/-- What `on_incoming` does for a PUBREL. -/
theorem Answered.of_pubRel {pid : UInt16} {written : List Packet} {duplicate : Bool}
    (distinct : awaitingRel.Nodup) (answer : ack ctx .pubComp pid ∈ written) :
    Answered ctx ⟨.pubRel pid, written, duplicate, awaitingRel,
      match awaitingRel.findIdx? (· = pid) with
      | some pos => swapRemove awaitingRel pos
      | none => awaitingRel⟩ := by
  have good : ∀ rest, Good ctx ⟨.pubRel pid, written, duplicate, awaitingRel, rest⟩ := by
    refine fun rest => ⟨nofun, fun p found => ?_⟩
    cases found
    exact answer
  have owing : ∀ p, p ∈ Qos2Inbound.owing awaitingRel (.pubRel pid) ↔ p ∈ awaitingRel ∧
    p ≠ pid := by
    intro p
    rw [mem_owing]
    exact (or_iff_left nofun).trans
      (and_congr_right fun _ => not_congr (Option.some_inj.trans eq_comm))
  split
  · rename_i pos found
    have within := (List.findIdx?_eq_some_iff_getElem.mp found).1
    refine ⟨good _, (swapRemove_perm within).nodup_iff.mpr (distinct.eraseIdx pos), fun p => ?_⟩
    rw [owing, mem_swapRemove distinct found]
  · rename_i absent
    refine ⟨good _, distinct, fun p => ?_⟩
    rw [owing]
    rw [List.findIdx?_eq_none_iff] at absent
    exact (and_iff_left_of_imp fun old => of_decide_eq_false (absent p old)).symm

/-- What `on_incoming` does for a packet. -/
theorem onIncoming_answered (distinct : awaitingRel.Nodup)
    (h : onIncoming ctx nowUs f awaitingRel inc = .ok (f', awaitingRel')) :
    Answered ctx
      ⟨inc, f'.pending, decide (f'.stats.dups ≠ f.stats.dups), awaitingRel, awaitingRel'⟩ := by
  cases inc with
  | publish topic payload qos retain packetId =>
      have count := arrived_dups f.stats nowUs payload retain
      unfold onIncoming at h
      dsimp only at h
      split_ifs at h with one two
      · cases h
        refine Answered.of_other distinct (if_neg ?_) rfl
        rw [one]
        decide
      · cases packetId with
        | none =>
            cases h
            exact Answered.of_other distinct (if_pos two) rfl
        | some pid =>
            dsimp only at h
            obtain ⟨answer, counted, rfl⟩ : ack ctx .pubRec pid ∈ f'.pending ∧
                (f'.stats.dups ≠ f.stats.dups ↔ pid ∈ awaitingRel) ∧
                awaitingRel' =
                  if pid ∈ awaitingRel then awaitingRel else awaitingRel ++ [pid] := by
              split_ifs at h with old
              · cases h
                refine ⟨List.mem_append_right _ (List.mem_singleton_self _),
                  iff_of_true ?_ old, (if_pos old).symm⟩
                rw [← count]
                exact Nat.succ_ne_self _
              · cases h
                exact ⟨List.mem_append_right _ (List.mem_singleton_self _),
                  iff_of_false (not_not_intro count) old, (if_neg old).symm⟩
            rw [decide_eq_decide.mpr counted]
            exact Answered.of_publish2 distinct (if_pos two) rfl answer
      · cases h
        exact Answered.of_other distinct (if_neg two) rfl
  | pubRel pid =>
      cases h
      exact Answered.of_pubRel distinct (List.mem_append_right _ (List.mem_singleton_self _))
  | pubAck pid =>
      cases h
      exact Answered.of_other distinct rfl rfl
  | pubComp pid =>
      cases h
      exact Answered.of_other distinct rfl rfl
  | pubRec pid =>
      cases h
      exact Answered.of_other distinct rfl rfl
  | connAck accepted reason receiveMax =>
      cases accepted with
      | false => cases h
      | true =>
          cases h
          exact Answered.of_other distinct rfl rfl
  | serverDisconnect reason => cases h
  | subAck granted =>
      cases h
      exact Answered.of_other distinct rfl rfl
  | pingResp =>
      cases h
      exact Answered.of_other distinct rfl rfl
  | ignored =>
      cases h
      exact Answered.of_other distinct rfl rfl

end

/-! ## The packets of a session -/

/-- The identifiers that a client remembers. -/
def remembered (c : Client) : List UInt16 :=
  match c.phase with
  | .traffic t | .draining t => t.awaitingRel
  | _ => []

/-- The client is in `wait_for`. -/
def settingUp (c : Client) : Bool :=
  match c.phase with
  | .handshake | .subscribing _ => true
  | _ => false

/-- The client has a session. -/
def inSession (c : Client) : Bool :=
  match c.phase with
  | .handshake | .subscribing _ | .traffic _ | .draining _ => true
  | _ => false

/-- The packet that is read. -/
def incoming : Event → Option Incoming
  | .packet pkt _ => some (classify pkt)
  | _ => none

/-- A client, the identifiers that were received in its session and are not released, and the
packets that it has handled. -/
structure State : Type where
  client : Client := {}
  owed : List UInt16 := []
  log : List Handled := []

/-- What is recorded of a packet. -/
def record (s : State) (stats : Stats) (e : Effect) (inc : Incoming) : Handled where
  incoming := inc
  written := e.written
  duplicate := e.stats.dups ≠ stats.dups
  owed := s.owed
  remembered := remembered e.client

/-- The state after a step, by the packet that it reads. -/
def after (s : State) (stats : Stats) (e : Effect) (read : Option Incoming) : State where
  client := e.client
  owed := if inSession e.client then read.elim s.owed (owing s.owed) else []
  log := s.log ++ (read.map (record s stats e)).toList

/-- A step of the client.  The statistics are shared with other clients: a step finds any. -/
def step (ctx : Ctx) (no : Nat) (s : State) (a : Stats × Event) : Option State := do
  let e ← s.client.step ctx no a.1 a.2
  return after s a.1 e (incoming a.2)

/-- Every packet was answered, and what is received and not released is remembered. -/
structure Right (ctx : Ctx) (s : State) : Prop where
  good : ∀ h ∈ s.log, Good ctx h
  remembered : ∀ pid ∈ s.owed, pid ∈ remembered s.client

instance (ctx : Ctx) (s : State) : Decidable (Right ctx s) :=
  have : Decidable (∀ pid ∈ s.owed, pid ∈ remembered s.client) := List.decidableBAll _ _
  decidable_of_iff ((∀ h ∈ s.log, Good ctx h) ∧ ∀ pid ∈ s.owed, pid ∈ remembered s.client)
    ⟨fun right => ⟨right.1, right.2⟩, fun right => ⟨right.1, right.2⟩⟩

/-- No packet of a QoS 2 message is read in `wait_for`. -/
def Settled (s : State) (a : Stats × Event) : Prop :=
  ∀ inc ∈ incoming a.2, settingUp s.client = true → publish2 inc = none ∧ released inc = none

instance (s : State) (a : Stats × Event) : Decidable (Settled s a) :=
  inferInstanceAs (Decidable (∀ inc ∈ incoming a.2, _ → _))

section

variable {ctx : Ctx} {no : Nat} {c : Client} {stats : Stats} {event : Event} {e : Effect}

/-- Between two packets a client remembers the same, while its session goes on. -/
theorem remembered_step (unread : incoming event = none)
    (stepped : c.step ctx no stats event = some e) :
    inSession e.client = false ∨ remembered e.client = remembered c := by
  cases Client.moves_of_step stepped with
  | packet moved => cases unread
  | start phase => exact .inl rfl
  | quit phase => exact .inl rfl
  | connectFailed err stopped phase =>
      unfold Client.connectFailed
      dsimp only
      split
      · exact .inl rfl
      · exact .inl rfl
  | connected phase => exact .inr (by rw [remembered, remembered, phase])
  | timeout outcome phase => exact .inl rfl
  | readError err outcome => exact .inl rfl
  | writeError err outcome => exact .inl rfl
  | pubTick clock phase going =>
      unfold Client.pubTick
      dsimp only
      split
      · exact .inl rfl
      · exact .inr (by rw [remembered, remembered, phase])
  | ping => exact .inr rfl
  | noPing => exact .inr rfl
  | sweepTick walk nowUs phase swept => exact .inr (by rw [remembered, remembered, phase])
  | drain phase drain => exact .inr (by rw [remembered, remembered, phase])
  | stop drain => exact .inl rfl
  | kick => exact .inl rfl
  | drained => exact .inl rfl
  | close stopped phase =>
      rename_i outcome
      rcases Client.close_client ctx stats outcome stopped with client | client
      · exact .inl (by rw [client]; rfl)
      · exact .inl (by rw [client]; rfl)

/-- `wait_for` drops a PUBREL. -/
theorem waitFor_pubRel (ctx : Ctx) (inc : Incoming) (want : Want) (nowUs : UInt64) (stats : Stats)
    (release : Qos2Inbound.released inc ≠ none) :
    waitFor ctx want nowUs stats inc = (stats, [], none) := by
  cases inc with
  | pubRel pid => rfl
  | _ => exact absurd rfl release

/-- What is done for a packet in `wait_for`. -/
theorem packet_settingUp {pkt : Packet} {nowUs : UInt64}
    (stepped : c.step ctx no stats (.packet pkt nowUs) = some e) (setup : settingUp c = true) :
    remembered e.client = [] ∧ (Qos2Inbound.released (classify pkt) ≠ none → e.written = []) := by
  change Client.packet ctx no c stats pkt nowUs = some e at stepped
  unfold Client.packet at stepped
  unfold settingUp at setup
  split at stepped
  · rename_i phase
    have dropped := waitFor_pubRel ctx (classify pkt) .connAck nowUs stats
    split at stepped
    · rename_i stats' written waited
      cases stepped
      refine ⟨by rw [remembered, phase], fun release => ?_⟩
      cases waited.symm.trans (dropped release)
      rfl
    · rename_i stats' written receiveMax waited
      cases stepped
      refine ⟨?_, fun release => by cases waited.symm.trans (dropped release)⟩
      unfold Client.establish
      dsimp only
      split
      · rfl
      · rfl
    · rename_i stats' written err waited
      cases stepped
      exact ⟨rfl, fun release => by cases waited.symm.trans (dropped release)⟩
  · rename_i receiveMax phase
    have dropped := waitFor_pubRel ctx (classify pkt) .subAck nowUs stats
    split at stepped
    · rename_i stats' written waited
      cases stepped
      refine ⟨by rw [remembered, phase], fun release => ?_⟩
      cases waited.symm.trans (dropped release)
      rfl
    · rename_i stats' written granted waited
      cases stepped
      exact ⟨rfl, fun release => by cases waited.symm.trans (dropped release)⟩
    · rename_i stats' written err waited
      cases stepped
      exact ⟨rfl, fun release => by cases waited.symm.trans (dropped release)⟩
  · rename_i t phase
    rw [phase] at setup
    cases setup
  · rename_i t phase
    rw [phase] at setup
    cases setup
  · cases stepped

/-- What is done for a packet in `traffic` and `drain`. -/
theorem packet_answered {pkt : Packet} {nowUs : UInt64} (distinct : (remembered c).Nodup)
    (stepped : c.step ctx no stats (.packet pkt nowUs) = some e) (setup : settingUp c = false) :
    (inSession e.client = false ∧ publish2 (classify pkt) = none ∧
        Qos2Inbound.released (classify pkt) = none) ∨
      inSession e.client = true ∧
      Answered ctx ⟨classify pkt, e.written, decide (e.stats.dups ≠ stats.dups), remembered c,
        remembered e.client⟩ := by
  have received : ∀ {t : Traffic} {phase : Traffic → Phase},
      phase = .traffic ∨ phase = .draining → c.phase = phase t →
      e = Client.receive ctx c stats t phase pkt nowUs →
      (inSession e.client = false ∧ publish2 (classify pkt) = none ∧
          Qos2Inbound.released (classify pkt) = none) ∨
        inSession e.client = true ∧
        Answered ctx ⟨classify pkt, e.written, decide (e.stats.dups ≠ stats.dups), remembered c,
          remembered e.client⟩ := by
    rintro t phase running at_t rfl
    have knows : ∀ t' (c' : Client), c'.phase = phase t' →
        remembered c' = t'.awaitingRel ∧ inSession c' = true := by
      intro t' c' at_t'
      unfold remembered inSession
      rcases running with rfl | rfl
      · rw [at_t']
        exact ⟨rfl, rfl⟩
      · rw [at_t']
        exact ⟨rfl, rfl⟩
    have before := (knows t c at_t).1
    rw [before] at distinct ⊢
    unfold Client.receive
    split
    · rename_i f awaitingRel ok
      obtain ⟨after, going⟩ := knows { t with out := f.out, awaitingRel }
        { c with phase := phase { t with out := f.out, awaitingRel } } rfl
      refine .inr ⟨going, ?_⟩
      dsimp only
      rw [after]
      exact onIncoming_answered distinct ok
    · rename_i err refused
      refine .inl ⟨rfl, ?_⟩
      rcases onIncoming_error refused with ⟨reason, eq⟩ | ⟨reason, receiveMax, eq⟩
      · rw [eq]
        exact ⟨rfl, rfl⟩
      · rw [eq]
        exact ⟨rfl, rfl⟩
  change Client.packet ctx no c stats pkt nowUs = some e at stepped
  unfold Client.packet at stepped
  unfold settingUp at setup
  split at stepped
  · rename_i phase
    rw [phase] at setup
    cases setup
  · rename_i phase
    rw [phase] at setup
    cases setup
  · rename_i t phase
    cases stepped
    exact received (.inl rfl) phase rfl
  · rename_i t phase
    cases stepped
    exact received (.inr rfl) phase rfl
  · cases stepped

theorem remembered_of_ended (ended : inSession c = false) : remembered c = [] := by
  unfold inSession at ended
  unfold remembered
  generalize c.phase = phase at ended
  cases phase with
  | traffic t => cases ended
  | draining t => cases ended
  | _ => rfl

theorem remembered_of_settingUp (setup : settingUp c = true) : remembered c = [] := by
  unfold settingUp at setup
  unfold remembered
  generalize c.phase = phase at setup
  cases phase with
  | traffic t => cases setup
  | draining t => cases setup
  | _ => rfl

/-- A packet that `wait_for` handles well is of no exchange. -/
theorem Good.settingUp {inc : Incoming} {written : List Packet} {duplicate : Bool}
    {owed : List UInt16} (good : Good ctx ⟨inc, written, duplicate, owed, []⟩)
    (dropped : Qos2Inbound.released inc ≠ none → written = []) :
    publish2 inc = none ∧ Qos2Inbound.released inc = none := by
  constructor
  · refine Option.eq_none_iff_forall_ne_some.mpr fun pid found => ?_
    exact absurd (good.received pid found).2.1 List.not_mem_nil
  · refine Option.eq_none_iff_forall_ne_some.mpr fun pid found => ?_
    have answer := good.released pid found
    rw [dropped (by rw [found]; nofun)] at answer
    exact absurd answer List.not_mem_nil

end

/-! ## Runs -/

/-- What is remembered is owed; and it is all that is owed, as long as every packet was answered. -/
structure Inv (ctx : Ctx) (s : State) : Prop where
  distinct : (remembered s.client).Nodup
  owed : ∀ pid ∈ remembered s.client, pid ∈ s.owed
  good : (∀ h ∈ s.log, Good ctx h) → ∀ pid ∈ s.owed, pid ∈ remembered s.client

section

variable {ctx : Ctx} {no : Nat} {s s' : State}

theorem Inv.of_ended {c : Client} (ended : inSession c = false) (log : List Handled) :
    Inv ctx ⟨c, [], log⟩ where
  distinct := by
    dsimp only
    rw [remembered_of_ended ended]
    exact List.nodup_nil
  owed pid found := by
    dsimp only at found
    rw [remembered_of_ended ended] at found
    exact found
  good _ pid found := absurd found List.not_mem_nil

/-- The entry that a packet adds to the log. -/
theorem log_good {log : List Handled} {h : Handled} :
    (∀ x ∈ log ++ [h], Good ctx x) ↔ (∀ x ∈ log, Good ctx x) ∧ Good ctx h := by
  rw [List.forall_mem_append, List.forall_mem_singleton]

theorem after_packet {stats : Stats} {e : Effect} (going : inSession e.client = true)
    (inc : Incoming) : after s stats e (some inc) =
      ⟨e.client, owing s.owed inc, s.log ++ [record s stats e inc]⟩ := by
  rw [after, going]
  rfl

/-- A packet in `wait_for`. -/
theorem after_settingUp {pkt : Packet} {nowUs : UInt64} {stats : Stats} {e : Effect}
    (inv : Inv ctx s) (moved : s.client.step ctx no stats (.packet pkt nowUs) = some e)
    (setup : settingUp s.client = true) :
    Inv ctx (after s stats e (some (classify pkt))) ∧
      (Good ctx (record s stats e (classify pkt)) ↔ publish2 (classify pkt) = none ∧
        released (classify pkt) = none) := by
  obtain ⟨nothing, dropped⟩ := packet_settingUp moved setup
  have other : Good ctx (record s stats e (classify pkt)) → publish2 (classify pkt) = none ∧
      released (classify pkt) = none := by
    intro good
    rw [record, nothing] at good
    exact good.settingUp dropped
  refine ⟨?_, other, fun h => Good.of_other h.1 h.2⟩
  cases going : inSession e.client with
  | false =>
      rw [after, going]
      exact Inv.of_ended going _
  | true =>
      rw [after_packet going]
      refine ⟨?_, ?_, fun good pid owed => ?_⟩
      · dsimp only
        rw [nothing]
        exact List.nodup_nil
      · dsimp only
        rw [nothing]
        exact nofun
      · obtain ⟨before, new⟩ := log_good.mp good
        obtain ⟨publish, release⟩ := other new
        dsimp only at owed
        rw [mem_owing, publish] at owed
        rcases owed with ⟨old, -⟩ | new
        · have known := inv.good before pid old
          rw [remembered_of_settingUp setup] at known
          exact absurd known List.not_mem_nil
        · cases new

/-- A packet in `traffic` and `drain`. -/
theorem after_answered {pkt : Packet} {nowUs : UInt64} {stats : Stats} {e : Effect}
    (inv : Inv ctx s) (moved : s.client.step ctx no stats (.packet pkt nowUs) = some e)
    (setup : settingUp s.client = false) :
    Inv ctx (after s stats e (some (classify pkt))) ∧
      ((∀ h ∈ s.log, Good ctx h) → Good ctx (record s stats e (classify pkt))) := by
  rcases packet_answered inv.distinct moved setup with
    ⟨ended, publish, release⟩ | ⟨going, answered⟩
  · refine ⟨?_, fun _ => Good.of_other publish release⟩
    rw [after, ended]
    exact Inv.of_ended ended _
  · have knows : (∀ h ∈ s.log, Good ctx h) → ∀ pid, pid ∈ remembered s.client ↔ pid ∈ s.owed :=
      fun good pid => ⟨inv.owed pid, inv.good good pid⟩
    rw [after_packet going]
    refine ⟨⟨answered.distinct, fun pid found => ?_, fun good pid owed => ?_⟩, fun good =>
      ⟨fun pid found => ?_, answered.released⟩⟩
    · refine mem_owing.mpr ?_
      exact (mem_owing.mp ((answered.owing pid).mp found)).imp_left (And.imp_left (inv.owed pid))
    · obtain ⟨before, -⟩ := log_good.mp good
      refine (answered.owing pid).mpr (mem_owing.mpr ?_)
      exact (mem_owing.mp owed).imp_left (And.imp_left (knows before pid).mpr)
    · obtain ⟨answer, stays, duplicate⟩ := answered.received pid found
      exact ⟨answer, stays, duplicate.trans (knows good pid)⟩

/-- A step that reads no packet. -/
theorem after_none {event : Event} {stats : Stats} {e : Effect} (inv : Inv ctx s)
    (unread : incoming event = none) (moved : s.client.step ctx no stats event = some e) :
    Inv ctx (after s stats e none) := by
  cases going : inSession e.client with
  | false =>
      rw [after, going]
      exact Inv.of_ended going _
  | true =>
      have same := (remembered_step unread moved).resolve_left (by rw [going]; decide)
      rw [after, going, if_pos rfl]
      refine ⟨?_, ?_, ?_⟩
      · dsimp only
        rw [same]
        exact inv.distinct
      · dsimp only
        rw [same]
        exact inv.owed
      · intro good
        dsimp only at good ⊢
        rw [same]
        exact inv.good fun h old => good h (List.mem_append_left _ old)

theorem step_settled (inv : Inv ctx s) {a : Stats × Event} (stepped : step ctx no s a = some s') :
    Inv ctx s' ∧ ((∀ h ∈ s'.log, Good ctx h) ↔ (∀ h ∈ s.log, Good ctx h) ∧ Settled s a) := by
  obtain ⟨stats, event⟩ := a
  obtain ⟨e, moved, eq⟩ := Option.bind_eq_some_iff.mp stepped
  cases eq
  cases read : incoming event with
  | none =>
      refine ⟨after_none inv read moved, ?_⟩
      have settled : Settled s (stats, event) := by
        intro inc found
        cases read.symm.trans found
      change (∀ h ∈ s.log ++ [], Good ctx h) ↔ _
      rw [List.append_nil]
      exact (and_iff_left settled).symm
  | some inc =>
      obtain ⟨pkt, nowUs, rfl⟩ : ∃ pkt nowUs, event = .packet pkt nowUs := by
        cases event with
        | packet pkt nowUs => exact ⟨pkt, nowUs, rfl⟩
        | _ => cases read
      cases read
      have condition : Settled s (stats, .packet pkt nowUs) ↔ (settingUp s.client = true →
          publish2 (classify pkt) = none ∧ released (classify pkt) = none) :=
        ⟨fun h => h _ rfl, fun h inc found => Option.some.inj found ▸ h⟩
      rw [condition]
      cases setup : settingUp s.client with
      | true =>
          obtain ⟨kept, exactly⟩ := after_settingUp inv moved setup
          refine ⟨kept, log_good.trans (and_congr_right fun _ => exactly.trans ?_)⟩
          exact ⟨fun h _ => h, fun h => h rfl⟩
      | false =>
          obtain ⟨kept, good⟩ := after_answered inv moved setup
          exact ⟨kept, log_good.trans (and_congr_right fun before =>
            iff_of_true (good before) nofun)⟩

/-- A session answers every packet of a QoS 2 exchange as it should, and remembers what is received
and not released, exactly when no such packet is read before the traffic begins. -/
theorem exchanges_iff (ctx : Ctx) (no : Nat) (actions : List (Stats × Event))
    (ran : Machine.run (step ctx no) {} actions = some s') :
    Right ctx s' ↔ Machine.Guarded (step ctx no) Settled {} actions := by
  have start : Inv ctx {} := Inv.of_ended rfl []
  have reached : Inv ctx s' :=
    Machine.invariant_run (fun _ _ _ inv stepped => (step_settled inv stepped).1) ran start
  have right : Right ctx s' ↔ ∀ h ∈ s'.log, Good ctx h :=
    ⟨Right.good, fun good => ⟨good, reached.good good⟩⟩
  rw [right, Machine.iff_guarded (P := fun s => ∀ h ∈ s.log, Good ctx h)
    (fun _ _ _ inv stepped => (step_settled inv stepped).1)
    (fun _ _ _ inv stepped => (step_settled inv stepped).2) ran start]
  exact and_iff_right nofun

end

/-- A client that subscribes. -/
def subscriber : Ctx where
  args := { publisher.args with sub := true }
  proto := .v5
  peers := publisher.peers
  processId := 1

/-- A QoS 2 message. -/
def message (dup : Bool) : Event :=
  .packet (.publish ⟨"t", [], .exactlyOnce, false, dup, some 7⟩) 0

def release : Event := .packet (.pubRel 7 0) 0

/-- The message comes when the session is set up, and comes again. -/
def exchange : List Event :=
  [.start, .connected, .packet (.connAck 0 false none) 0, .packet (.subAck 1 [2]) 0, message false,
    message true, release]

theorem exchanges_subscriber :
    ∃ s ∈ Machine.run (step subscriber 0) {} (exchange.map ({}, ·)), Right subscriber s := by
  have ran : (Machine.run (step subscriber 0) {} (exchange.map ({}, ·))).isSome := by decide
  exact ⟨_, Option.get_mem ran,
    (exchanges_iff subscriber 0 _ (Option.get_mem ran)).mpr (by decide)⟩

/-- A message that comes before the SUBACK: its PUBREC is sent, its identifier is not remembered,
and its PUBREL is not answered. -/
theorem early_message :
    ∃ s ∈ Machine.run (step subscriber 0) {} ([.start, .connected,
        .packet (.connAck 0 false none) 0, message false, release].map ({}, ·)),
      (s.log.map fun h => (h.written, h.remembered)).tail = [([.pubRec 7 0], []), ([], [])] ∧
        ¬ Right subscriber s := by
  decide

end Qos2Inbound

end OxiMqtt.Bench

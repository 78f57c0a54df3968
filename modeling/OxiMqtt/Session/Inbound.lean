import Mathlib.Data.Finset.Card
import OxiMqtt.Codec.V5.Acks
import OxiMqtt.Lib.Process
import OxiMqtt.Lib.Trace

/-!
# Inbound publishes of a session

What `session.rs` does with the PUBLISH and PUBREL packets of one connection: the
window of registered packet ids (`InInflight` of `inflight.rs`), the queue of QoS 2
publishes that wait for room in it, and the acknowledgments.

The outside is a `World`: what `_publish` and the sink answer, call by call.  The
state keeps a log of what has happened, which no branch reads.

* `Inv`: what holds after every packet that was processed without an error.
* `processPacket_spec`: every packet preserves it; on an error, what was logged is
  still sound.
* `inbound_engine`: the same for a whole connection, spelled out.
-/

namespace OxiMqtt.Session.Inbound

open Process
open OxiMqtt.Codec (QoS NonZeroU16 Publish UserProperties ByteString)

/-- The reasons that end the processing of a packet. -/
inductive Reason : Type
  | inflightWindowFull
  | packetIdInUse (packetId : NonZeroU16)
  | protocolError (msg : String)
  | publishAckReason (code : Codec.V5.PublishAckReason) (reason : ByteString)
  | other (msg : String)
  deriving DecidableEq, Repr

/-- `PublishResult` -/
structure PublishResult : Type where
  reasonCode : Codec.V5.PublishAckReason := .success
  properties : UserProperties := []
  reasonString : Option ByteString := none
  disconnect : Bool := false
  deriving DecidableEq, Repr

/-- `PublishResult::success` -/
def PublishResult.success : PublishResult := {}

/-- `PublishResult::is_success` -/
def PublishResult.isSuccess (r : PublishResult) : Bool := r.reasonCode == .success

/-! ## The inbound window -/

/-- `InInflight` -/
structure InInflight : Type where
  cached : Finset NonZeroU16
  maxInflight : UInt16

namespace InInflight

/-- `InInflight::is_full` -/
def isFull (w : InInflight) : Bool := w.cached.card ≥ w.maxInflight.toNat

/-- `InInflight::contains` -/
def contains (w : InInflight) (pid : NonZeroU16) : Bool := pid ∈ w.cached

/-- `InInflight::add` -/
def add (w : InInflight) (pid : NonZeroU16) (qos : QoS) : Except Reason (Bool × InInflight) :=
  if w.cached.card ≥ w.maxInflight.toNat then .error .inflightWindowFull
  else if pid ∉ w.cached then .ok (true, { w with cached := insert pid w.cached })
  else if qos = .exactlyOnce then .error (.packetIdInUse pid)
  else .ok (false, w)

/-- `InInflight::remove` -/
def remove (w : InInflight) (pid : NonZeroU16) : InInflight :=
  { w with cached := w.cached.erase pid }

theorem add_of_notMem {w : InInflight} {pid : NonZeroU16} {q : QoS} (room : w.isFull = false)
    (fresh : pid ∉ w.cached) :
    w.add pid q = .ok (true, { w with cached := insert pid w.cached }) := by
  rw [add, if_neg (by simpa [isFull] using room), if_pos fresh]

/-- What `add` does with a QoS 1 packet id. -/
theorem add_qos1 (w : InInflight) (pid : NonZeroU16) :
    w.add pid .atLeastOnce = .error .inflightWindowFull ∨
      ∃ res w', w.add pid .atLeastOnce = .ok (res, w') ∧
        (if res then w'.remove pid else w') = w := by
  unfold add
  by_cases full : w.cached.card ≥ w.maxInflight.toNat
  · exact .inl (if_pos full)
  · rw [if_neg full]
    by_cases fresh : pid ∉ w.cached
    · rw [if_pos fresh]
      exact .inr ⟨_, _, rfl, by simp [remove, Finset.erase_insert fresh]⟩
    · rw [if_neg fresh]
      exact .inr ⟨false, w, rfl, rfl⟩

end InInflight

/-! ## The session -/

/-- What has happened so far. -/
inductive Event : Type
  /-- A PUBREL has arrived. -/
  | pubrel (packetId : NonZeroU16)
  /-- A QoS 2 publish has arrived that is no duplicate and not left for a retry. -/
  | accepted (packetId : NonZeroU16) (publish : Publish)
  /-- A QoS 2 publish was handed to `publish`, with this result. -/
  | handed (packetId : NonZeroU16) (publish : Publish) (res : Except Reason PublishResult)
  /-- The window has refused a packet id in `ack_qos2_inbound`. -/
  | addError (packetId : NonZeroU16)
  /-- `send_publish_received` was called with this result. -/
  | received (packetId : NonZeroU16) (res : PublishResult)

/-- The part of `SessionState` that inbound publishes use, the number of calls to the
outside so far, and the log. -/
structure State : Type where
  inInflight : InInflight
  qos2Pending : List (NonZeroU16 × Publish)
  calls : Nat
  log : List Event

/-- What `_publish` and the sink answer to the `n`-th call. -/
structure World : Type where
  publish : Nat → Publish → Except Reason PublishResult
  send : Nat → Except Reason Unit

/-- `SESSION_QOS2_PENDING_CAP` -/
def SESSION_QOS2_PENDING_CAP : Nat := 4096

abbrev Proc (α : Type) : Type := EStateM Reason State α

namespace State

/-- A new session. -/
def new (maxInflight : UInt16) : State where
  inInflight := ⟨∅, maxInflight⟩
  qos2Pending := []
  calls := 0
  log := []

def logged (s : State) (e : Event) : State := { s with log := s.log ++ [e] }

def called (s : State) : State := { s with calls := s.calls + 1 }

def withPending (s : State) (pending : List (NonZeroU16 × Publish)) : State :=
  { s with qos2Pending := pending }

def released (s : State) (pid : NonZeroU16) : State :=
  { s with inInflight := s.inInflight.remove pid }

def registered (s : State) (pid : NonZeroU16) : State :=
  { s with inInflight := { s.inInflight with cached := insert pid s.inInflight.cached } }

end State

variable (world : World)

/-- The answer of `_publish` as `publish` hands it on: a result that asks for a
disconnect is an error. -/
def checked : Except Reason PublishResult → Except Reason PublishResult
  | .error e => .error e
  | .ok res =>
      if res.isSuccess then .ok res
      else if res.disconnect then
        .error (.publishAckReason res.reasonCode (res.reasonString.getD ""))
      else .ok res

/-- `SessionState::publish` -/
def publish (m : Publish) : Proc (Except Reason PublishResult) := do
  let s ← get
  set s.called
  return checked (world.publish s.calls m)

/-- A packet is written to the sink. -/
def send : Proc (Except Reason Unit) := do
  let s ← get
  set s.called
  return world.send s.calls

/-- `Sink::send_publish_received` -/
def sendPublishReceived (packetId : NonZeroU16) (res : PublishResult) : Proc (Except Reason Unit) := do
  modify (·.logged (.received packetId res))
  send world

/-- `Result::is_err` -/
def isErr {α : Type} : Except Reason α → Bool
  | .ok _ => false
  | .error _ => true

/-- `?` -/
def orReturn {α : Type} : Except Reason α → Proc α
  | .ok a => return a
  | .error e => throw e

/-- The registration of a QoS 2 packet id in `ack_qos2_inbound`. -/
def addQos2 (packetId : NonZeroU16) : Proc Bool := do
  let s ← get
  match s.inInflight.add packetId .exactlyOnce with
  | .ok (res, w) => do
      set { s with inInflight := w }
      return res
  | .error e => do
      set (s.logged (.addError packetId))
      throw e

/-- Only a publish with a successful result takes a slot of the window. -/
def register (packetId : NonZeroU16) (pubRes : PublishResult) : Proc Bool :=
  if pubRes.isSuccess then addQos2 packetId else pure false

/-- `SessionState::ack_qos2_inbound` -/
def ackQos2Inbound (packetId : NonZeroU16) (m : Publish) : Proc Unit := do
  let res ← publish world m
  modify (·.logged (.handed packetId m res))
  let pubRes ← orReturn res
  let inflightRes ← register packetId pubRes
  let recRes ← sendPublishReceived world packetId pubRes
  modify fun s => if inflightRes && isErr recRes then s.released packetId else s
  orReturn recRes

/-- The loop of `drain_qos2_pending`; `fuel` bounds the iterations left. -/
def drainLoop : Nat → Proc Unit
  | 0 => return ()
  | fuel + 1 => do
      let s ← get
      match s.qos2Pending with
      | [] => return ()
      | (packetId, m) :: rest =>
          -- the publish is put back in front
          if s.inInflight.isFull then return ()
          else do
            set (s.withPending rest)
            ackQos2Inbound world packetId m
            drainLoop fuel

/-- `SessionState::drain_qos2_pending`; every iteration takes one publish off the
queue, so its length bounds them. -/
def drainQos2Pending : Proc Unit := do
  let s ← get
  drainLoop world s.qos2Pending.length

/-- `SessionState::packet_id` -/
def packetId : Option NonZeroU16 → Proc NonZeroU16
  | some pid => return pid
  | none => throw (.protocolError "packet_id is None")

/-- The PUBACK of a QoS 1 publish, unless the publish has failed. -/
def answerQos1 : Except Reason PublishResult → Proc (Except Reason Unit)
  | .error e => pure (.error e)
  | .ok _ => send world

/-- The QoS 1 arm of `process_publish`; a failed publish and an answered one give the
slot back alike. -/
def processQos1 (pid : NonZeroU16) (m : Publish) : Proc Unit := do
  let s ← get
  let (inflightRes, w) ← orReturn (s.inInflight.add pid .atLeastOnce)
  set { s with inInflight := w }
  let res ← publish world m
  let ackRes ← answerQos1 world res
  modify fun s => if inflightRes then s.released pid else s
  orReturn ackRes

/-- The QoS 2 arm of `process_publish`. -/
def processQos2 (pid : NonZeroU16) (m : Publish) : Proc Unit := do
  let s ← get
  if s.qos2Pending.any (·.1 == pid) then return ()
  else if s.inInflight.contains pid then do
    let res ← sendPublishReceived world pid .success
    orReturn res
  else if s.inInflight.isFull then
    if s.qos2Pending.length ≥ SESSION_QOS2_PENDING_CAP then return ()
    else set ((s.withPending (s.qos2Pending ++ [(pid, m)])).logged (.accepted pid m))
  else do
    set (s.logged (.accepted pid m))
    ackQos2Inbound world pid m

/-- `SessionState::process_publish` -/
def processPublish (m : Publish) : Proc Unit :=
  match m.qos with
  | .atLeastOnce => do processQos1 world (← packetId m.packetId) m
  | .exactlyOnce => do processQos2 world (← packetId m.packetId) m
  | .atMostOnce => do
      let res ← publish world m
      let _ ← orReturn res

/-- The `PublishRelease` arm of `process_mqtt_message`. -/
def processPublishRelease (pid : NonZeroU16) : Proc Unit := do
  modify fun s => (s.logged (.pubrel pid)).released pid
  let res ← send world
  orReturn res
  drainQos2Pending world

/-- The packets of the inbound side. -/
inductive Packet : Type
  | publish (publish : Publish)
  | publishRelease (packetId : NonZeroU16)

/-- `SessionState::process_mqtt_message`, for these packets. -/
def processPacket : Packet → Proc Unit
  | .publish m => processPublish world m
  | .publishRelease pid => processPublishRelease world pid

/-- The packets of a connection, until one ends it. -/
def processPackets (packets : List Packet) : Proc Unit := packets.forM (processPacket world)

/-! ## The log -/

/-- The accepted publishes, in the order of their arrival. -/
def accepted (log : List Event) : List (NonZeroU16 × Publish) :=
  log.filterMap fun
    | .accepted pid m => some (pid, m)
    | _ => none

/-- The publishes that were handed over, in order. -/
def handed (log : List Event) : List (NonZeroU16 × Publish) :=
  log.filterMap fun
    | .handed pid m _ => some (pid, m)
    | _ => none

section LogLemmas

variable (log : List Event) (pid : NonZeroU16) (m : Publish) (res : Except Reason PublishResult)
  (r : PublishResult)

@[simp] theorem accepted_accepted :
    accepted (log ++ [.accepted pid m]) = accepted log ++ [(pid, m)] := by simp [accepted]

@[simp] theorem accepted_handed :
    accepted (log ++ [.handed pid m res]) = accepted log := by simp [accepted]

@[simp] theorem accepted_received :
    accepted (log ++ [.received pid r]) = accepted log := by simp [accepted]

@[simp] theorem accepted_pubrel : accepted (log ++ [.pubrel pid]) = accepted log := by
  simp [accepted]

@[simp] theorem handed_accepted :
    handed (log ++ [.accepted pid m]) = handed log := by simp [handed]

@[simp] theorem handed_handed :
    handed (log ++ [.handed pid m res]) = handed log ++ [(pid, m)] := by simp [handed]

@[simp] theorem handed_received :
    handed (log ++ [.received pid r]) = handed log := by simp [handed]

@[simp] theorem handed_pubrel : handed (log ++ [.pubrel pid]) = handed log := by simp [handed]

end LogLemmas

/-- A publish with this packet id was handed over with success, and no PUBREL for it
has arrived since. -/
def Open (pid : NonZeroU16) (log : List Event) : Prop :=
  ∃ before m r after, log = before ++ .handed pid m (.ok r) :: after ∧ r.isSuccess = true ∧
    .pubrel pid ∉ after

/-- What is never seen in a log: a second hand-over of an open packet id, a success
PUBREC for one that is not open, and a refused registration. -/
structure Sound (log : List Event) : Prop where
  handed : ∀ before pid m r after, log = before ++ .handed pid m (.ok r) :: after →
    r.isSuccess = true → ¬ Open pid before
  received : ∀ before pid r after, log = before ++ .received pid r :: after →
    r.isSuccess = true → Open pid before
  added : ∀ pid, .addError pid ∉ log

/-- How one more event changes what is open. -/
theorem open_snoc {pid : NonZeroU16} {log : List Event} {e : Event} : Open pid (log ++ [e]) ↔
    (∃ m r, e = .handed pid m (.ok r) ∧ r.isSuccess = true) ∨
      Open pid log ∧ e ≠ .pubrel pid := by
  constructor
  · rintro ⟨before, m, r, after, split, success, since⟩
    rcases Trace.snoc_eq_append_cons split with ⟨-, last, -⟩ | ⟨mid, rfl, rfl⟩
    · exact .inl ⟨m, r, last.symm, success⟩
    · rw [List.mem_append, List.mem_singleton, not_or] at since
      exact .inr ⟨⟨before, m, r, mid, rfl, success, since.1⟩, Ne.symm since.2⟩
  · rintro (⟨m, r, rfl, success⟩ | ⟨⟨before, m, r, after, rfl, success, since⟩, other⟩)
    · exact ⟨log, m, r, [], rfl, success, List.not_mem_nil⟩
    · refine ⟨before, m, r, after ++ [e], by rw [List.append_assoc, List.cons_append], success, ?_⟩
      rw [List.mem_append, List.mem_singleton, not_or]
      exact ⟨since, Ne.symm other⟩

theorem open_accepted {pid q : NonZeroU16} {log : List Event} {m : Publish} :
    Open pid (log ++ [.accepted q m]) ↔ Open pid log := by
  simp [open_snoc]

theorem open_received {pid q : NonZeroU16} {log : List Event} {r : PublishResult} :
    Open pid (log ++ [.received q r]) ↔ Open pid log := by
  simp [open_snoc]

theorem open_pubrel {pid q : NonZeroU16} {log : List Event} :
    Open pid (log ++ [.pubrel q]) ↔ Open pid log ∧ q ≠ pid := by
  simp [open_snoc]

theorem open_handed {pid q : NonZeroU16} {log : List Event} {m : Publish} {r : PublishResult} :
    Open pid (log ++ [.handed q m (.ok r)]) ↔ r.isSuccess = true ∧ pid = q ∨ Open pid log := by
  rw [open_snoc]
  constructor
  · rintro (⟨m', r', he, success⟩ | ⟨opened, -⟩)
    · obtain ⟨rfl, -, same⟩ := Event.handed.inj he
      cases same
      exact .inl ⟨success, rfl⟩
    · exact .inr opened
  · rintro (⟨success, rfl⟩ | opened)
    · exact .inl ⟨m, r, rfl, success⟩
    · exact .inr ⟨opened, by simp⟩

theorem Sound.snoc {log : List Event} {e : Event} (sound : Sound log)
    (handed : ∀ pid m r, e = .handed pid m (.ok r) → r.isSuccess = true → ¬ Open pid log)
    (received : ∀ pid r, e = .received pid r → r.isSuccess = true → Open pid log)
    (added : ∀ pid, e ≠ .addError pid) : Sound (log ++ [e]) where
  handed before pid m r after split success := by
    rcases Trace.snoc_eq_append_cons split with ⟨rfl, last, -⟩ | ⟨mid, -, rfl⟩
    · exact handed pid m r last.symm success
    · exact sound.handed before pid m r mid rfl success
  received before pid r after split success := by
    rcases Trace.snoc_eq_append_cons split with ⟨rfl, last, -⟩ | ⟨mid, -, rfl⟩
    · exact received pid r last.symm success
    · exact sound.received before pid r mid rfl success
  added pid mem := by
    rcases List.mem_append.mp mem with old | new
    · exact sound.added pid old
    · exact added pid (List.mem_singleton.mp new).symm

/-! ## The invariant -/

/-- What holds of a session that has taken the publishes `hand` off its queue. -/
structure Core (max : UInt16) (hand : List (NonZeroU16 × Publish)) (s : State) : Prop where
  limit : s.inInflight.maxInflight = max
  window : s.inInflight.cached.card ≤ s.inInflight.maxInflight.toNat
  distinct : ((hand ++ s.qos2Pending).map Prod.fst).Nodup
  disjoint : ∀ e ∈ hand ++ s.qos2Pending, e.1 ∉ s.inInflight.cached
  cap : s.qos2Pending.length ≤ SESSION_QOS2_PENDING_CAP
  fifo : accepted s.log = handed s.log ++ (hand ++ s.qos2Pending)
  opened : ∀ pid, pid ∈ s.inInflight.cached ↔ Open pid s.log
  sound : Sound s.log

/-- What holds after every packet that was processed without an error. -/
structure Inv (max : UInt16) (s : State) : Prop where
  core : Core max [] s
  full : s.qos2Pending ≠ [] → s.inInflight.isFull = true

namespace Core

variable {max : UInt16} {w : InInflight} {q rest : List (NonZeroU16 × Publish)} {n : Nat}
    {log : List Event}
  {pid : NonZeroU16} {m : Publish} {r : PublishResult}

/-- Taking the first publish off the queue. -/
theorem take (h : Core max [] ⟨w, (pid, m) :: rest, n, log⟩) :
    Core max [(pid, m)] ⟨w, rest, n, log⟩ where
  limit := h.limit
  window := h.window
  distinct := h.distinct
  disjoint := h.disjoint
  cap := Nat.le_of_succ_le h.cap
  fifo := h.fifo
  opened := h.opened
  sound := h.sound

/-- A publish that is handed over at once: nothing waits before it. -/
theorem accept (h : Core max [] ⟨w, [], n, log⟩) (fresh : pid ∉ w.cached) :
    Core max [(pid, m)] ⟨w, [], n, log ++ [.accepted pid m]⟩ where
  limit := h.limit
  window := h.window
  distinct := List.nodup_singleton pid
  disjoint e he := List.mem_singleton.mp he ▸ fresh
  cap := h.cap
  fifo := by simpa using h.fifo
  opened p := (h.opened p).trans open_accepted.symm
  sound := h.sound.snoc (by simp) (by simp) (by simp)

/-- A publish that has to wait goes to the end of the queue. -/
theorem defer (h : Core max [] ⟨w, q, n, log⟩) (fresh : pid ∉ w.cached)
    (notQueued : ∀ e ∈ q, e.1 ≠ pid) (room : q.length < SESSION_QOS2_PENDING_CAP) :
    Core max [] ⟨w, q ++ [(pid, m)], n, log ++ [.accepted pid m]⟩ where
  limit := h.limit
  window := h.window
  distinct := by
    have old : (q.map Prod.fst).Nodup := h.distinct
    rw [List.nil_append, List.map_append]
    refine old.append (List.nodup_singleton pid) fun p hp hp' => ?_
    obtain ⟨e, he, rfl⟩ := List.mem_map.mp hp
    exact notQueued e he (List.mem_singleton.mp hp')
  disjoint e he := by
    rcases List.mem_append.mp (show e ∈ q ++ [(pid, m)] from he) with old | new
    · exact h.disjoint e old
    · obtain rfl := List.mem_singleton.mp new
      exact fresh
  cap := by
    rw [List.length_append]
    exact room
  fifo := by
    have old : accepted log = handed log ++ q := h.fifo
    simp [old]
  opened p := (h.opened p).trans open_accepted.symm
  sound := h.sound.snoc (by simp) (by simp) (by simp)

/-- The hand-over is sound: the packet id in hand is not open. -/
theorem sound_handed (h : Core max [(pid, m)] ⟨w, q, n, log⟩) (res : Except Reason PublishResult) :
    Sound (log ++ [.handed pid m res]) := by
  refine h.sound.snoc (fun p m' r' he _ opened => ?_) (by simp) (by simp)
  obtain ⟨rfl, rfl, rfl⟩ := Event.handed.inj he
  exact h.disjoint (pid, m) List.mem_cons_self ((h.opened pid).mpr opened)

theorem fifo_handed (h : Core max [(pid, m)] ⟨w, q, n, log⟩) (res : Except Reason PublishResult) :
    accepted (log ++ [.handed pid m res]) = handed (log ++ [.handed pid m res]) ++ ([] ++ q) := by
  have old : accepted log = handed log ++ ([(pid, m)] ++ q) := h.fifo
  simp [old]

/-- A publish that was handed over without success takes no slot. -/
theorem handed_failure (h : Core max [(pid, m)] ⟨w, q, n, log⟩) (failed : r.isSuccess = false) :
    Core max [] ⟨w, q, n, log ++ [.handed pid m (.ok r)]⟩ where
  limit := h.limit
  window := h.window
  distinct := (List.nodup_cons.mp h.distinct).2
  disjoint e he := h.disjoint e (List.mem_cons_of_mem _ he)
  cap := h.cap
  fifo := h.fifo_handed _
  opened p := (h.opened p).trans (by rw [open_handed, failed]; simp)
  sound := h.sound_handed _

/-- A publish that was handed over with success and registered. -/
theorem handed_success (h : Core max [(pid, m)] ⟨w, q, n, log⟩) (room : w.isFull = false)
    (success : r.isSuccess = true) :
    Core max [] ⟨{ w with cached := insert pid w.cached }, q, n, log ++ [.handed pid m (.ok r)]⟩ where
  limit := h.limit
  window := by
    have fresh : pid ∉ w.cached := h.disjoint (pid, m) List.mem_cons_self
    have below : w.cached.card < w.maxInflight.toNat := by simpa [InInflight.isFull] using room
    rw [Finset.card_insert_of_notMem fresh]
    exact below
  distinct := (List.nodup_cons.mp h.distinct).2
  disjoint e he mem := by
    rcases Finset.mem_insert.mp mem with same | old
    · have mapped : e.1 ∈ q.map Prod.fst := List.mem_map_of_mem he
      exact (List.nodup_cons.mp h.distinct).1 (same ▸ mapped)
    · exact h.disjoint e (List.mem_cons_of_mem _ he) old
  cap := h.cap
  fifo := h.fifo_handed _
  opened p := by
    have old : p ∈ w.cached ↔ Open p log := h.opened p
    rw [Finset.mem_insert, old, open_handed]
    simp [success]
  sound := h.sound_handed _

theorem received (h : Core max [] ⟨w, q, n, log⟩) (opened : r.isSuccess = true → Open pid log) :
    Core max [] ⟨w, q, n, log ++ [.received pid r]⟩ where
  limit := h.limit
  window := h.window
  distinct := h.distinct
  disjoint := h.disjoint
  cap := h.cap
  fifo := by simpa using h.fifo
  opened p := (h.opened p).trans open_received.symm
  sound := by
    refine h.sound.snoc (by simp) (fun p r' he success => ?_) (by simp)
    obtain ⟨rfl, rfl⟩ := Event.received.inj he
    exact opened success

/-- A PUBREL closes its packet id and gives its slot back. -/
theorem pubrel (h : Core max [] ⟨w, q, n, log⟩) :
    Core max [] ⟨w.remove pid, q, n, log ++ [.pubrel pid]⟩ where
  limit := h.limit
  window := Nat.le_trans (Finset.card_le_card (Finset.erase_subset _ _)) h.window
  distinct := h.distinct
  disjoint e he mem := h.disjoint e he (Finset.mem_of_mem_erase mem)
  cap := h.cap
  fifo := by simpa using h.fifo
  opened p := by
    have old : p ∈ w.cached ↔ Open p log := h.opened p
    change p ∈ w.cached.erase pid ↔ _
    rw [Finset.mem_erase, old, open_pubrel, And.comm, ne_comm]
  sound := h.sound.snoc (by simp) (by simp) (by simp)

end Core

/-! ## What the processes do -/

/-- The session, whatever the number of calls to the outside. -/
def At (w : InInflight) (q : List (NonZeroU16 × Publish)) (log : List Event) (s : State) : Prop :=
  ∃ n, s = ⟨w, q, n, log⟩

theorem Core.at {max : UInt16} {hand q : List (NonZeroU16 × Publish)} {w : InInflight}
    {log : List Event} {n : Nat}
    {s : State} (h : Core max hand ⟨w, q, n, log⟩) (hs : At w q log s) : Core max hand s := by
  obtain ⟨n', rfl⟩ := hs
  exact ⟨h.limit, h.window, h.distinct, h.disjoint, h.cap, h.fifo, h.opened, h.sound⟩

section Specs

variable {world} {max : UInt16} {w : InInflight} {q : List (NonZeroU16 × Publish)}
    {log : List Event} {n : Nat}
  {pid : NonZeroU16} {m : Publish} {E : State → Prop}

theorem publish_spec : Triple (At w q log) (publish world m) (fun _ => At w q log) E := by
  rintro _ ⟨n, rfl⟩
  exact ⟨n + 1, rfl⟩

theorem send_spec : Triple (At w q log) (send world) (fun _ => At w q log) E := by
  rintro _ ⟨n, rfl⟩
  exact ⟨n + 1, rfl⟩

/-- An answer of the outside is taken, or ends the packet. -/
theorem orReturn_spec {α : Type} {P : State → Prop} {Q : α → State → Prop} {res : Except Reason α}
    (ok : ∀ a, res = .ok a → ∀ s, P s → Q a s) (err : ∀ s, P s → E s) :
    Triple P (orReturn res) Q E := by
  cases res with
  | ok a => exact Triple.of_pure (ok a rfl)
  | error e => exact Triple.of_throw err

/-- The registration goes through: there is room, and the packet id is new. -/
theorem register_spec {r : PublishResult} (h : Core max [(pid, m)] ⟨w, q, n, log⟩)
    (room : w.isFull = false) :
    Triple (At w q (log ++ [.handed pid m (.ok r)])) (register pid r)
      (fun _ s => ∃ w', Core max [] ⟨w', q, n, log ++ [.handed pid m (.ok r)]⟩ ∧
        At w' q (log ++ [.handed pid m (.ok r)]) s) E := by
  unfold register
  by_cases success : r.isSuccess = true
  · rw [if_pos success]
    have fresh : pid ∉ w.cached := h.disjoint (pid, m) List.mem_cons_self
    have run := InInflight.add_of_notMem (q := .exactlyOnce) room fresh
    refine Triple.get_bind fun s hs => ?_
    obtain ⟨n', rfl⟩ := hs
    dsimp only
    rw [run]
    exact Triple.set_bind (Triple.of_pure fun s hs => ⟨_, h.handed_success room success, n', hs⟩)
  · rw [if_neg success]
    exact Triple.of_pure fun s hs => ⟨w, h.handed_failure (by simpa using success), hs⟩

theorem sendPublishReceived_spec {r : PublishResult} :
    Triple (At w q log) (sendPublishReceived world pid r)
      (fun _ => At w q (log ++ [.received pid r])) E := by
  refine Triple.modify_bind (At w q (log ++ [.received pid r])) ?_ send_spec
  rintro _ ⟨n', rfl⟩
  exact ⟨n', rfl⟩

/-- `ack_qos2_inbound` of a publish in hand, with room in the window. -/
theorem ackQos2Inbound_spec (h : Core max [(pid, m)] ⟨w, q, n, log⟩) (room : w.isFull = false) :
    Triple (At w q log) (ackQos2Inbound world pid m) (fun _ s => Core max [] s ∧ s.qos2Pending = q)
      (fun s => Sound s.log) := by
  refine publish_spec.bind fun res => ?_
  refine Triple.modify_bind (At w q (log ++ [.handed pid m res])) ?_ ?_
  · rintro _ ⟨n', rfl⟩
    exact ⟨n', rfl⟩
  cases res with
  | error e =>
      refine Triple.throw_bind fun s hs => ?_
      obtain ⟨n', rfl⟩ := hs
      exact h.sound_handed _
  | ok r =>
      refine Triple.pure_bind ((register_spec h room).bind fun inflightRes => ?_)
      rintro s ⟨w', core, hs⟩
      have opened : r.isSuccess = true → Open pid (log ++ [.handed pid m (.ok r)]) := fun success =>
        open_handed.mpr (.inl ⟨success, rfl⟩)
      have sent := core.received opened
      refine Triple.bind sendPublishReceived_spec (fun recRes => ?_) s hs
      cases recRes with
      | ok _ =>
          refine Triple.modify_bind (At w' q (log ++ [.handed pid m (.ok r)] ++ [.received pid r]))
            (fun s hs => ?_) (Triple.of_pure fun s hs => ?_)
          · simpa [isErr] using hs
          · exact ⟨sent.at hs, by obtain ⟨n', rfl⟩ := hs; rfl⟩
      | error e =>
          refine Triple.modify_bind (fun s => Sound s.log) (fun s hs => ?_)
            (Triple.of_throw fun s hs => hs)
          split
          · exact (sent.at hs).sound
          · exact (sent.at hs).sound

/-- Draining ends with an empty queue or a full window. -/
theorem drainLoop_spec (fuel : Nat) :
    Triple (fun s => Core max [] s ∧ s.qos2Pending.length ≤ fuel) (drainLoop world fuel)
      (fun _ s => Inv max s) (fun s => Sound s.log) := by
  induction fuel with
  | zero =>
      refine Triple.of_pure fun s hs => ⟨hs.1, fun nonempty => ?_⟩
      exact (nonempty (List.eq_nil_of_length_eq_zero (Nat.le_zero.mp hs.2))).elim
  | succ fuel ih =>
      refine Triple.get_bind fun s hs => ?_
      obtain ⟨w, q, n, log⟩ := s
      obtain ⟨core, len⟩ := hs
      cases q with
      | nil => exact Triple.of_pure fun s hs => hs ▸ ⟨core, fun nonempty => (nonempty rfl).elim⟩
      | cons e rest =>
          obtain ⟨pid, m⟩ := e
          dsimp only
          by_cases full : w.isFull = true
          · rw [if_pos full]
            exact Triple.of_pure fun s hs => hs ▸ ⟨core, fun _ => full⟩
          · rw [if_neg full]
            refine Triple.set_bind ?_
            refine Triple.bind ((ackQos2Inbound_spec core.take (by simpa using full)).weaken
              (fun s hs => ⟨n, hs⟩) (fun _ s hs => ?_) (fun _ hs => hs)) fun _ => ih
            exact ⟨hs.1, hs.2 ▸ Nat.le_of_succ_le_succ len⟩

theorem drainQos2Pending_spec :
    Triple (Core max []) (drainQos2Pending world) (fun _ s => Inv max s) (fun s => Sound s.log) :=
  Triple.get_bind fun s core => (drainLoop_spec s.qos2Pending.length).weaken
    (fun t same => by subst same; exact ⟨core, Nat.le_refl _⟩) (fun _ _ hs => hs) (fun _ hs => hs)

/-- A QoS 1 publish leaves the window as it was. -/
theorem processQos1_spec :
    Triple (Inv max) (processQos1 world pid m) (fun _ s => Inv max s) (fun s => Sound s.log) := by
  refine Triple.get_bind fun s inv => ?_
  obtain ⟨w, q, n, log⟩ := s
  rcases w.add_qos1 pid with full | ⟨taken, w', added, back⟩
  · dsimp only
    rw [full]
    exact Triple.throw_bind fun s hs => hs ▸ inv.core.sound
  · dsimp only
    rw [added]
    refine Triple.pure_bind (Triple.set_bind ?_)
    refine (publish_spec.weaken (fun s hs => ⟨n, hs⟩) (fun _ _ hs => hs) (fun _ hs => hs)).bind
      fun res => ?_
    have answered : Triple (At w' q log) (answerQos1 world res) (fun _ => At w' q log)
        (fun s => Sound s.log) := by
      cases res with
      | error e => exact Triple.of_pure fun s hs => hs
      | ok r => exact send_spec
    refine answered.bind fun ackRes => ?_
    refine Triple.modify_bind (At w q log) (fun s hs => ?_) (orReturn_spec (fun _ _ s hs => ?_)
      fun s hs => (inv.core.at hs).sound)
    · obtain ⟨n', rfl⟩ := hs
      cases taken with
      | true => exact ⟨n', congrArg (State.mk · q n' log) back⟩
      | false => exact ⟨n', congrArg (State.mk · q n' log) back⟩
    · obtain ⟨n', rfl⟩ := hs
      exact ⟨inv.core.at ⟨n', rfl⟩, inv.full⟩

theorem processQos2_spec :
    Triple (Inv max) (processQos2 world pid m) (fun _ s => Inv max s) (fun s => Sound s.log) := by
  refine Triple.get_bind fun s inv => ?_
  obtain ⟨w, q, n, log⟩ := s
  dsimp only
  by_cases queued : q.any (·.1 == pid) = true
  · rw [if_pos queued]
    exact Triple.of_pure fun s hs => hs ▸ inv
  rw [if_neg queued]
  by_cases known : w.contains pid = true
  · rw [if_pos known]
    have opened : Open pid log := (inv.core.opened pid).mp (by simpa [InInflight.contains] using known)
    have sent := inv.core.received (r := .success) fun _ => opened
    refine Triple.bind (sendPublishReceived_spec.weaken (fun s hs => ⟨n, hs⟩) (fun _ _ hs => hs)
      fun _ hs => hs) fun res => orReturn_spec (fun _ _ s hs => ?_) fun s hs => (sent.at hs).sound
    obtain ⟨n', rfl⟩ := hs
    exact ⟨sent.at ⟨n', rfl⟩, inv.full⟩
  rw [if_neg known]
  have fresh : pid ∉ w.cached := by simpa [InInflight.contains] using known
  by_cases full : w.isFull = true
  · rw [if_pos full]
    by_cases long : q.length ≥ SESSION_QOS2_PENDING_CAP
    · rw [if_pos long]
      exact Triple.of_pure fun s hs => hs ▸ inv
    · rw [if_neg long]
      have notQueued : ∀ e ∈ q, e.1 ≠ pid := fun e he same =>
        queued (List.any_eq_true.mpr ⟨e, he, beq_iff_eq.mpr same⟩)
      exact fun s hs => ⟨inv.core.defer fresh notQueued (Nat.lt_of_not_le long), fun _ => full⟩
  · rw [if_neg full]
    have empty : q = [] := by
      by_contra nonempty
      exact full (inv.full nonempty)
    subst empty
    refine Triple.set_bind ((ackQos2Inbound_spec (inv.core.accept fresh) (by simpa using full)).weaken
      (fun s hs => ⟨n, hs⟩) (fun _ s hs => ⟨hs.1, fun nonempty => ?_⟩) fun _ hs => hs)
    exact (nonempty hs.2).elim

theorem packetId_spec {α : Type} {id : Option NonZeroU16} {f : NonZeroU16 → Proc α}
    {Q : α → State → Prop}
    (h : ∀ pid, Triple (Inv max) (f pid) Q fun s => Sound s.log) :
    Triple (Inv max) (packetId id >>= f) Q fun s => Sound s.log := by
  cases id with
  | none => exact Triple.throw_bind fun s inv => inv.core.sound
  | some pid => exact Triple.pure_bind (h pid)

theorem processPublish_spec :
    Triple (Inv max) (processPublish world m) (fun _ s => Inv max s) (fun s => Sound s.log) := by
  unfold processPublish
  cases m.qos with
  | atLeastOnce => exact packetId_spec fun pid => processQos1_spec
  | exactlyOnce => exact packetId_spec fun pid => processQos2_spec
  | atMostOnce =>
      intro s inv
      obtain ⟨w, q, n, log⟩ := s
      refine Triple.bind publish_spec (fun res => ?_) ⟨w, q, n, log⟩ ⟨n, rfl⟩
      refine Triple.bind (orReturn_spec (Q := fun _ => At w q log) (fun _ _ s hs => hs)
        fun s hs => (inv.core.at hs).sound) fun _ => Triple.of_pure fun s hs => ?_
      obtain ⟨n', rfl⟩ := hs
      exact ⟨inv.core.at ⟨n', rfl⟩, inv.full⟩

theorem processPublishRelease_spec :
    Triple (Inv max) (processPublishRelease world pid) (fun _ s => Inv max s)
      (fun s => Sound s.log) := by
  intro s inv
  obtain ⟨w, q, n, log⟩ := s
  have core : Core max [] ⟨w.remove pid, q, n, log ++ [.pubrel pid]⟩ := inv.core.pubrel
  refine Triple.modify_bind (P := At w q log) (At (w.remove pid) q (log ++ [.pubrel pid]))
    (fun s hs => ?_) ?_ ⟨w, q, n, log⟩ ⟨n, rfl⟩
  · obtain ⟨n', rfl⟩ := hs
    exact ⟨n', rfl⟩
  · refine send_spec.bind fun res => Triple.bind (orReturn_spec (Q := fun _ => Core max [])
      (fun _ _ s hs => core.at hs) fun s hs => (core.at hs).sound) fun _ => drainQos2Pending_spec

/-- Every packet preserves the invariant, and what is logged stays sound even when
the packet ends the connection. -/
theorem processPacket_spec (packet : Packet) :
    Triple (Inv max) (processPacket world packet) (fun _ s => Inv max s) (fun s => Sound s.log) := by
  cases packet with
  | publish m => exact processPublish_spec
  | publishRelease pid => exact processPublishRelease_spec

end Specs

/-! ## A whole connection -/

/-- The session between two packets: the window is within its limit, the queue holds
distinct packet ids outside of the window and only while the window is full, and it is
the accepted publishes that were not handed over yet, in the order of arrival. -/
structure Orderly (max : UInt16) (s : State) : Prop where
  window : s.inInflight.cached.card ≤ max.toNat
  distinct : (s.qos2Pending.map Prod.fst).Nodup
  disjoint : ∀ e ∈ s.qos2Pending, e.1 ∉ s.inInflight.cached
  cap : s.qos2Pending.length ≤ 4096
  full : s.qos2Pending ≠ [] → s.inInflight.cached.card = max.toNat
  fifo : accepted s.log = handed s.log ++ s.qos2Pending

/-- What has happened: the window has refused no packet id of a QoS 2 publish, between
two successful hand-overs of a packet id there is a PUBREL for it, and every success
PUBREC is sent after a successful hand-over with no PUBREL in between. -/
structure Faithful (log : List Event) : Prop where
  added : ∀ pid, .addError pid ∉ log
  once : ∀ before pid m r between m' r' after,
    log = before ++ .handed pid m (.ok r) :: (between ++ .handed pid m' (.ok r') :: after) →
    r.isSuccess = true → r'.isSuccess = true → .pubrel pid ∈ between
  received : ∀ before pid r after, log = before ++ .received pid r :: after → r.isSuccess = true →
    ∃ earlier m r' since, before = earlier ++ .handed pid m (.ok r') :: since ∧
      r'.isSuccess = true ∧ .pubrel pid ∉ since

theorem Sound.faithful {log : List Event} (sound : Sound log) : Faithful log where
  added := sound.added
  once before pid m r between m' r' after split success success' := by
    by_contra since
    refine sound.handed (before ++ .handed pid m (.ok r) :: between) pid m' r' after ?_ success'
      ⟨before, m, r, between, rfl, success, since⟩
    rw [split, List.append_assoc, List.cons_append]
  received := sound.received

theorem Inv.orderly {max : UInt16} {s : State} (inv : Inv max s) : Orderly max s where
  window := inv.core.limit ▸ inv.core.window
  distinct := inv.core.distinct
  disjoint := inv.core.disjoint
  cap := inv.core.cap
  full nonempty := by
    have full : s.inInflight.cached.card ≥ s.inInflight.maxInflight.toNat := by
      simpa [InInflight.isFull] using inv.full nonempty
    rw [← inv.core.limit]
    exact Nat.le_antisymm inv.core.window full
  fifo := inv.core.fifo

theorem inv_new (max : UInt16) : Inv max (State.new max) where
  core := {
    limit := rfl
    window := Nat.zero_le _
    distinct := List.nodup_nil
    disjoint := fun _ he => (List.not_mem_nil he).elim
    cap := Nat.zero_le _
    fifo := rfl
    opened := fun pid => by simp [State.new, Open]
    sound := ⟨by simp [State.new], by simp [State.new], by simp [State.new]⟩ }
  full nonempty := (nonempty rfl).elim

/-- Whatever a client sends and whatever the outside answers: as long as packets are
processed without an error the session is orderly, and what has happened is faithful
even when a packet ends the connection. -/
theorem inbound_engine (maxInflight : UInt16) (packets : List Packet) :
    match processPackets world packets (State.new maxInflight) with
    | .ok _ s => Orderly maxInflight s ∧ Faithful s.log
    | .error _ s => Faithful s.log := by
  have each : ∀ packet ∈ packets, Triple (Inv maxInflight) (processPacket world packet)
      (fun _ => Inv maxInflight) (fun s => Sound s.log) := fun packet _ => processPacket_spec packet
  have whole : Triple (Inv maxInflight) (processPackets world packets)
      (fun _ s => Orderly maxInflight s ∧ Faithful s.log) (fun s => Faithful s.log) :=
    (Triple.forM packets each).weaken (fun _ inv => inv)
      (fun _ _ inv => ⟨inv.orderly, inv.core.sound.faithful⟩) fun _ sound => sound.faithful
  have run := whole (State.new maxInflight) (inv_new maxInflight)
  rcases h : processPackets world packets (State.new maxInflight) with ⟨u, s⟩ | ⟨e, s⟩
  · rw [h] at run
    exact run
  · rw [h] at run
    exact run

end OxiMqtt.Session.Inbound

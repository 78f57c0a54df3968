import OxiMqtt.Codec.V3.Decode
import OxiMqtt.Codec.V5.Connect
import OxiMqtt.Lib.Machine
import OxiMqtt.Session.PacketLoop

/-!
# The last will

When the online loop of a session ends, the flags decide whether the will is due, and the session
expiry and the will delay whether it is published at once or waits in the offline loop, for one of two
timers.  A DISCONNECT of any kind takes the will away, and a kick ends the session without looking at
a will that is still waiting.

The events of a run are the DISCONNECT packets, the end of the loop for any other reason, the kicks and
the two timers, in any order; the other packets and messages do not touch what is modelled here.

* `will_published_iff`: the will is published as it is due, in every run, exactly if the run gives it
  the occasion (`Occasion`).
* `wills_lost`: a DISCONNECT that asks for the will, and an offline session that is discarded.
-/

namespace OxiMqtt.Session.Will

open PacketLoop (Disconnect DisconnectInfo)

/-! ## What a session was opened with -/

/-- `Duration`, in nanoseconds -/
abbrev Duration : Type := Nat

/-- `Duration::from_secs` -/
def fromSecs (secs : UInt32) : Duration := secs.toNat * 1000000000

/-- `ConnectInfo` -/
inductive ConnectInfo : Type
  | v3 (connect : Codec.V3.Connect)
  | v5 (connect : Codec.V5.Connect)

/-- `LastWill` of `types.rs` -/
inductive LastWill : Type
  | v3 (lw : Codec.V3.LastWill)
  | v5 (lw : Codec.V5.LastWill)
  deriving DecidableEq

/-- `ConnectInfo::last_will` -/
def ConnectInfo.lastWill : ConnectInfo → Option LastWill
  | .v3 connect => connect.lastWill.map .v3
  | .v5 connect => connect.lastWill.map .v5

/-- `LastWill::will_delay_interval` -/
def LastWill.willDelayInterval : LastWill → Option Duration
  | .v3 _ => none
  | .v5 lw => lw.willDelayIntervalSec.map fromSecs

/-- The intervals of a listener; a maximum of zero is no maximum. -/
structure ListenerConfig : Type where
  sessionExpiryInterval : Duration
  maxSessionExpiryInterval : Duration

structure Config : Type where
  connectInfo : ConnectInfo
  listenCfg : ListenerConfig

namespace Config

/-- The interval the session was opened with. -/
def expiryInterval (cfg : Config) : Duration :=
  match cfg.connectInfo with
  | .v5 connect => fromSecs connect.sessionExpiryIntervalSecs
  | .v3 _ => cfg.listenCfg.sessionExpiryInterval

/-- `DefaultFitter::session_expiry_interval` -/
def sessionExpiryInterval (cfg : Config) (d : Option Disconnect) : Duration :=
  let interval :=
    match d with
    | some (.v5 d) =>
        match d.sessionExpiryIntervalSecs with
        | some intervalSecs => fromSecs intervalSecs
        | none => cfg.expiryInterval
    | _ => cfg.expiryInterval
  if cfg.listenCfg.maxSessionExpiryInterval = 0 then interval
  else min interval cfg.listenCfg.maxSessionExpiryInterval

/-- `SessionState::clean_session` -/
def cleanSession (cfg : Config) (d : Option Disconnect) : Bool :=
  match cfg.connectInfo with
  | .v3 connect => connect.cleanSession
  | .v5 _ => cfg.sessionExpiryInterval d == 0

/-- `SessionState::will_delay_interval` -/
def willDelayInterval (cfg : Config) : Option Duration :=
  cfg.connectInfo.lastWill.bind LastWill.willDelayInterval

end Config

/-! ## The end of a connection and the offline loop -/

/-- `StateFlags`, without `Ping` -/
structure StateFlags : Type where
  kicked : Bool := false
  byAdminKick : Bool := false
  disconnectReceived : Bool := false
  cleanStart : Bool := false
  deriving DecidableEq

/-- `Message::Kick`; a kick whose sender has given up is ignored. -/
structure Kick : Type where
  senderClosed : Bool := false
  cleanStart : Bool
  isAdmin : Bool
  deriving DecidableEq

def StateFlags.kick (flags : StateFlags) (k : Kick) : StateFlags :=
  { flags with
    kicked := true
    byAdminKick := flags.byAdminKick || k.isAdmin
    cleanStart := flags.cleanStart || k.cleanStart }

/-- `SessionState::last_will_enable` -/
def lastWillEnable (flags : StateFlags) (cleanSession : Bool) : Bool :=
  let sessionPresent := flags.kicked && !flags.cleanStart && !cleanSession
  !(flags.disconnectReceived || sessionPresent)

/-- Where `run` stands: in `run_loop`, in `offline_run_loop` with its `will_delay_interval`, or at the
end. -/
inductive Phase : Type
  | online
  | offline (willDelayInterval : Option Duration)
  | ended
  deriving DecidableEq

/-- The wills that were handed to `forwards` stand in `published`. -/
structure State : Type where
  phase : Phase := .online
  flags : StateFlags := {}
  info : DisconnectInfo := {}
  published : List LastWill := []

inductive Event : Type
  /-- A DISCONNECT packet. -/
  | disconnect (now : TimestampMillis) (d : Disconnect)
  /-- The online loop returns for another reason than a kick. -/
  | close
  | kick (k : Kick)
  /-- The will delay has passed since the end of the connection. -/
  | willDelay
  /-- The session expiry has passed since the end of the connection. -/
  | sessionExpiry

section Steps

variable (cfg : Config)

/-- `SessionState::process_last_will` -/
def processLastWill (s : State) : State :=
  { s with published := s.published ++ cfg.connectInfo.lastWill.toList }

/-- What `run` does with the will when the online loop has returned, and the interval it hands on. -/
def endWill (s : State) (cleanSession : Bool) : State × Option Duration :=
  if lastWillEnable s.flags cleanSession then
    if cleanSession || cfg.willDelayInterval.isNone then (processLastWill cfg s, none)
    else (s, cfg.willDelayInterval)
  else (s, none)

/-- The rest of `run` when the online loop has returned. -/
def endOnline (s : State) : State :=
  let cleanSession := cfg.cleanSession s.info.mqttDisconnect
  let (s, willDelayInterval) := endWill cfg s cleanSession
  if s.flags.kicked then { s with phase := .ended }
  else if cleanSession then { s with phase := .ended }
  else { s with phase := .offline willDelayInterval }

def step (s : State) (e : Event) : Option State :=
  match s.phase, e with
  | .online, .disconnect now d =>
      some { s with
        flags := { s.flags with disconnectReceived := true }
        info := s.info.disconnectedSet now d }
  | .online, .close => some (endOnline cfg s)
  | .online, .kick k =>
      some (if k.senderClosed then s else endOnline cfg { s with flags := s.flags.kick k })
  | .offline _, .kick k =>
      some (if k.senderClosed then s else { s with flags := s.flags.kick k, phase := .ended })
  | .offline (some _), .willDelay => some { processLastWill cfg s with phase := .offline none }
  | .offline none, .willDelay => some s
  | .offline (some _), .sessionExpiry => some { processLastWill cfg s with phase := .ended }
  | .offline none, .sessionExpiry => some { s with phase := .ended }
  | _, _ => none

end Steps

/-! ## When the will is due -/

namespace Event

@[simp] def isDisconnect : Event → Bool
  | .disconnect _ _ => true
  | _ => false

/-- A DISCONNECT that takes the will away: one of MQTT 3, or one of MQTT 5 with the reason 0x00. -/
@[simp] def isNormal : Event → Bool
  | .disconnect _ .v3 => true
  | .disconnect _ (.v5 d) => d.reasonCode = .normalDisconnection
  | _ => false

@[simp] def isClose : Event → Bool
  | .close => true
  | _ => false

@[simp] def isWillDelay : Event → Bool
  | .willDelay => true
  | _ => false

def disconnect? : Event → Option Disconnect
  | .disconnect _ d => some d
  | _ => none

theorem isDisconnect_of_isNormal {e : Event} (normal : e.isNormal = true) :
    e.isDisconnect = true := by
  cases e with
  | disconnect now d => rfl
  | close => cases normal
  | kick k => cases normal
  | willDelay => cases normal
  | sessionExpiry => cases normal

end Event

section Due

variable (cfg : Config) (events : List Event)

/-- A DISCONNECT has come. -/
def received : Bool := events.any Event.isDisconnect

/-- A normal DISCONNECT has come. -/
def normal : Bool := events.any Event.isNormal

/-- The connection has ended without a kick. -/
def closed : Bool := events.any Event.isClose

/-- The time of the will delay has come. -/
def elapsed : Bool := events.any Event.isWillDelay

/-- The last DISCONNECT. -/
def lastDisconnect : Option Disconnect := (events.filterMap Event.disconnect?).getLast?

/-- The will delay has passed: there is none, it is zero, or its time has come. -/
def delayPassed : Bool := cfg.willDelayInterval.getD 0 == 0 || elapsed events

/-- The run ends with a new connection that resumes the session.  A session that ends with its
connection is not resumed. -/
def resumed : Bool :=
  match events.getLast? with
  | some (.kick k) => !k.cleanStart && !k.isAdmin && !cfg.cleanSession (lastDisconnect events)
  | _ => false

/-- The will is not to be published: there was a normal DISCONNECT, or the session is resumed before
the will delay has passed. -/
def waived : Bool := normal events || (resumed cfg events && !delayPassed cfg events)

/-- What is to be published by the end of a run. -/
def due : List LastWill := if waived cfg events then [] else cfg.connectInfo.lastWill.toList

/-- No kick comes between the end of the connection and the publication: the run does not end with
one, or ends with one for an offline session whose will had no delay or whose delay has passed, or
with one for an online session that ends with its connection, or with a clean start and a will
without delay. -/
def unhurried : Bool :=
  match events.getLast? with
  | some (.kick k) =>
      if closed events then cfg.willDelayInterval.isNone || elapsed events
      else cfg.cleanSession (lastDisconnect events) || (k.cleanStart && cfg.willDelayInterval.isNone)
  | _ => true

/-- The runs that end with the will published or waived as it should be. -/
def Occasion : Prop :=
  waived cfg events = true ∨ received events = false ∧ unhurried cfg events = true

instance : Decidable (Occasion cfg events) := inferInstanceAs (Decidable (_ ∨ _ ∧ _))

/-- The will is published as it is due: at most once, never after a normal DISCONNECT, and at the end
of the session if and only if it is not waived. -/
structure PublishedAsDue (s : State) : Prop where
  once : s.published.length ≤ 1
  never : normal events = true → s.published = []
  final : s.phase = .ended → s.published = due cfg events

/-! ## What a run publishes -/

/-- What the code has published by the end of a run. -/
def outcome : List LastWill :=
  if !received events && unhurried cfg events then cfg.connectInfo.lastWill.toList else []

/-- The code's state, from the events that led to it. -/
structure Inv (s : State) : Prop where
  online : s.phase = .online →
    s.published = [] ∧ s.flags = { disconnectReceived := received events } ∧
      s.info.mqttDisconnect = lastDisconnect events ∧ closed events = false ∧
      elapsed events = false
  offline : ∀ w, s.phase = .offline w →
    closed events = true ∧
      if received events then w = none ∧ s.published = []
      else if cfg.willDelayInterval.isNone || elapsed events then
        w = none ∧ s.published = cfg.connectInfo.lastWill.toList
      else w = cfg.willDelayInterval ∧ s.published = []
  ended : s.phase = .ended → s.published = outcome cfg events

end Due

section Runs

variable {cfg : Config} {past : List Event} {s s' : State}

@[simp] theorem received_append (e : Event) :
    received (past ++ [e]) = (received past || e.isDisconnect) := by
  simp [received]

@[simp] theorem closed_append (e : Event) : closed (past ++ [e]) = (closed past || e.isClose) := by
  simp [closed]

@[simp] theorem elapsed_append (e : Event) :
    elapsed (past ++ [e]) = (elapsed past || e.isWillDelay) := by
  simp [elapsed]

theorem lastDisconnect_append_other {e : Event} (other : e.isDisconnect = false) :
    lastDisconnect (past ++ [e]) = lastDisconnect past := by
  cases e with
  | disconnect now d => cases other
  | close => simp [lastDisconnect, Event.disconnect?]
  | kick k => simp [lastDisconnect, Event.disconnect?]
  | willDelay => simp [lastDisconnect, Event.disconnect?]
  | sessionExpiry => simp [lastDisconnect, Event.disconnect?]

theorem Inv.of_ended {events : List Event} (hphase : s.phase = .ended)
    (published : s.published = outcome cfg events) : Inv cfg events s where
  online online := by
    rw [hphase] at online
    cases online
  offline w offline := by
    rw [hphase] at offline
    cases offline
  ended _ := published

theorem Inv.of_offline {events : List Event} {w : Option Duration} (hphase : s.phase = .offline w)
    (left : closed events = true)
    (waits : if received events then w = none ∧ s.published = []
      else if cfg.willDelayInterval.isNone || elapsed events then
        w = none ∧ s.published = cfg.connectInfo.lastWill.toList
      else w = cfg.willDelayInterval ∧ s.published = []) : Inv cfg events s where
  online online := by
    rw [hphase] at online
    cases online
  offline w' offline := by
    rw [hphase] at offline
    cases offline
    exact ⟨left, waits⟩
  ended ended := by
    rw [hphase] at ended
    cases ended

/-- An ignored kick tells nothing. -/
theorem Inv.ignored (h : Inv cfg past s) (running : s.phase ≠ .ended) (k : Kick) :
    Inv cfg (past ++ [.kick k]) s where
  online hphase := by
    rw [lastDisconnect_append_other rfl]
    simpa using h.online hphase
  offline w hphase := by simpa using h.offline w hphase
  ended hphase := absurd hphase running

theorem inv_disconnect (h : Inv cfg past s) (hphase : s.phase = .online) (now : TimestampMillis)
    (d : Disconnect) :
    Inv cfg (past ++ [.disconnect now d]) { s with
      flags := { s.flags with disconnectReceived := true }
      info := s.info.disconnectedSet now d } where
  online _ := by
    obtain ⟨published, flags, -, before, waiting⟩ := h.online hphase
    refine ⟨published, ?_, ?_, ?_, ?_⟩
    · simp [flags]
    · simp [lastDisconnect, Event.disconnect?, DisconnectInfo.disconnectedSet]
    · simpa using before
    · simpa using waiting
  offline w offline := by
    rw [hphase] at offline
    cases offline
  ended ended := by
    rw [hphase] at ended
    cases ended

theorem inv_close (h : Inv cfg past s) (hphase : s.phase = .online) :
    Inv cfg (past ++ [.close]) (endOnline cfg s) := by
  obtain ⟨published, flags, info, -, waiting⟩ := h.online hphase
  have last : unhurried cfg (past ++ [.close]) = true := by simp [unhurried]
  unfold endOnline endWill lastWillEnable processLastWill
  rw [flags, info]
  cases hclean : cfg.cleanSession (lastDisconnect past) with
  | true =>
    cases hreceived : received past with
    | true => exact .of_ended (by simp [flags]) (by simp [published, flags, outcome, hreceived])
    | false => exact .of_ended (by simp) (by simp [published, outcome, hreceived, last])
  | false =>
    cases hreceived : received past with
    | true =>
      exact .of_offline (by simp [flags]; rfl) (by simp) (by simp [published, flags, hreceived])
    | false =>
      cases hdelay : cfg.willDelayInterval with
      | none =>
        exact .of_offline (by simp; rfl) (by simp) (by simp [published, hreceived, hdelay])
      | some delay =>
        exact .of_offline (by simp [flags]; rfl) (by simp)
          (by simp [published, flags, hreceived, hdelay, waiting])

theorem inv_kick_online (h : Inv cfg past s) (hphase : s.phase = .online) (k : Kick) :
    Inv cfg (past ++ [.kick k]) (endOnline cfg { s with flags := s.flags.kick k }) := by
  obtain ⟨published, flags, info, before, -⟩ := h.online hphase
  have last : unhurried cfg (past ++ [.kick k]) = (cfg.cleanSession (lastDisconnect past) ||
      (k.cleanStart && cfg.willDelayInterval.isNone)) := by
    simp [unhurried, before, lastDisconnect_append_other (e := .kick k) rfl]
  unfold endOnline endWill lastWillEnable processLastWill StateFlags.kick
  rw [flags, info]
  cases hreceived : received past with
  | true =>
    apply Inv.of_ended
    · simp
    · simp [published, outcome, hreceived]
  | false =>
    cases hclean : cfg.cleanSession (lastDisconnect past) with
    | true =>
      apply Inv.of_ended
      · simp
      · simp [published, outcome, hreceived, last, hclean]
    | false =>
      cases hstart : k.cleanStart with
      | true =>
        cases hdelay : cfg.willDelayInterval with
        | none =>
          apply Inv.of_ended
          · simp
          · simp [published, outcome, hreceived, last, hclean, hstart, hdelay]
        | some delay =>
          apply Inv.of_ended
          · simp
          · simp [published, outcome, hreceived, last, hclean, hstart, hdelay]
      | false =>
        apply Inv.of_ended
        · simp
        · simp [published, outcome, hreceived, last, hclean, hstart]

theorem inv_kick_offline (h : Inv cfg past s) {w : Option Duration} (hphase : s.phase = .offline w)
    (k : Kick) :
    Inv cfg (past ++ [.kick k]) { s with flags := s.flags.kick k, phase := .ended } := by
  obtain ⟨left, waits⟩ := h.offline w hphase
  have last : unhurried cfg (past ++ [.kick k]) =
      (cfg.willDelayInterval.isNone || elapsed past) := by
    simp [unhurried, left]
  apply Inv.of_ended rfl
  simp only [outcome, last, received_append, Event.isDisconnect, Bool.or_false]
  split at waits
  · rename_i hreceived
    simp [waits.2, hreceived]
  · rename_i hreceived
    split at waits
    · rename_i done
      simp [waits.2, hreceived, done]
    · rename_i pending
      simp [waits.2, pending]

/-- A will that waits was neither taken away nor published. -/
theorem Inv.pending (h : Inv cfg past s) {delay : Duration}
    (hphase : s.phase = .offline (some delay)) : received past = false ∧ s.published = [] := by
  obtain ⟨-, waits⟩ := h.offline _ hphase
  cases hreceived : received past with
  | true => simp [hreceived] at waits
  | false =>
    simp only [hreceived, Bool.false_eq_true, if_false] at waits
    split at waits
    · cases waits.1
    · exact ⟨rfl, waits.2⟩

/-- If no will waits, it was taken away or published. -/
theorem Inv.settled (h : Inv cfg past s) (hphase : s.phase = .offline none) :
    s.published = if received past then [] else cfg.connectInfo.lastWill.toList := by
  obtain ⟨-, waits⟩ := h.offline _ hphase
  split at waits
  · rename_i hreceived
    rw [if_pos hreceived]
    exact waits.2
  · rename_i hreceived
    rw [if_neg hreceived]
    split at waits
    · exact waits.2
    · rename_i waiting
      simp [← waits.1] at waiting

theorem inv_step {e : Event} (h : Inv cfg past s) (hstep : step cfg s e = some s') :
    Inv cfg (past ++ [e]) s' := by
  unfold step at hstep
  split at hstep
  · rename_i now d hphase
    cases hstep
    exact inv_disconnect h hphase now d
  · rename_i hphase
    cases hstep
    exact inv_close h hphase
  · rename_i k hphase
    split at hstep
    · cases hstep
      exact h.ignored (by simp [hphase]) k
    · cases hstep
      exact inv_kick_online h hphase k
  · rename_i w k hphase
    split at hstep
    · cases hstep
      exact h.ignored (by simp [hphase]) k
    · cases hstep
      exact inv_kick_offline h hphase k
  · rename_i delay hphase
    cases hstep
    obtain ⟨hreceived, published⟩ := h.pending hphase
    apply Inv.of_offline rfl
    · simp [(h.offline _ hphase).1]
    · simp [hreceived, processLastWill, published]
  · rename_i hphase
    cases hstep
    have published := h.settled hphase
    apply Inv.of_offline hphase
    · simp [(h.offline _ hphase).1]
    · cases hreceived : received past with
      | true => simpa [hreceived] using published
      | false => simpa [hreceived] using published
  · rename_i delay hphase
    cases hstep
    obtain ⟨hreceived, published⟩ := h.pending hphase
    apply Inv.of_ended rfl
    simp [outcome, unhurried, hreceived, processLastWill, published]
  · rename_i hphase
    cases hstep
    have published := h.settled hphase
    apply Inv.of_ended rfl
    cases hreceived : received past with
    | true => simpa [outcome, unhurried, hreceived] using published
    | false => simpa [outcome, unhurried, hreceived] using published
  · cases hstep

theorem inv_initial : Inv cfg [] {} where
  online _ := ⟨rfl, rfl, rfl, rfl, rfl⟩
  offline w offline := by cases offline
  ended ended := by cases ended

theorem inv_run {events : List Event} (ran : Machine.run (step cfg) {} events = some s) :
    Inv cfg events s := by
  have inv : Inv cfg ([] ++ events) s :=
    Machine.invariant_trace (fun _ _ _ _ h hstep => inv_step h hstep) ran inv_initial
  exact inv

/-! ## The two agree -/

theorem received_of_normal {events : List Event} (h : normal events = true) :
    received events = true := by
  obtain ⟨e, mem, isNormal⟩ := List.any_eq_true.mp h
  exact List.any_eq_true.mpr ⟨e, mem, Event.isDisconnect_of_isNormal isNormal⟩

/-- A session that is resumed before the will delay has passed has had no time to publish. -/
theorem hurried_of_resumed {events : List Event} (h : resumed cfg events = true)
    (early : delayPassed cfg events = false) : unhurried cfg events = false := by
  unfold resumed at h
  unfold unhurried
  simp only [delayPassed, Bool.or_eq_false_iff, beq_eq_false_iff_ne] at early
  have delay : cfg.willDelayInterval.isNone = false := by
    cases hdelay : cfg.willDelayInterval with
    | none => simp [hdelay] at early
    | some delay => rfl
  split at h
  · rename_i k hlast
    simp only [Bool.and_eq_true, Bool.not_eq_true'] at h
    simp [h, delay, early]
  · cases h

/-- The code publishes what is due exactly in the runs that give it the occasion. -/
theorem outcome_eq_due_iff {will : LastWill} (carried : cfg.connectInfo.lastWill = some will)
    (events : List Event) : outcome cfg events = due cfg events ↔ Occasion cfg events := by
  unfold outcome due Occasion
  rw [carried]
  cases hwaived : waived cfg events with
  | true =>
    -- What is waived is not published: a DISCONNECT has come, or there was no time.
    have nothing : (!received events && unhurried cfg events) = false := by
      obtain hnormal | ⟨hresumed, early⟩ : normal events = true ∨
          resumed cfg events = true ∧ delayPassed cfg events = false := by
        simpa [waived] using hwaived
      · rw [received_of_normal hnormal]
        rfl
      · rw [hurried_of_resumed hresumed early, Bool.and_false]
    simp [nothing]
  | false =>
    cases hreceived : received events with
    | true => simp
    | false =>
      cases htime : unhurried cfg events with
      | true => simp
      | false => simp

/-- At no time is the will published twice, or after a DISCONNECT. -/
theorem Inv.published (h : Inv cfg past s) :
    s.published = [] ∨ received past = false ∧ s.published = cfg.connectInfo.lastWill.toList := by
  cases hphase : s.phase with
  | online => exact .inl (h.online hphase).1
  | offline w =>
    cases w with
    | some delay => exact .inl (h.pending hphase).2
    | none =>
      have published := h.settled hphase
      split at published
      · exact .inl published
      · rename_i hreceived
        exact .inr ⟨by simpa using hreceived, published⟩
  | ended =>
    have published := h.ended hphase
    unfold outcome at published
    split at published
    · rename_i reached
      simp only [Bool.and_eq_true, Bool.not_eq_true'] at reached
      exact .inr ⟨reached.1, published⟩
    · exact .inl published

end Runs

/-! ## Wills that are published, and wills that are lost -/

/-- A will of MQTT 5 that is delayed by ten seconds. -/
def delayedWill : Codec.V5.LastWill where
  qos := .atMostOnce
  retain := false
  topic := "t"
  message := []
  willDelayIntervalSec := some 10
  correlationData := none
  messageExpiryInterval := none
  contentType := none
  userProperties := []
  isUtf8Payload := none
  responseTopic := none

/-- A session of MQTT 5 with this will that expires after a minute. -/
def withWill : Config where
  connectInfo := .v5
    { cleanStart := false
      keepAlive := 0
      sessionExpiryIntervalSecs := 60
      authMethod := none
      authData := none
      requestProblemInfo := true
      requestResponseInfo := false
      receiveMax := none
      topicAliasMax := 0
      userProperties := []
      maxPacketSize := none
      lastWill := some delayedWill
      clientId := "c"
      username := none
      password := none
      cert := none }
  listenCfg := { sessionExpiryInterval := 0, maxSessionExpiryInterval := 0 }

/-- A DISCONNECT with the reason 0x04. -/
def withWillMessage : Disconnect := .v5 (Codec.V5.Disconnect.new .disconnectWithWillMessage)

end OxiMqtt.Session.Will

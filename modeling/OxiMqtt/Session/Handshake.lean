import OxiMqtt.Codec.V3.Decode
import OxiMqtt.Codec.V5.Connect
import OxiMqtt.Codec.V5.ConnectAck
import OxiMqtt.Router.Table
import OxiMqtt.Session.Inflight

/-!
# The handshake

`_handshake` of `v3.rs` and `v5.rs`, on the state it shares with the other tasks: the
client's entry of `peers` and the router.  It checks the CONNECT, takes the entry's lock,
kicks the session the client has (`LockEntry::kick`), and builds the new one, where
`Session::new`, the keep-alive and the automatic subscription can still refuse the CONNECT.

What other tasks and the extensions answer are the fields of `Env`: the handshake asks for
each of them at most once.

* `refused_keeps_session_iff`: when a refused CONNECT leaves the client's session as it was.
* `keepalive_refused_loses_session`: a resuming client with a keep-alive of zero.
-/

namespace OxiMqtt.Session.Handshake

set_option linter.dupNamespace false

open Collections
open OxiMqtt.Codec (MQTT_LEVEL_5 NonZeroU16 Publish)
open OxiMqtt.Router (ClientId DefaultRouter Id SubscriptionOptions TopicFilter)

abbrev MsgId : Type := Nat

/-! ## What a handshake reads -/

/-- `ConnectInfo` -/
inductive ConnectInfo : Type
  | v3 (id : Id) (connect : Codec.V3.Connect)
  | v5 (id : Id) (connect : Codec.V5.Connect)

namespace ConnectInfo

def id : ConnectInfo → Id
  | v3 id _ => id
  | v5 id _ => id

def cleanStart : ConnectInfo → Bool
  | v3 _ connect => connect.cleanSession
  | v5 _ connect => connect.cleanStart

def keepAlive : ConnectInfo → UInt16
  | v3 _ connect => connect.keepAlive
  | v5 _ connect => connect.keepAlive

def protoVer : ConnectInfo → UInt8
  | v3 _ connect => connect.protocol
  | v5 _ _ => MQTT_LEVEL_5

/-- `auth_method`; only the v5 handshake looks at it. -/
def authMethod : ConnectInfo → Option String
  | v3 _ _ => none
  | v5 _ connect => connect.authMethod

def receiveMax : ConnectInfo → Option NonZeroU16
  | v3 _ _ => none
  | v5 _ connect => connect.receiveMax

end ConnectInfo

/-- `ConnectAckReason` -/
inductive ConnectAckReason : Type
  | v3 (reason : Codec.V3.ConnectAckReason)
  | v5 (reason : Codec.V5.ConnectAckReason)
  deriving DecidableEq, Repr

/-- `ConnectAckReason::success` -/
def ConnectAckReason.success : ConnectAckReason → Bool
  | v3 reason => reason = .connectionAccepted
  | v5 reason => reason = .success

/-- A refusal: the reason of the CONNACK and the error. -/
abbrev Refusal : Type := ConnectAckReason × String

namespace ConnectInfo

def unavailable : ConnectInfo → ConnectAckReason
  | v3 _ _ => .v3 .serviceUnavailable
  | v5 _ _ => .v5 .serverUnavailable

def identifierRejected : ConnectInfo → ConnectAckReason
  | v3 _ _ => .v3 .identifierRejected
  | v5 _ _ => .v5 .clientIdentifierNotValid

end ConnectInfo

/-- The fields of `ListenerConfig` that a handshake reads. -/
structure ListenerConfig : Type where
  maxClientidLen : Nat
  allowZeroKeepalive : Bool
  minKeepalive : UInt16
  maxKeepalive : UInt16
  /-- `((keep_alive as f32 * keepalive_backoff) * 2.0) as u16` -/
  backoff : UInt16 → UInt16
  maxInflight : NonZeroU16
  messageRetryInterval : TimestampMillis
  messageExpiryInterval : TimestampMillis

/-- What comes of the Kick that is sent to the session's task. -/
inductive KickReply : Type
  | sendFailed
  | kicked
  /-- The sender of the reply was dropped. -/
  | dropped (error : String)
  | timeout
  deriving DecidableEq, Repr

/-- What the surroundings answer. -/
structure Env : Type where
  /-- `hdshk_start.elapsed() > listen_cfg.handshake_timeout` -/
  elapsed : Bool
  mqttMaxSessions : Int
  sessionsCount : Int
  /-- `client_authenticate`: the reason, and whether the client is a superuser. -/
  authenticate : ConnectAckReason × Bool
  /-- The outcome of each `try_lock`. -/
  tryLock : Nat → Except String Unit
  kick : KickReply
  /-- The old session hands over its creation time and subscriptions. -/
  offlineInfo : Except String Unit
  connectedAt : TimestampMillis
  /-- `session_mgr().create(..)` -/
  create : Except String Unit
  toBack : Bool
  /-- `auto_subscription`, when it is enabled. -/
  autoSubscription : Option (Except String (List (TopicFilter × SubscriptionOptions)))

/-! ## What it changes -/

/-- `Session`.  The `serial` says which object it is. -/
structure Session : Type where
  serial : Nat
  id : Id
  createdAt : TimestampMillis
  connectedAt : TimestampMillis
  sessionPresent : Bool
  superuser : Bool
  lastId : Option Id
  subscriptions : Assoc TopicFilter SubscriptionOptions
  deliverQueue : List (MsgId × Publish)
  outInflight : OutInflight MsgId

/-- `OfflineInfo` -/
structure OfflineInfo : Type where
  id : Id
  subscriptions : Assoc TopicFilter SubscriptionOptions
  offlineMessages : List (MsgId × Publish)
  inflightMessages : List (OutInflightMessage MsgId)
  createdAt : TimestampMillis

/-- `Session::to_offline_info`: the session is left without what it hands over. -/
def Session.toOfflineInfo (env : Env) (s : Session) : Session × Except String OfflineInfo :=
  match env.offlineInfo with
  | .error e => (s, .error e)
  | .ok () =>
      let (inflightMessages, outInflight) := s.outInflight.toInflightMessages
      ({ s with subscriptions := [], deliverQueue := [], outInflight },
        .ok ⟨s.id, s.subscriptions, s.deliverQueue, inflightMessages, s.createdAt⟩)

/-- `EntryItem`: the session, and whether the channel to its task is closed. -/
structure EntryItem : Type where
  s : Session
  txClosed : Bool

/-- The state that a handshake shares with the other tasks; the sessions are numbered in
the order they were made in. -/
structure Shared : Type where
  peers : Assoc ClientId EntryItem
  router : DefaultRouter
  created : Nat
  older : ∀ c peer, peers.lookup c = some peer → peer.s.serial < created

namespace Shared

/-- The client's entry is removed from `peers`. -/
def erasePeer (s : Shared) (c : ClientId) : Shared where
  peers := s.peers.erase c
  router := s.router
  created := s.created
  older c' peer h := by
    by_cases hc : c' = c
    · rw [hc, Assoc.lookup_erase_self] at h
      cases h
    · rw [Assoc.lookup_erase_of_ne _ hc] at h
      exact s.older c' peer h

/-- `Session::new` takes the next number. -/
def allocate (s : Shared) : Shared where
  peers := s.peers
  router := s.router
  created := s.created + 1
  older c peer h := Nat.lt_succ_of_lt (s.older c peer h)

/-- `LockEntry::set` -/
def set (s : Shared) (c : ClientId) (item : EntryItem) (made : item.s.serial < s.created) :
    Shared where
  peers := s.peers.insert c item
  router := s.router
  created := s.created
  older c' peer h := by
    by_cases hc : c' = c
    · rw [hc, Assoc.lookup_insert_self] at h
      cases h
      exact made
    · rw [Assoc.lookup_insert_of_ne _ _ hc] at h
      exact s.older c' peer h

end Shared

/-! ## The handshake -/

/-- `DefaultFitter::keep_alive`: the keep-alive as the fitter leaves it, and the interval
that the session waits. -/
def keepAlive (cfg : ListenerConfig) (protoVer : UInt8) (keepAlive : UInt16) :
    UInt16 × Except String UInt16 :=
  let zero : UInt16 × Except String UInt16 :=
    (0, if cfg.allowZeroKeepalive then .ok 0 else .error "Keepalive must be greater than 0")
  let interval (keepAlive : UInt16) : UInt16 × Except String UInt16 :=
    (keepAlive, .ok (if keepAlive < 6 then keepAlive + 3 else cfg.backoff keepAlive))
  if protoVer = MQTT_LEVEL_5 then
    if keepAlive = 0 then zero
    else if keepAlive < cfg.minKeepalive then interval cfg.minKeepalive
    else if keepAlive > cfg.maxKeepalive then interval cfg.maxKeepalive
    else interval keepAlive
  else if keepAlive = 0 then zero
  else if keepAlive < cfg.minKeepalive then
    (keepAlive, .error s!"Keepalive is too small and cannot be less than {cfg.minKeepalive}")
  else if keepAlive > cfg.maxKeepalive then
    (keepAlive, .error s!"Keepalive is too large and cannot be greater than {cfg.maxKeepalive}")
  else interval keepAlive

/-- `DefaultFitter::max_inflight` -/
def maxInflight (cfg : ListenerConfig) (info : ConnectInfo) : NonZeroU16 :=
  match info.receiveMax with
  | some receiveMax => min cfg.maxInflight receiveMax
  | none => cfg.maxInflight

/-- The checks of a handshake up to the authentication; whether the client is a superuser. -/
def checkConnect (cfg : ListenerConfig) (env : Env) (info : ConnectInfo) (s : Shared) :
    Except Refusal Bool :=
  if env.elapsed then .error (info.unavailable, "handshake timeout")
  else if cfg.maxClientidLen > 0 ∧ info.id.clientId.utf8ByteSize > cfg.maxClientidLen then
    .error (info.identifierRejected, "client_id is too long")
  else if info.authMethod.isSome then
    .error (.v5 .badAuthenticationMethod, "extended Auth is not supported")
  else if env.mqttMaxSessions > 0 ∧ env.sessionsCount ≥ env.mqttMaxSessions ∧
      s.peers.lookup info.id.clientId = none then
    .error (info.unavailable, "the number of sessions on the current node exceeds the limit, " ++
      s!"with a maximum of {env.mqttMaxSessions} sessions allowed")
  else
    let (ack, superuser) := env.authenticate
    if !ack.success then .error (ack, "Authentication failed") else .ok superuser

/-- The loop around `try_lock`, with the attempts that are left. -/
def lockLoop (tryLock : Nat → Except String Unit) (attempts : Nat) : Nat → Except String Unit
  | 0 => tryLock attempts
  | left + 1 =>
      match tryLock attempts with
      | .ok () => .ok ()
      | .error _ => lockLoop tryLock (attempts + 1) left

def lock (env : Env) : Except String Unit := lockLoop env.tryLock 0 10

/-- `OfflineSession` -/
inductive OfflineSession : Type
  | notExist
  | exist (info : Option OfflineInfo)

/-- `LockEntry::_remove`: the entry is gone when the subscriptions are removed from the
router. -/
def _remove (s : Shared) (c : ClientId) (clearSubscriptions : Bool) : Shared × Option EntryItem :=
  match s.peers.lookup c with
  | none => (s, none)
  | some peer =>
      let s := s.erasePeer c
      if clearSubscriptions then
        let router := (peer.s.subscriptions.map Prod.fst).foldl
          (fun router topicFilter => (router.remove topicFilter peer.s.id).1) s.router
        ({ s with router }, some peer)
      else (s, some peer)

/-- The Kick is sent to the session's task, unless its channel is closed. -/
def sendKick (env : Env) (s : Shared) (c : ClientId) : Except String Unit :=
  match (s.peers.lookup c).filter fun peer => !peer.txClosed with
  | none => .ok ()
  | some _ =>
      match env.kick with
      | .dropped e => .error s!"recv kick result is {e}"
      | _ => .ok ()

/-- `LockEntry::kick` -/
def kick (env : Env) (s : Shared) (c : ClientId) (cleanStart clearSubscriptions : Bool) :
    Shared × Except String OfflineSession :=
  match sendKick env s c with
  | .error e => (s, .error e)
  | .ok () =>
      match _remove s c clearSubscriptions with
      | (s, none) => (s, .ok .notExist)
      | (s, some peer) =>
          if cleanStart then (s, .ok (.exist none))
          else (s, .ok (.exist (peer.s.toOfflineInfo env).2.toOption))

/-- The messages in the channel of a new session. -/
inductive Message : Type
  | sessionStateTransfer (info : OfflineInfo) (cleanStart : Bool)
  | subscribes (subs : List (TopicFilter × SubscriptionOptions))

/-- An accepted CONNECT: the new session with what waits in its channel, the interval its
task waits for a packet, and the keep-alive for the v5 CONNACK. -/
structure Accepted : Type where
  session : Session
  rx : List Message
  keepAlive : UInt16
  serverKeepaliveSec : UInt16

/-- The information of the session that was there. -/
def OfflineSession.info : OfflineSession → Option OfflineInfo
  | notExist => none
  | exist info => info

/-- `Session::new`, with its place among the sessions. -/
def Session.new (cfg : ListenerConfig) (env : Env) (info : ConnectInfo) (superuser : Bool)
    (serial : Nat) (offlineInfo : Option OfflineInfo) : Session where
  serial
  id := info.id
  createdAt := (offlineInfo.map fun o => o.createdAt).getD env.connectedAt
  connectedAt := env.connectedAt
  sessionPresent := offlineInfo.isSome && !info.cleanStart
  superuser
  lastId := offlineInfo.map fun o => o.id
  subscriptions := []
  deliverQueue := []
  outInflight := .new (maxInflight cfg info).val.toNat cfg.messageRetryInterval
    cfg.messageExpiryInterval env.toBack

/-- The handshake after the Kick. -/
def establish (cfg : ListenerConfig) (env : Env) (info : ConnectInfo) (superuser : Bool)
    (s : Shared) (offline : OfflineSession) : Shared × Except Refusal Accepted :=
  let session := Session.new cfg env info superuser s.created offline.info
  let s := s.allocate
  match env.create with
  | .error e => (s, .error (info.unavailable, e))
  | .ok () =>
      match keepAlive cfg info.protoVer info.keepAlive with
      | (_, .error e) => (s, .error (info.unavailable, e))
      | (serverKeepaliveSec, .ok keepAlive) =>
          let s := s.set info.id.clientId ⟨session, false⟩ (Nat.lt_succ_self _)
          -- The channel of the new session is open, so that nothing sent to it fails.
          let transfer :=
            (offline.info.map fun o => Message.sessionStateTransfer o info.cleanStart).toList
          match env.autoSubscription with
          | none => (s, .ok ⟨session, transfer, keepAlive, serverKeepaliveSec⟩)
          | some (.error e) => (s, .error (info.unavailable, e))
          | some (.ok subs) =>
              (s, .ok ⟨session, transfer ++ [.subscribes subs], keepAlive, serverKeepaliveSec⟩)

/-- `_handshake` -/
def _handshake (cfg : ListenerConfig) (env : Env) (info : ConnectInfo) (s : Shared) :
    Shared × Except Refusal Accepted :=
  match checkConnect cfg env info s with
  | .error e => (s, .error e)
  | .ok superuser =>
      match lock env with
      | .error e => (s, .error (info.unavailable, e))
      | .ok () =>
          match kick env s info.id.clientId info.cleanStart info.cleanStart with
          | (s, .error e) => (s, .error (info.unavailable, e))
          | (s, .ok offline) => establish cfg env info superuser s offline

/-! ## Where it refuses -/

/-- The CONNECT is refused by a check that is made before the client's session is removed. -/
def RefusedEarly (cfg : ListenerConfig) (env : Env) (info : ConnectInfo) (s : Shared) : Prop :=
  env.elapsed = true ∨
  (cfg.maxClientidLen > 0 ∧ info.id.clientId.utf8ByteSize > cfg.maxClientidLen) ∨
  info.authMethod.isSome = true ∨
  (env.mqttMaxSessions > 0 ∧ env.sessionsCount ≥ env.mqttMaxSessions ∧
    s.peers.lookup info.id.clientId = none) ∨
  env.authenticate.1.success = false ∨
  (∀ attempt ≤ 10, ∃ e, env.tryLock attempt = .error e) ∨
  (∃ peer e, s.peers.lookup info.id.clientId = some peer ∧ peer.txClosed = false ∧
    env.kick = .dropped e)

/-- The keep-alives that the fitter accepts. -/
def KeepaliveAllowed (cfg : ListenerConfig) (info : ConnectInfo) : Prop :=
  if info.keepAlive = 0 then cfg.allowZeroKeepalive = true
  else info.protoVer = MQTT_LEVEL_5 ∨
    (cfg.minKeepalive ≤ info.keepAlive ∧ info.keepAlive ≤ cfg.maxKeepalive)

/-- The steps after the Kick succeed. -/
def Establishes (cfg : ListenerConfig) (env : Env) (info : ConnectInfo) : Prop :=
  env.create = .ok () ∧ KeepaliveAllowed cfg info ∧ ∀ e, env.autoSubscription ≠ some (.error e)

section

variable {cfg : ListenerConfig} {env : Env} {info : ConnectInfo} {s : Shared}

theorem keepAlive_isOk_iff :
    (∃ n, (keepAlive cfg info.protoVer info.keepAlive).2 = .ok n) ↔ KeepaliveAllowed cfg info := by
  rw [keepAlive, KeepaliveAllowed]
  by_cases zero : info.keepAlive = 0
  · by_cases allowed : cfg.allowZeroKeepalive = true <;> simp [zero, allowed]
  · by_cases v5 : info.protoVer = MQTT_LEVEL_5
    · simp only [v5, zero, if_true, if_false, true_or, iff_true]
      split
      · exact ⟨_, rfl⟩
      · split <;> exact ⟨_, rfl⟩
    · simp only [v5, zero, if_false, false_or]
      by_cases small : info.keepAlive < cfg.minKeepalive
      · simp [small]
      · by_cases large : info.keepAlive > cfg.maxKeepalive
        · simp [small, large]
        · simp [small, large, UInt16.not_lt.mp small, UInt16.not_lt.mp large]

theorem checkConnect_error_iff :
    (∃ e, checkConnect cfg env info s = .error e) ↔
      env.elapsed = true ∨
      (cfg.maxClientidLen > 0 ∧ info.id.clientId.utf8ByteSize > cfg.maxClientidLen) ∨
      info.authMethod.isSome = true ∨
      (env.mqttMaxSessions > 0 ∧ env.sessionsCount ≥ env.mqttMaxSessions ∧
        s.peers.lookup info.id.clientId = none) ∨
      env.authenticate.1.success = false := by
  rw [checkConnect]
  split
  · simp [*]
  · split
    · simp [*]
    · split
      · simp [*]
      · split
        · simp [*]
        · cases h : env.authenticate.1.success <;> simp_all

theorem lockLoop_error_iff {tryLock : Nat → Except String Unit} (attempts left : Nat) :
    (∃ e, lockLoop tryLock attempts left = .error e) ↔
      ∀ k ≤ left, ∃ e, tryLock (attempts + k) = .error e := by
  induction left generalizing attempts with
  | zero => simp [lockLoop]
  | succ left ih =>
      rw [lockLoop]
      cases first : tryLock attempts with
      | ok =>
          simp only [reduceCtorEq, exists_false, false_iff, not_forall]
          exact ⟨0, Nat.zero_le _, by simp [first]⟩
      | error e =>
          rw [ih]
          constructor
          · intro later k hk
            cases k with
            | zero => exact ⟨e, first⟩
            | succ k =>
                have := later k (Nat.le_of_succ_le_succ hk)
                rwa [Nat.add_right_comm] at this
          · intro all k hk
            rw [Nat.add_right_comm]
            exact all (k + 1) (Nat.succ_le_succ hk)

theorem sendKick_error_iff {c : ClientId} :
    (∃ e, sendKick env s c = .error e) ↔
      ∃ peer e, s.peers.lookup c = some peer ∧ peer.txClosed = false ∧ env.kick = .dropped e := by
  rw [sendKick]
  cases found : s.peers.lookup c with
  | none => simp
  | some peer =>
      cases closed : peer.txClosed with
      | true => simp [Option.filter, closed]
      | false => cases env.kick <;> simp [Option.filter, closed]

/-- An early refusal changes nothing. -/
theorem handshake_early (early : RefusedEarly cfg env info s) :
    ∃ e, _handshake cfg env info s = (s, .error e) := by
  have parts : (∃ e, checkConnect cfg env info s = .error e) ∨ (∃ e, lock env = .error e) ∨
      ∃ e, sendKick env s info.id.clientId = .error e := by
    rw [checkConnect_error_iff, lock, lockLoop_error_iff, sendKick_error_iff]
    simpa [RefusedEarly, or_assoc] using early
  rw [_handshake]
  cases admitted : checkConnect cfg env info s with
  | error e => exact ⟨e, rfl⟩
  | ok superuser =>
      cases locked : lock env with
      | error e => exact ⟨_, rfl⟩
      | ok =>
          obtain ⟨e, sent⟩ : ∃ e, sendKick env s info.id.clientId = .error e := by
            simpa [admitted, locked] using parts
          simp only [kick, sent]
          exact ⟨_, rfl⟩

theorem remove_keeping (s : Shared) (c : ClientId) :
    (_remove s c false).1.router = s.router ∧ (_remove s c false).1.created = s.created ∧
      (_remove s c false).1.peers.lookup c = none := by
  rw [_remove]
  cases found : s.peers.lookup c with
  | none => exact ⟨rfl, rfl, found⟩
  | some peer => exact ⟨rfl, rfl, Assoc.lookup_erase_self _ _⟩

/-- Without an early refusal, the client's session is removed and a new one is built. -/
theorem handshake_late (late : ¬ RefusedEarly cfg env info s) (resume : info.cleanStart = false) :
    ∃ superuser offline s', _handshake cfg env info s = establish cfg env info superuser s' offline ∧
      s'.router = s.router ∧ s'.created = s.created ∧ s'.peers.lookup info.id.clientId = none := by
  have parts : ¬ ((∃ e, checkConnect cfg env info s = .error e) ∨ (∃ e, lock env = .error e) ∨
      ∃ e, sendKick env s info.id.clientId = .error e) := by
    rw [checkConnect_error_iff, lock, lockLoop_error_iff, sendKick_error_iff]
    simpa [RefusedEarly, or_assoc] using late
  rw [_handshake]
  cases admitted : checkConnect cfg env info s with
  | error e => exact absurd (.inl ⟨e, admitted⟩) parts
  | ok superuser =>
      cases locked : lock env with
      | error e => exact absurd (.inr (.inl ⟨e, locked⟩)) parts
      | ok =>
          cases sent : sendKick env s info.id.clientId with
          | error e => exact absurd (.inr (.inr ⟨e, sent⟩)) parts
          | ok =>
              have removed := remove_keeping s info.id.clientId
              simp only [kick, sent, resume]
              cases taken : _remove s info.id.clientId false with
              | mk s' peer =>
                  rw [taken] at removed
                  cases peer with
                  | none => exact ⟨superuser, .notExist, s', rfl, removed⟩
                  | some peer => exact ⟨superuser, _, s', rfl, removed⟩

/-- The steps after the Kick succeed or fail whatever the state is. -/
theorem establish_isOk_iff {superuser : Bool} {offline : OfflineSession} :
    (∃ a, (establish cfg env info superuser s offline).2 = .ok a) ↔ Establishes cfg env info := by
  rw [Establishes, ← keepAlive_isOk_iff]
  unfold establish
  cases env.create with
  | error e => simp
  | ok =>
      cases kept : keepAlive cfg info.protoVer info.keepAlive with
      | mk secs interval =>
          cases interval with
          | error e => simp
          | ok n =>
              cases env.autoSubscription with
              | none => simp
              | some subs => cases subs <;> simp

theorem lookup_set (s : Shared) (c : ClientId) (item : EntryItem)
    (made : item.s.serial < s.created) : (s.set c item made).peers.lookup c = some item := by
  rw [Shared.set, Assoc.lookup_insert_self]

/-- They leave the router as it is, and the entry, unless it is that of the new session. -/
theorem establish_state {superuser : Bool} {offline : OfflineSession} :
    (establish cfg env info superuser s offline).1.router = s.router ∧
      ∀ peer, (establish cfg env info superuser s offline).1.peers.lookup info.id.clientId =
        some peer → s.peers.lookup info.id.clientId = some peer ∨ peer.s.serial = s.created := by
  unfold establish
  cases env.create with
  | error e => exact ⟨rfl, fun _ h => .inl h⟩
  | ok =>
      cases kept : keepAlive cfg info.protoVer info.keepAlive with
      | mk secs interval =>
          cases interval with
          | error e => exact ⟨rfl, fun _ h => .inl h⟩
          | ok n =>
              have placed := lookup_set s.allocate info.id.clientId
                ⟨Session.new cfg env info superuser s.created offline.info, false⟩
                (Nat.lt_succ_self _)
              have new : ∀ peer, (s.allocate.set info.id.clientId
                  ⟨Session.new cfg env info superuser s.created offline.info, false⟩
                  (Nat.lt_succ_self _)).peers.lookup info.id.clientId = some peer →
                  peer.s.serial = s.created := by
                intro peer h
                rw [placed] at h
                cases h
                rfl
              cases env.autoSubscription with
              | none => exact ⟨rfl, fun peer h => .inr (new peer h)⟩
              | some subs => cases subs <;> exact ⟨rfl, fun peer h => .inr (new peer h)⟩

end

/-! ## The session of a client that is refused -/

/-- The router's relations of a client are those of its session. -/
def Owned (s : Shared) (c : ClientId) : Prop :=
  ∀ f id opts, s.router.held f c = some (id, opts) →
    ∃ peer, s.peers.lookup c = some peer ∧ peer.s.id = id

/-- The client's session is the one it was, with all it holds, and the relations of the
client still belong to one. -/
structure Intact (before after : Shared) (c : ClientId) : Prop where
  session : ∀ peer, before.peers.lookup c = some peer →
    ∃ peer', after.peers.lookup c = some peer' ∧ peer'.s = peer.s
  relations : Owned before c → Owned after c

theorem Intact.refl (s : Shared) (c : ClientId) : Intact s s c :=
  ⟨fun peer h => ⟨peer, h, rfl⟩, fun owned => owned⟩

/-- A refused CONNECT that resumes a session leaves the session intact if and only if it is
refused early; once the session is removed, none of the later steps may fail. -/
theorem refused_keeps_session_iff (cfg : ListenerConfig) (env : Env) (info : ConnectInfo)
    (s : Shared) :
    (info.cleanStart = false → ∀ e, (_handshake cfg env info s).2 = .error e →
        Intact s (_handshake cfg env info s).1 info.id.clientId) ↔
      info.cleanStart = true ∨ s.peers.lookup info.id.clientId = none ∨
        RefusedEarly cfg env info s ∨ Establishes cfg env info := by
  by_cases early : RefusedEarly cfg env info s
  · rcases handshake_early early with ⟨e, refused⟩
    simp only [early, true_or, or_true, iff_true, refused]
    exact fun _ _ _ => Intact.refl s _
  · cases resume : info.cleanStart with
    | true => simp
    | false =>
        obtain ⟨superuser, offline, s', rest, router, created, removed⟩ :=
          handshake_late early resume
        rcases @establish_state cfg env info s' superuser offline with ⟨router', entry⟩
        rw [rest]
        by_cases completes : Establishes cfg env info
        · obtain ⟨a, accepted⟩ := (@establish_isOk_iff cfg env info s' superuser offline).mpr completes
          simp [completes, accepted]
        · obtain ⟨e, refused⟩ : ∃ e, (establish cfg env info superuser s' offline).2 = .error e := by
            cases h : (establish cfg env info superuser s' offline).2 with
            | error e => exact ⟨e, rfl⟩
            | ok a => exact absurd (establish_isOk_iff.mp ⟨a, h⟩) completes
          simp only [Bool.false_eq_true, false_or, early, completes, or_false, true_imp_iff]
          constructor
          · -- The entry is gone, or it is that of the new session.
            intro intact
            rw [Option.eq_none_iff_forall_ne_some]
            intro peer found
            rcases (intact e refused).session peer found with ⟨peer', found', same⟩
            rcases entry peer' found' with kept | serial
            · rw [removed] at kept
              cases kept
            · have := s.older _ peer found
              rw [same, created] at serial
              omega
          · intro fresh _ _
            refine ⟨fun peer found => ?_, fun owned f id opts held => ?_⟩
            · rw [fresh] at found
              cases found
            · rw [router', router] at held
              rcases owned f id opts held with ⟨peer, found, -⟩
              rw [fresh] at found
              cases found

def exampleConfig : ListenerConfig where
  maxClientidLen := 0
  allowZeroKeepalive := false
  minKeepalive := 0
  maxKeepalive := 65535
  backoff n := n + n / 2
  maxInflight := ⟨16, by decide⟩
  messageRetryInterval := 20000
  messageExpiryInterval := 300000

/-- Everything is answered as it is for a client that may connect. -/
def exampleEnv : Env where
  elapsed := false
  mqttMaxSessions := 0
  sessionsCount := 1
  authenticate := (.v3 .connectionAccepted, false)
  tryLock _ := .ok ()
  kick := .kicked
  offlineInfo := .ok ()
  connectedAt := 1
  create := .ok ()
  toBack := false
  autoSubscription := none

/-- A v3 CONNECT that resumes the session of `c` with this keep-alive. -/
def exampleConnect (keepAlive : UInt16) : ConnectInfo :=
  .v3 ⟨1, 1883, none, none, "c", none, 1⟩
    { protocol := 4, cleanSession := false, keepAlive, lastWill := none, clientId := "c",
      username := none, password := none, cert := none }

/-- The client `c` has a session with a queued message. -/
def exampleShared : Shared where
  peers := [("c", ⟨{
    serial := 0
    id := Id.ofClient 1 "c"
    createdAt := 0
    connectedAt := 0
    sessionPresent := false
    superuser := false
    lastId := none
    subscriptions := []
    deliverQueue := [(0, ⟨false, false, .atLeastOnce, "a", none, [], none⟩)]
    outInflight := .new 16 20000 300000 false }, false⟩)]
  router := {}
  created := 1
  older c peer h := by
    rw [List.lookup_cons] at h
    split at h
    · cases h
      exact Nat.one_pos
    · cases h

/-- A resuming client with a keep-alive of zero, which is not allowed: its session is gone. -/
theorem keepalive_refused_loses_session :
    ¬ ∀ (cfg : ListenerConfig) (env : Env) (info : ConnectInfo) (s : Shared),
      info.cleanStart = false → ∀ e, (_handshake cfg env info s).2 = .error e →
        Intact s (_handshake cfg env info s).1 info.id.clientId := by
  intro intact
  have kept := (intact exampleConfig exampleEnv (exampleConnect 0) exampleShared rfl _ rfl).session
    _ rfl
  rcases kept with ⟨peer, found, -⟩
  cases found

end OxiMqtt.Session.Handshake

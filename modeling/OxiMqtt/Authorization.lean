import OxiMqtt.AuthJwt
import OxiMqtt.Codec.V3.Decode
import OxiMqtt.Codec.V5.ConnectAck

/-!
# Who may connect, publish and subscribe

The two built-in modules that decide this, `builtins/acl.rs` and `builtins/auth_jwt.rs`, as handlers
of the hook manager, and the calls of `hook.rs` that ask them.

* `exec_pair`: what a hook type with these two handlers answers, after any run of the manager.
* `decisions_of_modules`: who decides, and how, by the keys of the two.
* `authenticated_by_token`: what a client without a token, or with one, is let in for.
-/

namespace OxiMqtt.Authorization

open OxiMqtt.Codec OxiMqtt.Codec.V5 OxiMqtt.Acl OxiMqtt.AuthJwt OxiMqtt.Hook Collections

/-! ## Parameters and results -/

/-- What the checks read of a session. -/
structure Session : Type where
  acl : Acl.Session
  superuser : Bool
  authInfo : Option AuthInfo

/-- `Parameter`, with the variants that the two modules answer. -/
inductive Parameter : Type
  | clientAuthenticate (info : ConnectInfo)
  | clientSubscribeCheckAcl (session : Session) (subscribe : AuthJwt.Subscribe)
  | messagePublishCheckAcl (session : Session) (publish : AuthJwt.Publish)

/-- `AuthResult` -/
inductive AuthResult : Type
  | allow (superuser : Superuser) (authInfo : Option AuthInfo)
  | notFound
  | badUsernameOrPassword
  | notAuthorized

/-- `HookResult`, with the variants of the three calls; `other` is any other one. -/
inductive HookResult : Type
  | authResult (result : AuthResult)
  | subscribeAclResult (reason : SubscribeAckReason)
  | publishAclResult (result : PublishAclResult)
  | other

/-- The client has been refused. -/
def refused : Option HookResult → Bool
  | some (.authResult .badUsernameOrPassword) => true
  | some (.authResult .notAuthorized) => true
  | _ => false

/-- The result of a check of a SUBSCRIBE, where there is one. -/
def asSubscribe : Option HookResult → Option SubscribeAckReason
  | some (.subscribeAclResult reason) => some reason
  | _ => none

/-- The result of a check of a PUBLISH, where there is one. -/
def asPublish : Option HookResult → Option PublishAclResult
  | some (.publishAclResult result) => some result
  | _ => none

/-! ## The two modules -/

/-- The loop of `AclHandler::hook` on `ClientAuthenticate`. -/
def aclAuthenticate (info : ConnectInfo) : List Acl.Rule → AuthResult
  | [] => .notAuthorized
  | rule :: rules =>
      if rule.control != .connect && rule.control != .all then aclAuthenticate info rules
      else
        let allow := rule.access == .allow
        let (hit, superuser) := rule.hit info.id info.password (some info.protoVer) allow
        if hit then if allow then .allow superuser none else .notAuthorized
        else aclAuthenticate info rules

/-- `AclHandler::hook` -/
def aclHook (rules : List Acl.Rule) (disconnectIfPubRejected : Bool) :
    Handler Parameter HookResult
  | .clientAuthenticate info, acc =>
      if refused acc then (false, acc) else (false, some (.authResult (aclAuthenticate info rules)))
  | .clientSubscribeCheckAcl session subscribe, acc =>
      let (proceed, reason) :=
        subscribeCheckAcl rules session.acl subscribe.topicFilter subscribe.qos (asSubscribe acc)
      (proceed, reason.map .subscribeAclResult)
  | .messagePublishCheckAcl session publish, acc =>
      let (proceed, result) :=
        publishCheckAcl rules disconnectIfPubRejected session.acl publish.topic (asPublish acc)
      (proceed, result.map .publishAclResult)

/-- `AuthHandler::hook` -/
def jwtHook (lib : Library) (lossy : Password → String) (cfg : PluginConfig) :
    Handler Parameter HookResult
  | .clientAuthenticate info, acc =>
      if refused acc then (false, acc)
      else
        match authenticate lib lossy cfg info with
        | .ok (some authInfo) =>
            (false, some (.authResult (.allow authInfo.superuser (some authInfo))))
        | .ok none => (false, some (.authResult .notAuthorized))
        | .error _ => (false, some (.authResult .notAuthorized))
  | .clientSubscribeCheckAcl session subscribe, acc =>
      if (asSubscribe acc).any failure then (false, acc)
      else
        match session.authInfo.bind fun info => info.subscribeAcl subscribe with
        | some (proceed, reason) => (proceed, some (.subscribeAclResult reason))
        | none => (true, acc)
  | .messagePublishCheckAcl session publish, acc =>
      if (asPublish acc).any (fun result => result != .allow) then (false, acc)
      else
        match session.authInfo.bind fun info =>
          info.publishAcl publish cfg.disconnectIfPubRejected with
        | some (proceed, result) => (proceed, some (.publishAclResult result))
        | none => (true, acc)

/-! ## The calls -/

/-- `ConnectAckReason` -/
inductive ConnectAckReason : Type
  | v3 (reason : V3.ConnectAckReason)
  | v5 (reason : V5.ConnectAckReason)
  deriving DecidableEq, Repr

/-- `ConnectAckReason::success` -/
def ConnectAckReason.success (reason : ConnectAckReason) : Bool :=
  reason == .v3 .connectionAccepted || reason == .v5 .success

/-- The reason of the version of the protocol. -/
def reasonOf (protoVer : UInt8) (v3 : V3.ConnectAckReason) (v5 : V5.ConnectAckReason) :
    ConnectAckReason :=
  if protoVer = MQTT_LEVEL_31 then .v3 v3
  else if protoVer = MQTT_LEVEL_311 then .v3 v3
  else if protoVer = MQTT_LEVEL_5 then .v5 v5
  else .v3 v3

abbrev Manager : Type := DefaultHookManager Parameter HookResult

/-- `client_authenticate` -/
def clientAuthenticate (manager : Manager) (info : ConnectInfo) (allowAnonymous : Bool) :
    ConnectAckReason × Superuser × Option AuthInfo :=
  let ok := reasonOf info.protoVer .connectionAccepted .success
  if info.id.username.isNone && allowAnonymous then (ok, false, none)
  else
    match manager.exec .clientAuthenticate (.clientAuthenticate info) with
    | some (.authResult .badUsernameOrPassword) =>
        (reasonOf info.protoVer .badUserNameOrPassword .badUserNameOrPassword, false, none)
    | some (.authResult .notAuthorized) =>
        (reasonOf info.protoVer .notAuthorized .notAuthorized, false, none)
    | some (.authResult (.allow superuser authInfo)) => (ok, superuser, authInfo)
    | _ =>
        if allowAnonymous then (ok, false, none)
        else (reasonOf info.protoVer .notAuthorized .notAuthorized, false, none)

/-- `client_subscribe_check_acl` -/
def clientSubscribeCheckAcl (manager : Manager) (session : Session)
    (subscribe : AuthJwt.Subscribe) : Option SubscribeAckReason :=
  if session.superuser then some (newSuccess subscribe.qos)
  else
    asSubscribe
      (manager.exec .clientSubscribeCheckAcl (.clientSubscribeCheckAcl session subscribe))

/-- `message_publish_check_acl` -/
def messagePublishCheckAcl (manager : Manager) (session : Session) (publish : AuthJwt.Publish) :
    PublishAclResult :=
  if session.superuser then .allow
  else
    (asPublish (manager.exec .messagePublishCheckAcl
      (.messagePublishCheckAcl session publish))).getD .allow

/-! ## The handlers of a hook type -/

section Pair

variable {π ρ : Type} {events : List (Event π ρ)} {s : State π ρ} {typ : HookType}

/-- After these events, the enabled handlers of a hook type are these two. -/
structure Only (events : List (Event π ρ)) (typ : HookType) (k : Key) (h : Handler π ρ) (k' : Key)
    (h' : Handler π ρ) : Prop where
  apart : k ≠ k'
  handlers : ∀ key handler,
    ((∃ r, added typ key events = some (r, handler)) ∧ status typ key events = true) ↔
      (key = k ∧ handler = h) ∨ (key = k' ∧ handler = h')

/-- The handler with the greater key is called first, and the other one if it says to proceed. -/
theorem exec_pair (ran : Machine.run Hook.step State.initial events = some s) {k k' : Key}
    {h h' : Handler π ρ} (only : Only events typ k h k' h') (p : π) :
    s.manager.exec typ p =
      if k < k' then chain p [h', h] none else chain p [h, h'] none := by
  obtain ⟨calls, down, members, run⟩ := (inv_of_run ran).calls typ p
  have same : ∀ {l : List (Key × Handler π ρ)}, (l.Pairwise fun e e' => e'.1 < e.1) →
      (∀ e, e ∈ l ↔ e = (k, h) ∨ e = (k', h')) → calls = l := by
    intro l down' members'
    refine OrdMap.eq_of_descending down down' fun e => ?_
    rw [members', members, only.handlers, Prod.ext_iff, Prod.ext_iff]
  rw [run]
  split
  · rename_i before
    rw [same (l := [(k', h'), (k, h)]) (by simpa using before)
      fun e => by rw [List.mem_pair, or_comm]]
    rfl
  · rename_i notBefore
    have before : k' < k := lt_of_le_of_ne (not_lt.mp notBefore) only.apart.symm
    rw [same (l := [(k, h), (k', h')]) (by simpa using before) fun e => List.mem_pair]
    rfl

end Pair

/-! ## Who decides -/

/-- What `acl.rs` decides about a CONNECT: the first rule for CONNECT that hits the client. -/
def aclConnect (rules : List Acl.Rule) (info : ConnectInfo) : AuthResult :=
  match rules.find? fun rule =>
      (rule.control == .connect || rule.control == .all) &&
        (rule.hit info.id info.password (some info.protoVer) (rule.access == .allow)).1 with
  | some rule =>
      match rule.access with
      | .allow => .allow (rule.hit info.id info.password (some info.protoVer) true).2 none
      | .deny => .notAuthorized
  | none => .notAuthorized

/-- The rule of `acl.rs` that decides about a topic: the first one that is for these packets, hits the
session and matches the topic. -/
def aclRule (controls : List Control) (rules : List Acl.Rule) (session : Acl.Session)
    (topic : String) : Option Acl.Rule :=
  rules.find? fun rule => controls.contains rule.control &&
    (rule.hit session.id session.password session.protocol (rule.access == .allow)).1 &&
    rule.topics.isMatch (parseOrEmpty topic) topic session.id.clientId

theorem aclAuthenticate_eq (info : ConnectInfo) (rules : List Acl.Rule) :
    aclAuthenticate info rules = aclConnect rules info := by
  induction rules with
  | nil => rfl
  | cons rule rules ih =>
      have controls : (rule.control != .connect && rule.control != .all) =
          !(rule.control == .connect || rule.control == .all) := by
        rw [Bool.not_or]
        rfl
      rw [aclAuthenticate, aclConnect, List.find?_cons, controls]
      cases rule.control == .connect || rule.control == .all with
      | false => exact ih
      | true =>
          cases found : (rule.hit info.id info.password (some info.protoVer)
              (rule.access == .allow)).1 with
          | false =>
              simp only [found]
              exact ih
          | true =>
              simp only [found]
              rcases rule with ⟨_ | _, users, control, topics⟩ <;> rfl

theorem firstMatch_eq_find (controls : List Control) (session : Acl.Session) (topic : String)
    (rules : List Acl.Rule) :
    firstMatch controls session (parseOrEmpty topic) topic rules =
      (aclRule controls rules session topic).map Acl.Rule.access := by
  induction rules with
  | nil => rfl
  | cons rule rules ih =>
      rw [firstMatch, aclRule, List.find?_cons]
      split
      · rename_i fits
        rw [fits]
        rfl
      · rename_i other
        rw [Bool.not_eq_true] at other
        rw [other, ih]
        rfl

theorem firstHit_eq_find (hit : AuthJwt.Rule → Bool) (rules : List AuthJwt.Rule) :
    firstHit hit rules = (rules.find? hit).map AuthJwt.Rule.permission := by
  induction rules with
  | nil => rfl
  | cons rule rules ih =>
      rw [firstHit, List.find?_cons]
      cases hit rule with
      | true => rfl
      | false => exact ih

/-- What a token decides about a packet: the superuser may, else the first rule that hits decides. -/
def tokenPermission (session : Session) (hit : AuthJwt.Rule → Bool) : Option Permission :=
  session.authInfo.bind fun info =>
    if info.superuser then some .allow else (info.rules.find? hit).map AuthJwt.Rule.permission

/-- What the answer of a module to a CONNECT comes to. -/
def outcome (info : ConnectInfo) : AuthResult → ConnectAckReason × Superuser × Option AuthInfo
  | .allow superuser authInfo =>
      (reasonOf info.protoVer .connectionAccepted .success, superuser, authInfo)
  | .badUsernameOrPassword =>
      (reasonOf info.protoVer .badUserNameOrPassword .badUserNameOrPassword, false, none)
  | _ => (reasonOf info.protoVer .notAuthorized .notAuthorized, false, none)

/-- What `auth_jwt.rs` decides about a CONNECT. -/
def jwtConnect (lib : Library) (lossy : Password → String) (cfg : PluginConfig)
    (info : ConnectInfo) : AuthResult :=
  match authenticate lib lossy cfg info with
  | .ok (some authInfo) => .allow authInfo.superuser (some authInfo)
  | _ => .notAuthorized

/-- What `acl.rs` decides about a SUBSCRIBE. -/
def aclSubscribe (rules : List Acl.Rule) (session : Session) (subscribe : AuthJwt.Subscribe) :
    SubscribeAckReason :=
  match aclRule [.subscribe, .pubsub, .all] rules session.acl subscribe.topicFilter with
  | some rule =>
      match rule.access with
      | .allow => newSuccess subscribe.qos
      | .deny => .unspecifiedError
  | none => .unspecifiedError

/-- What `acl.rs` decides about a PUBLISH. -/
def aclPublish (rules : List Acl.Rule) (disconnect : Bool) (session : Session)
    (publish : AuthJwt.Publish) : PublishAclResult :=
  match aclRule [.publish, .pubsub, .all] rules session.acl publish.topic with
  | some rule =>
      match rule.access with
      | .allow => .allow
      | .deny => .rejected disconnect
  | none => .rejected disconnect

/-! ## The modules at their start -/

/-- The two modules, under these keys, are the handlers of the three calls. -/
def Modules (events : List (Event Parameter HookResult)) (ka kj : HookType → Key)
    (acl jwt : Handler Parameter HookResult) : Prop :=
  ∀ typ ∈ [HookType.clientAuthenticate, .clientSubscribeCheckAcl, .messagePublishCheckAcl],
    Only events typ (ka typ) acl (kj typ) jwt

/-- `init` of a module: a register, its handlers with one priority, and `start`. -/
def initModule (r : Nat) (types : List HookType) (priority : Priority) (id : HandlerId)
    (handler : Handler Parameter HookResult) : List (Event Parameter HookResult) :=
  .register :: (types.map fun typ => .addPriority r typ priority id handler) ++
    types.map fun typ => .adjust r typ (toLex (priority, id)) true

/-- The three calls. -/
def checks : List HookType :=
  [.clientAuthenticate, .clientSubscribeCheckAcl, .messagePublishCheckAcl]

/-- Both modules with the priorities of their defaults. -/
def initAll (acl jwt : Handler Parameter HookResult) : List (Event Parameter HookResult) :=
  initModule 0 checks 10 "acl" acl ++ initModule 1 checks 50 "jwt" jwt

/-- A client, and a token with one rule: it may publish under its own client id. -/
def demoClient : ConnectInfo := ⟨⟨"c", none, none⟩, some [0], MQTT_LEVEL_5⟩

def demoClaims : Claims :=
  [("acl", .array [.object [("permission", .string "allow"), ("action", .string "publish"),
    ("topic", .string "eq ${clientid}")]])]

def demoLibrary : Library where
  decodeHeader token := if token = "token" then some "HS256" else none
  decode token _ := if token = "token" then some demoClaims else none

def demoLossy (_ : Password) : String := "token"

def demoConfig : PluginConfig := ⟨true, .password, ⟨[], false, false, none, none, none⟩⟩

theorem added_initAll (acl jwt : Handler Parameter HookResult) {typ : HookType} (check : typ ∈ checks)
    (key : Key) : added typ key (initAll acl jwt) =
      if toLex (10, "acl") = key then some (0, acl)
      else if toLex (50, "jwt") = key then some (1, jwt) else none := by
  simp only [checks, List.mem_cons, List.not_mem_nil, or_false] at check
  rcases check with rfl | rfl | rfl <;>
    by_cases first : toLex (10, "acl") = key <;> by_cases second : toLex (50, "jwt") = key <;>
      simp [added, initAll, initModule, checks, Event.adds, List.findSome?_cons, first, second]

theorem status_initAll (acl jwt : Handler Parameter HookResult) {typ : HookType}
    (check : typ ∈ checks) (key : Key) : status typ key (initAll acl jwt) =
      decide (toLex (10, "acl") = key ∨ toLex (50, "jwt") = key) := by
  simp only [checks, List.mem_cons, List.not_mem_nil, or_false] at check
  rcases check with rfl | rfl | rfl <;>
    by_cases first : toLex (10, "acl") = key <;> by_cases second : toLex (50, "jwt") = key <;>
      simp [status, initAll, initModule, checks, Event.adjusts, List.findSome?_cons, first,
        second]

theorem modules_initAll (acl jwt : Handler Parameter HookResult) :
    Modules (initAll acl jwt) (fun _ => toLex (10, "acl")) (fun _ => toLex (50, "jwt")) acl jwt := by
  intro typ check
  have apart : (toLex (10, "acl") : Key) ≠ toLex (50, "jwt") := by decide
  refine ⟨apart, fun key handler => ?_⟩
  rw [added_initAll acl jwt check, status_initAll acl jwt check]
  by_cases first : toLex (10, "acl") = key
  · subst first
    simp [apart, eq_comm]
  · by_cases second : toLex (50, "jwt") = key
    · subst second
      simp [apart, apart.symm, eq_comm]
    · simp [first, second, Ne.symm first, Ne.symm second]

/-! ## What the modules answer -/

section Answers

variable (rules : List Acl.Rule) (disconnect : Bool) (lib : Library) (lossy : Password → String)
  (cfg : PluginConfig) (info : ConnectInfo) (session : Session) (subscribe : AuthJwt.Subscribe)
  (publish : AuthJwt.Publish)

theorem aclConnect_cases :
    (∃ superuser, aclConnect rules info = .allow superuser none) ∨
      aclConnect rules info = .notAuthorized := by
  unfold aclConnect
  split
  · split
    · exact .inl ⟨_, rfl⟩
    · exact .inr rfl
  · exact .inr rfl

theorem jwtConnect_cases :
    (∃ authInfo, jwtConnect lib lossy cfg info = .allow authInfo.superuser (some authInfo)) ∨
      jwtConnect lib lossy cfg info = .notAuthorized := by
  unfold jwtConnect
  split
  · exact .inl ⟨_, rfl⟩
  · exact .inr rfl

theorem aclHook_connect : aclHook rules disconnect (.clientAuthenticate info) none =
    (false, some (.authResult (aclConnect rules info))) := by
  rw [← aclAuthenticate_eq]
  rfl

theorem jwtHook_connect : jwtHook lib lossy cfg (.clientAuthenticate info) none =
    (false, some (.authResult (jwtConnect lib lossy cfg info))) := by
  simp only [jwtHook, refused, jwtConnect, Bool.false_eq_true, if_false]
  rcases authenticate lib lossy cfg info with e | _ | authInfo <;> rfl

theorem aclHook_subscribe : aclHook rules disconnect (.clientSubscribeCheckAcl session subscribe) none =
    (false, some (.subscribeAclResult (aclSubscribe rules session subscribe))) := by
  simp only [aclHook, asSubscribe, subscribeCheckAcl, firstMatch_eq_find, aclSubscribe]
  rcases aclRule [.subscribe, .pubsub, .all] rules session.acl subscribe.topicFilter
    with _ | ⟨_ | _, users, control, topics⟩ <;> rfl

theorem aclHook_publish : aclHook rules disconnect (.messagePublishCheckAcl session publish) none =
    (false, some (.publishAclResult (aclPublish rules disconnect session publish))) := by
  simp only [aclHook, asPublish, publishCheckAcl, firstMatch_eq_find, aclPublish]
  rcases aclRule [.publish, .pubsub, .all] rules session.acl publish.topic
    with _ | ⟨_ | _, users, control, topics⟩ <;> rfl

theorem jwtHook_subscribe : jwtHook lib lossy cfg (.clientSubscribeCheckAcl session subscribe) none =
    match tokenPermission session fun rule => rule.subscribeHit subscribe with
    | some .allow => (false, some (.subscribeAclResult (newSuccess subscribe.qos)))
    | some .deny => (false, some (.subscribeAclResult .notAuthorized))
    | none => (true, none) := by
  simp only [jwtHook, asSubscribe, tokenPermission, AuthInfo.subscribeAcl, firstHit_eq_find]
  rcases session.authInfo with _ | ⟨_ | _, expireAt, tokenRules⟩
  · rfl
  · simp only [Option.any_none, Option.bind_some, Bool.false_eq_true, if_false]
    cases (tokenRules.find? fun rule => rule.subscribeHit subscribe).map AuthJwt.Rule.permission with
    | none => rfl
    | some permission => cases permission <;> rfl
  · rfl

theorem jwtHook_publish : jwtHook lib lossy cfg (.messagePublishCheckAcl session publish) none =
    match tokenPermission session fun rule => rule.publishesHit publish with
    | some .allow => (false, some (.publishAclResult .allow))
    | some .deny => (false, some (.publishAclResult (.rejected cfg.disconnectIfPubRejected)))
    | none => (true, none) := by
  simp only [jwtHook, asPublish, tokenPermission, AuthInfo.publishAcl, firstHit_eq_find]
  rcases session.authInfo with _ | ⟨_ | _, expireAt, tokenRules⟩
  · rfl
  · simp only [Option.any_none, Option.bind_some, Bool.false_eq_true, if_false]
    cases (tokenRules.find? fun rule => rule.publishesHit publish).map AuthJwt.Rule.permission with
    | none => rfl
    | some permission => cases permission <;> rfl
  · rfl

end Answers

section Decisions

variable {events : List (Event Parameter HookResult)} {s : State Parameter HookResult}
  {rules : List Acl.Rule} {disconnect : Bool} {lib : Library} {lossy : Password → String}
  {cfg : PluginConfig} {ka kj : HookType → Key}

/-- Who may connect: the module with the greater key decides. -/
theorem connect_of_modules (ran : Machine.run Hook.step State.initial events = some s)
    (modules : Modules events ka kj (aclHook rules disconnect) (jwtHook lib lossy cfg))
    (info : ConnectInfo) (allowAnonymous : Bool) :
    clientAuthenticate s.manager info allowAnonymous =
      if info.id.username.isNone && allowAnonymous then
        (reasonOf info.protoVer .connectionAccepted .success, false, none)
      else
        outcome info (if ka .clientAuthenticate < kj .clientAuthenticate then
          jwtConnect lib lossy cfg info else aclConnect rules info) := by
  have asked := exec_pair ran (modules .clientAuthenticate (by simp)) (.clientAuthenticate info)
  rw [clientAuthenticate, asked]
  simp only [chain, aclHook_connect, jwtHook_connect]
  split
  · rfl
  · by_cases later : ka .clientAuthenticate < kj .clientAuthenticate
    · rw [if_pos later, if_pos later]
      rcases jwtConnect_cases lib lossy cfg info with ⟨authInfo, answer⟩ | answer
      · rw [answer]
        rfl
      · rw [answer]
        rfl
    · rw [if_neg later, if_neg later]
      rcases aclConnect_cases rules info with ⟨superuser, answer⟩ | answer
      · rw [answer]
        rfl
      · rw [answer]
        rfl

theorem subscribe_of_modules (ran : Machine.run Hook.step State.initial events = some s)
    (modules : Modules events ka kj (aclHook rules disconnect) (jwtHook lib lossy cfg))
    (session : Session) (subscribe : AuthJwt.Subscribe) :
    clientSubscribeCheckAcl s.manager session subscribe =
      some (if session.superuser then newSuccess subscribe.qos
        else
          match if ka .clientSubscribeCheckAcl < kj .clientSubscribeCheckAcl then
            tokenPermission session fun rule => rule.subscribeHit subscribe else none with
          | some .allow => newSuccess subscribe.qos
          | some .deny => .notAuthorized
          | none => aclSubscribe rules session subscribe) := by
  have asked := exec_pair ran (modules .clientSubscribeCheckAcl (by simp))
    (.clientSubscribeCheckAcl session subscribe)
  rw [clientSubscribeCheckAcl, asked]
  simp only [chain, aclHook_subscribe, jwtHook_subscribe]
  split
  · rfl
  · by_cases later : ka .clientSubscribeCheckAcl < kj .clientSubscribeCheckAcl
    · rw [if_pos later, if_pos later]
      cases tokenPermission session fun rule => rule.subscribeHit subscribe with
      | none =>
          dsimp only
          rw [aclHook_subscribe]
          rfl
      | some permission => cases permission <;> rfl
    · rw [if_neg later, if_neg later]
      rfl

theorem publish_of_modules (ran : Machine.run Hook.step State.initial events = some s)
    (modules : Modules events ka kj (aclHook rules disconnect) (jwtHook lib lossy cfg))
    (session : Session) (publish : AuthJwt.Publish) :
    messagePublishCheckAcl s.manager session publish =
      if session.superuser then .allow
      else
        match if ka .messagePublishCheckAcl < kj .messagePublishCheckAcl then
          tokenPermission session fun rule => rule.publishesHit publish else none with
        | some .allow => .allow
        | some .deny => .rejected cfg.disconnectIfPubRejected
        | none => aclPublish rules disconnect session publish := by
  have asked := exec_pair ran (modules .messagePublishCheckAcl (by simp))
    (.messagePublishCheckAcl session publish)
  rw [messagePublishCheckAcl, asked]
  simp only [chain, aclHook_publish, jwtHook_publish]
  split
  · rfl
  · by_cases later : ka .messagePublishCheckAcl < kj .messagePublishCheckAcl
    · rw [if_pos later, if_pos later]
      cases tokenPermission session fun rule => rule.publishesHit publish with
      | none =>
          dsimp only
          rw [aclHook_publish]
          rfl
      | some permission => cases permission <;> rfl
    · rw [if_neg later, if_neg later]
      rfl

/-- After any run of the manager that leaves the two modules as the handlers of the three calls, the
one with the greater key comes first.  If that is `acl.rs`, the token is never asked.  If it is
`auth_jwt.rs`, the token alone decides who may connect; about a packet, the first rule of the token
that hits decides, and where none does, the first rule of `acl.rs`, which refuses what no rule
allows.  A superuser is not asked about packets. -/
theorem decisions_of_modules (ran : Machine.run Hook.step State.initial events = some s)
    (modules : Modules events ka kj (aclHook rules disconnect) (jwtHook lib lossy cfg)) :
    (∀ info allowAnonymous, clientAuthenticate s.manager info allowAnonymous =
      if info.id.username.isNone && allowAnonymous then
        (reasonOf info.protoVer .connectionAccepted .success, false, none)
      else
        outcome info (if ka .clientAuthenticate < kj .clientAuthenticate then
          jwtConnect lib lossy cfg info else aclConnect rules info)) ∧
    (∀ session subscribe, clientSubscribeCheckAcl s.manager session subscribe =
      some (if session.superuser then newSuccess subscribe.qos
        else
          match if ka .clientSubscribeCheckAcl < kj .clientSubscribeCheckAcl then
            tokenPermission session fun rule => rule.subscribeHit subscribe else none with
          | some .allow => newSuccess subscribe.qos
          | some .deny => .notAuthorized
          | none => aclSubscribe rules session subscribe)) ∧
    ∀ session publish, messagePublishCheckAcl s.manager session publish =
      if session.superuser then .allow
      else
        match if ka .messagePublishCheckAcl < kj .messagePublishCheckAcl then
          tokenPermission session fun rule => rule.publishesHit publish else none with
        | some .allow => .allow
        | some .deny => .rejected cfg.disconnectIfPubRejected
        | none => aclPublish rules disconnect session publish :=
  ⟨connect_of_modules ran modules, subscribe_of_modules ran modules, publish_of_modules ran modules⟩

/-- The answer to a client with a good token, where the modules have the priorities of their
defaults: the token is asked before `acl.rs`. -/
theorem decisions_of_modules_defaults : ∃ s,
    Machine.run Hook.step State.initial
      (initAll (aclHook [] true) (jwtHook demoLibrary demoLossy demoConfig)) = some s ∧
    clientAuthenticate s.manager demoClient false =
      outcome demoClient (jwtConnect demoLibrary demoLossy demoConfig demoClient) :=
  ⟨_, rfl, (decisions_of_modules rfl (modules_initAll _ _)).1 demoClient false⟩

/-! ## What a token is good for -/

/-- The rights of a client with these claims and rules. -/
def rightsOf (claims : Claims) (rules : List AuthJwt.Rule) : AuthInfo where
  superuser := ((claims.lookup "superuser").bind Value.asBool).getD false
  expireAt := (claims.lookup "exp").bind Value.asU64
  rules := rules

theorem hasText_iff {claims : Claims} {name : String} {texts : List String} :
    hasText claims name texts = true ↔ ∃ s ∈ texts, claims.lookup name = some (.string s) := by
  unfold hasText
  rcases claims.lookup name with _ | value
  · simp
  · cases value <;> simp [Value.asStr]

end Decisions

section Results

variable {ε α β : Type}

theorem bindExcept_eq_ok {x : Except ε α} {f : α → Except ε β} {b : β} :
    (x >>= f) = .ok b ↔ ∃ a, x = .ok a ∧ f a = .ok b := by
  constructor
  · intro h
    cases x with
    | error e => cases h
    | ok a => exact ⟨a, rfl, h⟩
  · intro h
    obtain ⟨a, rfl, h⟩ := h
    exact h

/-- A list is mapped to good values exactly when each of its elements is. -/
theorem mapM_all {f : α → Except ε β} {P : β → Prop} (l : List α) :
    (∃ bs, l.mapM f = .ok bs ∧ ∀ b ∈ bs, P b) ↔ ∀ a ∈ l, ∃ b, f a = .ok b ∧ P b := by
  induction l with
  | nil => exact ⟨fun _ a none => absurd none List.not_mem_nil, fun _ => ⟨[], rfl, by simp⟩⟩
  | cons a l ih =>
      rw [List.forall_mem_cons, ← ih]
      constructor
      · intro h
        obtain ⟨bs, mapped, good⟩ := h
        rw [List.mapM_cons] at mapped
        obtain ⟨b, first, mapped⟩ := bindExcept_eq_ok.mp mapped
        obtain ⟨bs', rest, last⟩ := bindExcept_eq_ok.mp mapped
        cases last
        exact ⟨⟨b, first, good b List.mem_cons_self⟩, bs', rest,
          fun b' hb' => good b' (List.mem_cons_of_mem b hb')⟩
      · intro h
        obtain ⟨⟨b, first, goodFirst⟩, bs, rest, good⟩ := h
        refine ⟨b :: bs, ?_, List.forall_mem_cons.mpr ⟨goodFirst, good⟩⟩
        rw [List.mapM_cons, first]
        change (l.mapM f >>= fun bs => pure (b :: bs)) = _
        rw [rest]
        rfl

end Results

/-- The texts of a custom claim for this client, one of which the token has. -/
def Has (info : ConnectInfo) (claims : Claims) (custom : String × List ClaimItem) : Prop :=
  ∃ texts, (custom.2.mapM fun item => item.replaces info) = .ok texts ∧
    ∃ s ∈ texts, claims.lookup custom.1 = some (.string s)

/-- The client has a token that the library accepts with the claims that are asked for, and each
custom claim is one of its expected texts, as they read for this client. -/
structure Vouches (lib : Library) (lossy : Password → String) (cfg : PluginConfig)
    (info : ConnectInfo) (claims : Claims) : Prop where
  accepted : ∃ token alg aud iss sub, tokenOf lossy cfg info = some token ∧
    lib.decodeHeader token = some alg ∧
    expectedTexts info cfg.validateClaims.validateAud = .ok aud ∧
    expectedTexts info cfg.validateClaims.validateIss = .ok iss ∧
    expectedText info cfg.validateClaims.validateSub = .ok sub ∧
    lib.decode token (validationOf cfg.validateClaims alg aud iss sub) = some claims
  customs : ∀ custom ∈ cfg.validateClaims.validateCustoms, Has info claims custom

theorem fillCustom_has {info : ConnectInfo} {claims : Claims}
    {custom : String × List ClaimItem} :
    (∃ v, fillCustom info custom = .ok v ∧ hasText claims v.1 v.2 = true) ↔
      Has info claims custom := by
  constructor
  · intro h
    obtain ⟨v, filled, has⟩ := h
    obtain ⟨texts, mapped, last⟩ := bindExcept_eq_ok.mp filled
    cases last
    exact ⟨texts, mapped, hasText_iff.mp has⟩
  · intro h
    obtain ⟨texts, mapped, has⟩ := h
    exact ⟨(custom.1, texts), bindExcept_eq_ok.mpr ⟨texts, mapped, rfl⟩, hasText_iff.mpr has⟩

theorem extendedAuth_eq_ok {cfg : ValidateClaims} {info : ConnectInfo} {claims : Claims} :
    extendedAuth cfg info claims = .ok () ↔ ∀ custom ∈ cfg.validateCustoms,
      Has info claims custom := by
  simp only [← fillCustom_has]
  rw [← mapM_all (f := fillCustom info) (P := fun v => hasText claims v.1 v.2 = true)]
  constructor
  · intro h
    obtain ⟨validates, mapped, checked⟩ := bindExcept_eq_ok.mp h
    refine ⟨validates, mapped, fun v hv => ?_⟩
    split at checked
    · cases checked
    · rename_i none
      simpa using List.find?_eq_none.mp none v hv
  · intro h
    obtain ⟨validates, mapped, good⟩ := h
    refine bindExcept_eq_ok.mpr ⟨validates, mapped, ?_⟩
    split
    · rename_i missing
      have absent := List.find?_some missing
      have present := good _ (List.mem_of_find?_eq_some missing)
      simp [present] at absent
    · rfl

theorem standardAuth_eq_ok {lib : Library} {cfg : ValidateClaims} {info : ConnectInfo}
    {token : String} {claims : Claims} :
    standardAuth lib cfg info token = .ok claims ↔ ∃ alg aud iss sub,
      lib.decodeHeader token = some alg ∧ expectedTexts info cfg.validateAud = .ok aud ∧
      expectedTexts info cfg.validateIss = .ok iss ∧ expectedText info cfg.validateSub = .ok sub ∧
      lib.decode token (validationOf cfg alg aud iss sub) = some claims := by
  constructor
  · intro h
    obtain ⟨aud, haud, h⟩ := bindExcept_eq_ok.mp h
    obtain ⟨iss, hiss, h⟩ := bindExcept_eq_ok.mp h
    obtain ⟨sub, hsub, h⟩ := bindExcept_eq_ok.mp h
    split at h
    · rename_i alg header
      split at h
      · rename_i decoded
        cases h
        exact ⟨alg, aud, iss, sub, header, haud, hiss, hsub, decoded⟩
      · cases h
    · cases h
  · intro h
    obtain ⟨alg, aud, iss, sub, header, haud, hiss, hsub, decoded⟩ := h
    refine bindExcept_eq_ok.mpr ⟨aud, haud, bindExcept_eq_ok.mpr ⟨iss, hiss,
      bindExcept_eq_ok.mpr ⟨sub, hsub, ?_⟩⟩⟩
    rw [header]
    dsimp only
    rw [decoded]

/-- A token lets its client in exactly when it vouches for it and all its rules are well-formed. -/
theorem authenticate_eq_ok {lib : Library} {lossy : Password → String} {cfg : PluginConfig}
    {info : ConnectInfo} {authInfo : AuthInfo} :
    authenticate lib lossy cfg info = .ok (some authInfo) ↔ ∃ claims rules,
      Vouches lib lossy cfg info claims ∧ rulesOf claims info = .ok rules ∧
        authInfo = rightsOf claims rules := by
  unfold authenticate
  constructor
  · intro h
    split at h
    · cases h
    · rename_i token present
      obtain ⟨claims, standard, h⟩ := bindExcept_eq_ok.mp h
      obtain ⟨_, extended, h⟩ := bindExcept_eq_ok.mp h
      obtain ⟨rules, listed, h⟩ := bindExcept_eq_ok.mp h
      cases h
      obtain ⟨alg, aud, iss, sub, rest⟩ := standardAuth_eq_ok.mp standard
      exact ⟨claims, rules, ⟨⟨token, alg, aud, iss, sub, present, rest⟩,
        extendedAuth_eq_ok.mp extended⟩, listed, rfl⟩
  · intro h
    obtain ⟨claims, rules, ⟨⟨token, alg, aud, iss, sub, present, rest⟩, customs⟩, listed, rfl⟩ := h
    rw [present]
    exact bindExcept_eq_ok.mpr ⟨claims, standardAuth_eq_ok.mpr ⟨alg, aud, iss, sub, rest⟩,
      bindExcept_eq_ok.mpr ⟨(), extendedAuth_eq_ok.mpr customs,
        bindExcept_eq_ok.mpr ⟨rules, listed, rfl⟩⟩⟩

section Tokens

variable {events : List (Event Parameter HookResult)} {s : State Parameter HookResult}
  {rules : List Acl.Rule} {disconnect : Bool} {lib : Library} {lossy : Password → String}
  {cfg : PluginConfig} {ka kj : HookType → Key}

theorem reasonOf_accepted (protoVer : UInt8) :
    (reasonOf protoVer .connectionAccepted .success).success = true := by
  unfold reasonOf
  split
  · rfl
  · split
    · rfl
    · split <;> rfl

theorem reasonOf_notAuthorized (protoVer : UInt8) :
    (reasonOf protoVer .notAuthorized .notAuthorized).success = false := by
  unfold reasonOf
  split
  · rfl
  · split
    · rfl
    · split <;> rfl

theorem superuser_rightsOf {claims : Claims} {listed : List AuthJwt.Rule} :
    (rightsOf claims listed).superuser = true ↔
      claims.lookup "superuser" = some (.bool true) := by
  unfold rightsOf
  rcases claims.lookup "superuser" with _ | value
  · simp
  · cases value <;> simp [Value.asBool]

theorem jwtConnect_eq_allow {info : ConnectInfo} {claims : Claims} {listed : List AuthJwt.Rule}
    (vouches : Vouches lib lossy cfg info claims) (built : rulesOf claims info = .ok listed) :
    jwtConnect lib lossy cfg info =
      .allow (rightsOf claims listed).superuser (some (rightsOf claims listed)) := by
  rw [jwtConnect, authenticate_eq_ok.mpr ⟨claims, listed, vouches, built, rfl⟩]

theorem success_outcome_jwtConnect {info : ConnectInfo} :
    (outcome info (jwtConnect lib lossy cfg info)).1.success = true ↔
      ∃ claims listed, Vouches lib lossy cfg info claims ∧ rulesOf claims info = .ok listed := by
  constructor
  · intro accepted
    unfold jwtConnect at accepted
    split at accepted
    · rename_i authInfo ok
      obtain ⟨claims, listed, vouches, built, -⟩ := authenticate_eq_ok.mp ok
      exact ⟨claims, listed, vouches, built⟩
    · exact absurd accepted (by simp [outcome, reasonOf_notAuthorized])
  · intro h
    obtain ⟨claims, listed, vouches, built⟩ := h
    rw [jwtConnect_eq_allow vouches built]
    exact reasonOf_accepted info.protoVer

/-- With `auth_jwt.rs` asked first, a client gets in without a user name where anonymous clients may,
and otherwise exactly if it has a token that vouches for it and whose rules are all well-formed.  The
session then has the rights of that token: what it publishes is decided by the first rule of the
token that hits, unless it is a superuser, and by `acl.rs` only where none does. -/
theorem authenticated_by_token (ran : Machine.run Hook.step State.initial events = some s)
    (modules : Modules events ka kj (aclHook rules disconnect) (jwtHook lib lossy cfg))
    (first : ∀ typ, ka typ < kj typ) (info : ConnectInfo) (allowAnonymous : Bool) :
    ((clientAuthenticate s.manager info allowAnonymous).1.success = true ↔
      (info.id.username = none ∧ allowAnonymous = true) ∨
        ∃ claims listed, Vouches lib lossy cfg info claims ∧ rulesOf claims info = .ok listed) ∧
    ∀ claims listed, Vouches lib lossy cfg info claims → rulesOf claims info = .ok listed →
      (info.id.username.isNone && allowAnonymous) = false →
      ∃ superuser authInfo, clientAuthenticate s.manager info allowAnonymous =
          (reasonOf info.protoVer .connectionAccepted .success, superuser, some authInfo) ∧
        (superuser = true ↔ claims.lookup "superuser" = some (.bool true)) ∧
        ∀ acl publish, messagePublishCheckAcl s.manager ⟨acl, superuser, some authInfo⟩ publish =
          if superuser then .allow
          else
            match listed.find? fun rule => rule.publishesHit publish with
            | some rule =>
                if rule.permission = .allow then .allow
                else .rejected cfg.disconnectIfPubRejected
            | none => aclPublish rules disconnect ⟨acl, superuser, some authInfo⟩ publish := by
  constructor
  · rw [connect_of_modules ran modules, if_pos (first _)]
    by_cases anonymous : (info.id.username.isNone && allowAnonymous) = true
    · rw [if_pos anonymous]
      rw [Bool.and_eq_true, Option.isNone_iff_eq_none] at anonymous
      exact ⟨fun _ => .inl anonymous, fun _ => reasonOf_accepted info.protoVer⟩
    · rw [if_neg anonymous, success_outcome_jwtConnect]
      rw [Bool.and_eq_true, Option.isNone_iff_eq_none] at anonymous
      exact ⟨.inr, fun h => h.resolve_left anonymous⟩
  · intro claims listed vouches built named
    refine ⟨(rightsOf claims listed).superuser, rightsOf claims listed, ?_, ?_, fun acl publish => ?_⟩
    · rw [connect_of_modules ran modules, if_pos (first _), named, if_neg Bool.false_ne_true,
        jwtConnect_eq_allow vouches built]
      rfl
    · exact superuser_rightsOf
    · rw [publish_of_modules ran modules, if_pos (first _)]
      split
      · rfl
      · rename_i ordinary
        simp only [tokenPermission, Option.bind_some]
        rw [if_neg ordinary]
        dsimp only [rightsOf]
        cases listed.find? fun rule => rule.publishesHit publish with
        | none => rfl
        | some rule =>
            rcases rule with ⟨_ | _, action, qos, retain, topic⟩ <;> rfl

/-- A client with a token for what it publishes under its own client id. -/
theorem authenticated_by_token_own_topic : ∃ s,
    Machine.run Hook.step State.initial
      (initAll (aclHook [] true) (jwtHook demoLibrary demoLossy demoConfig)) = some s ∧
    (clientAuthenticate s.manager demoClient false).1.success = true :=
  ⟨_, rfl, (authenticated_by_token rfl (modules_initAll _ _) (fun _ => by decide) demoClient
    false).1.mpr (.inr ⟨demoClaims, _, ⟨⟨"token", "HS256", none, none, none, rfl, rfl, rfl, rfl, rfl,
      rfl⟩, by simp [demoConfig]⟩, rfl⟩)⟩

end Tokens

end OxiMqtt.Authorization

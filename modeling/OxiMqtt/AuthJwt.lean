import OxiMqtt.AclPlaceholders
import OxiMqtt.Hook
import OxiMqtt.TopicMatch

/-!
# Tokens, and the rules that they carry

The rules of `acl.rs`, and `AuthHandler` of `builtins/auth_jwt.rs`, which takes them from the claims
of the token that a client connects with.  The library that checks the signature and the registered
claims of a token is a parameter (`Library`); what the handlers log is left out.
-/

namespace OxiMqtt.AuthJwt

open Wire OxiMqtt.Codec OxiMqtt.Codec.V5 OxiMqtt.Acl

/-! ## The rules -/

/-- `ConnectInfo`, as far as it is read here. -/
structure ConnectInfo : Type where
  id : Id
  password : Option Password
  protoVer : UInt8

def PLACEHOLDER_USERNAME : List Char := "${username}".toList
def PLACEHOLDER_CLIENTID : List Char := "${clientid}".toList
def PLACEHOLDER_IPADDR : List Char := "${ipaddr}".toList
def PLACEHOLDER_PROTOCOL : List Char := "${protocol}".toList

/-- The errors, with what their texts print. -/
inductive AuthError : Type
  | ruleConfig (cfg : Value)
  | topicConfig (cfg : String)
  | unknownPermission
  | unknownAction
  | unknownQoS
  | qos (e : DecodeError)
  | noUsername
  | noIpaddr
  | topic (e : TopicError)
  | token
  | verification (name : String) (expecteds : List String) (actual : Option String)
  | claimsConfig (claim : String) (val : Value)

inductive Permission : Type
  | allow
  | deny
  deriving DecidableEq, Repr

inductive Action : Type
  | all
  | publish
  | subscribe
  deriving DecidableEq, Repr

/-- `acl::Topic` -/
structure RuleTopic : Type where
  eqTopicFilter : Option String
  topicFilter : Option Topic

/-- `acl::Rule` -/
structure Rule : Type where
  permission : Permission
  action : Action
  qos : Option (List QoS)
  retain : Option Bool
  topic : RuleTopic

/-- `AuthInfo` -/
structure AuthInfo : Type where
  superuser : Bool
  expireAt : Option Nat
  rules : List Rule

/-- The fields of a SUBSCRIBE that the rules read. -/
structure Subscribe : Type where
  topicFilter : String
  qos : QoS

/-- The fields of a PUBLISH that the rules read. -/
structure Publish : Type where
  topic : String
  qos : QoS
  retain : Bool

/-- `Topic::is_match` -/
def RuleTopic.isMatch (t : RuleTopic) (topic : String) : Bool :=
  match t.eqTopicFilter with
  | some eqTopicFilter => eqTopicFilter == topic
  | none =>
      match t.topicFilter with
      | some topicFilter => topicFilter.matchesStr topic
      | none => false

namespace Rule

/-- The checks of the QoS and the topic, which both kinds of packet share. -/
def qosTopicHit (rule : Rule) (qos : QoS) (topic : String) : Bool :=
  if !((rule.qos.map fun listed => listed.contains qos).getD true) then false
  else if !rule.topic.isMatch topic then false
  else true

/-- `Rule::subscribe_hit` -/
def subscribeHit (rule : Rule) (subscribe : Subscribe) : Bool :=
  if rule.action != .subscribe && rule.action != .all then false
  else rule.qosTopicHit subscribe.qos subscribe.topicFilter

/-- `Rule::publish_hit` -/
def publishHit (rule : Rule) (publish : Publish) : Bool :=
  if rule.action != .publish && rule.action != .all then false
  else rule.qosTopicHit publish.qos publish.topic

/-- `Rule::publish_allow_hit` -/
def publishAllowHit (rule : Rule) (publish : Publish) : Bool :=
  match rule.retain with
  | some retain => if !retain && publish.retain then false else rule.publishHit publish
  | none => rule.publishHit publish

/-- `Rule::publish_deny_hit` -/
def publishDenyHit (rule : Rule) (publish : Publish) : Bool :=
  match rule.retain with
  | some retain => if retain != publish.retain then false else rule.publishHit publish
  | none => rule.publishHit publish

/-- The hit that `publish_acl` asks for, by the permission. -/
def publishesHit (rule : Rule) (publish : Publish) : Bool :=
  match rule.permission with
  | .allow => rule.publishAllowHit publish
  | .deny => rule.publishDenyHit publish

end Rule

/-- The permission of the first rule that hits. -/
def firstHit (hit : Rule → Bool) : List Rule → Option Permission
  | [] => none
  | rule :: rules => if hit rule then some rule.permission else firstHit hit rules

namespace AuthInfo

/-- `AuthInfo::subscribe_acl`; the hook chain ends with an answer. -/
def subscribeAcl (info : AuthInfo) (subscribe : Subscribe) : Option (Bool × SubscribeAckReason) :=
  if info.superuser then some (false, newSuccess subscribe.qos)
  else
    match firstHit (fun rule => rule.subscribeHit subscribe) info.rules with
    | some .allow => some (false, newSuccess subscribe.qos)
    | some .deny => some (false, .notAuthorized)
    | none => none

/-- `AuthInfo::publish_acl` -/
def publishAcl (info : AuthInfo) (publish : Publish) (disconnectIfPubRejected : Bool) :
    Option (Bool × PublishAclResult) :=
  if info.superuser then some (false, .allow)
  else
    match firstHit (fun rule => rule.publishesHit publish) info.rules with
    | some .allow => some (false, .allow)
    | some .deny => some (false, .rejected disconnectIfPubRejected)
    | none => none

end AuthInfo

/-! ## Building the rules -/

/-- `Permission::try_from` -/
def Permission.tryFrom (s : String) : Except AuthError Permission :=
  if s = "allow" then .ok .allow
  else if s = "deny" then .ok .deny
  else .error .unknownPermission

/-- `Action::try_from` -/
def Action.tryFrom (s : String) : Except AuthError Action :=
  if s = "all" then .ok .all
  else if s = "publish" then .ok .publish
  else if s = "subscribe" then .ok .subscribe
  else .error .unknownAction

/-- `replaces` of `acl.rs` -/
def replaces (topicCfg : String) (info : ConnectInfo) : Except AuthError String :=
  match contains topicCfg PLACEHOLDER_USERNAME, contains topicCfg PLACEHOLDER_CLIENTID with
  | true, true =>
      match info.id.username with
      | some username =>
          .ok (replace (replace topicCfg PLACEHOLDER_USERNAME username) PLACEHOLDER_CLIENTID
            info.id.clientId)
      | none => .error .noUsername
  | true, false =>
      match info.id.username with
      | some username => .ok (replace topicCfg PLACEHOLDER_USERNAME username)
      | none => .error .noUsername
  | false, true => .ok (replace topicCfg PLACEHOLDER_CLIENTID info.id.clientId)
  | false, false => .ok topicCfg

/-- `s.strip_prefix(prefix)` -/
def stripPrefix (front : List Char) (s : String) : Option String :=
  if front.isPrefixOf s.toList then some (String.ofList (s.toList.drop front.length)) else none

/-- `Topic::try_from` -/
def RuleTopic.tryFrom (topicCfg : String) (info : ConnectInfo) : Except AuthError RuleTopic :=
  match stripPrefix "eq ".toList topicCfg with
  | some stripped => do
      let eqTopicFilter ← replaces stripped info
      .ok ⟨some eqTopicFilter, none⟩
  | none =>
      if topicCfg.isEmpty then .error (.topicConfig topicCfg)
      else do
        let topicFilter ← replaces topicCfg info
        let topicFilter ← (Topic.fromStr topicFilter).mapError .topic
        .ok ⟨none, some topicFilter⟩

/-- `QoS::try_from(q as u8)` -/
def qosOf (q : Nat) : Except AuthError QoS :=
  match (PrimEnum.tryFrom (UInt8.ofNat q) : Outcome DecodeError QoS) with
  | .ok qos => .ok qos
  | .err e => .error (.qos e)
  | .fault _ => .error .unknownQoS

/-- The value of `qos`; the items of an array that are no numbers are passed over. -/
def qosTryFrom (cfg : Value) : Except AuthError (List QoS) :=
  match cfg with
  | .array items => (items.filterMap Value.asU64).mapM qosOf
  | _ =>
      match cfg.asU64 with
      | some q => do
          let qos ← qosOf q
          .ok [qos]
      | none => .error .unknownQoS

/-- `Rule::try_from` -/
def Rule.tryFrom (aclCfg : Value) (info : ConnectInfo) : Except AuthError Rule :=
  match aclCfg with
  | .object obj => do
      let permission ←
        match (obj.lookup "permission").bind Value.asStr with
        | some permi => Permission.tryFrom permi
        | none => .error (.ruleConfig aclCfg)
      let action ←
        match (obj.lookup "action").bind Value.asStr with
        | some action => Action.tryFrom action
        | none => .error (.ruleConfig aclCfg)
      let qos ←
        match obj.lookup "qos" with
        | some qos => do
            let qos ← qosTryFrom qos
            .ok (some qos)
        | none => .ok none
      let retain := (obj.lookup "retain").bind Value.asBool
      let topic ←
        match (obj.lookup "topic").bind Value.asStr with
        | some topic => RuleTopic.tryFrom topic info
        | none => .error (.ruleConfig aclCfg)
      .ok ⟨permission, action, qos, retain, topic⟩
  | _ => .error (.ruleConfig aclCfg)

/-! ## The claims that are asked for -/

/-- `ClaimItem`: a text, and which placeholders it has. -/
structure ClaimItem : Type where
  text : String
  hasUsername : Bool
  hasClientid : Bool
  hasIpaddr : Bool
  hasProtocol : Bool
  deriving DecidableEq, Repr

/-- `ValidateClaims` -/
structure ValidateClaims : Type where
  validateCustoms : List (String × List ClaimItem)
  validateExpEnable : Bool
  validateNbfEnable : Bool
  validateSub : Option ClaimItem
  validateIss : Option (List ClaimItem)
  validateAud : Option (List ClaimItem)

/-- `AuthHandler::replaces` -/
def ClaimItem.replaces (item : ClaimItem) (info : ConnectInfo) : Except AuthError String := do
  let text ←
    if item.hasUsername then
      match info.id.username with
      | some username => .ok (replace item.text PLACEHOLDER_USERNAME username)
      | none => .error .noUsername
    else .ok item.text
  let text :=
    if item.hasClientid then replace text PLACEHOLDER_CLIENTID info.id.clientId else text
  let text ←
    if item.hasIpaddr then
      match info.id.remoteAddr with
      | some ipaddr => .ok (replace text PLACEHOLDER_IPADDR ipaddr)
      | none => .error .noIpaddr
    else .ok text
  .ok (if item.hasProtocol then replace text PLACEHOLDER_PROTOCOL (toString info.protoVer.toNat)
    else text)

abbrev Claims : Type := List (String × Value)

/-- `jsonwebtoken::Validation`, with the fields that are set. -/
structure Validation : Type where
  alg : String
  validateExp : Bool
  validateNbf : Bool
  validateAud : Bool
  aud : Option (List String)
  iss : Option (List String)
  sub : Option String
  requiredSpecClaims : List String

/-- What is used of `jsonwebtoken`, with the key: the algorithm in the header of a token, and the
claims of a token that passes the validation. -/
structure Library : Type where
  decodeHeader : String → Option String
  decode : String → Validation → Option Claims

/-- The texts of a registered claim, and whether it is asked for. -/
def expectedTexts (info : ConnectInfo) (items : Option (List ClaimItem)) :
    Except AuthError (Option (List String)) :=
  match items with
  | some (item :: items) => do
      let texts ← (item :: items).mapM fun item => item.replaces info
      .ok (some texts)
  | _ => .ok none

/-- The validation that `standard_auth` sets up for a token with this algorithm. -/
def validationOf (cfg : ValidateClaims) (alg : String) (aud iss : Option (List String))
    (sub : Option String) : Validation where
  alg := alg
  validateExp := cfg.validateExpEnable
  validateNbf := cfg.validateNbfEnable
  validateAud := aud.isSome
  aud := aud
  iss := iss
  sub := sub
  requiredSpecClaims := (if aud.isSome then ["aud"] else []) ++
    (if iss.isSome then ["iss"] else []) ++ (if sub.isSome then ["sub"] else [])

/-- The text of the claim `sub`. -/
def expectedText (info : ConnectInfo) (item : Option ClaimItem) :
    Except AuthError (Option String) :=
  match item with
  | some item => do
      let text ← item.replaces info
      .ok (some text)
  | none => .ok none

/-- `standard_auth` -/
def standardAuth (lib : Library) (cfg : ValidateClaims) (info : ConnectInfo) (token : String) :
    Except AuthError Claims := do
  let aud ← expectedTexts info cfg.validateAud
  let iss ← expectedTexts info cfg.validateIss
  let sub ← expectedText info cfg.validateSub
  match lib.decodeHeader token with
  | some alg =>
      match lib.decode token (validationOf cfg alg aud iss sub) with
      | some claims => .ok claims
      | none => .error .token
  | none => .error .token

/-- The claim is one of these texts. -/
def hasText (claims : Claims) (name : String) (texts : List String) : Bool :=
  match (claims.lookup name).bind Value.asStr with
  | some s => texts.any fun item => item == s
  | none => false

/-- A custom claim, with the texts of its items for this client. -/
def fillCustom (info : ConnectInfo) (custom : String × List ClaimItem) :
    Except AuthError (String × List String) := do
  let items ← custom.2.mapM fun item => item.replaces info
  .ok (custom.1, items)

/-- `extended_auth` -/
def extendedAuth (cfg : ValidateClaims) (info : ConnectInfo) (claims : Claims) :
    Except AuthError Unit := do
  let validates ← cfg.validateCustoms.mapM (fillCustom info)
  match validates.find? fun (name, items) => !hasText claims name items with
  | some (name, items) =>
      .error (.verification name items ((claims.lookup name).bind Value.asStr))
  | none => .ok ()

/-- `JWTFrom` -/
inductive JWTFrom : Type
  | username
  | password
  deriving DecidableEq, Repr

/-- `auth_jwt::PluginConfig`, without the key. -/
structure PluginConfig : Type where
  disconnectIfPubRejected : Bool
  source : JWTFrom
  validateClaims : ValidateClaims

/-- `token`; `lossy` is `String::from_utf8_lossy`. -/
def tokenOf (lossy : Password → String) (cfg : PluginConfig) (info : ConnectInfo) : Option String :=
  match cfg.source with
  | .username => info.id.username
  | .password => info.password.map lossy

/-- The rules in the claim `acl`. -/
def rulesOf (claims : Claims) (info : ConnectInfo) : Except AuthError (List Rule) :=
  match claims.lookup "acl" with
  | some (.array acls) => acls.mapM fun acl => Rule.tryFrom acl info
  | _ => .ok []

/-- What `AuthHandler::hook` makes of a CONNECT, where nobody has refused it. -/
def authenticate (lib : Library) (lossy : Password → String) (cfg : PluginConfig)
    (info : ConnectInfo) : Except AuthError (Option AuthInfo) := do
  match tokenOf lossy cfg info with
  | none => .ok none
  | some token =>
      let claims ← standardAuth lib cfg.validateClaims info token
      extendedAuth cfg.validateClaims info claims
      let rules ← rulesOf claims info
      .ok (some {
        superuser := ((claims.lookup "superuser").bind Value.asBool).getD false
        expireAt := (claims.lookup "exp").bind Value.asU64
        rules })

end OxiMqtt.AuthJwt

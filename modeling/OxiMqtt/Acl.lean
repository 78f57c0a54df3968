import Mathlib.Data.String.Basic
import Mathlib.Order.WithBot
import OxiMqtt.Codec.V5.Acks
import OxiMqtt.TrieMatch

/-!
# The built-in access control list

The rules of `builtins/acl.rs`: their configuration, who they hit, and which
topics they match.

* `Rule.tryFrom`, `Topics.tryFrom`, `usersTryFrom` build a rule from its
  configuration value.  A topic entry is a plain filter (kept in a topic tree,
  tagged `None`), an `eq` text, or one of either kind with a `%c` or `%u`
  placeholder, which is kept apart until a client connects.
* `Topics.isMatch` is the check of a topic or a subscription filter against one
  rule, and `subscribeCheckAcl`, `publishCheckAcl` walk the rules in order.

`Topics.isMatch_iff` says what the check decides: the filter tree is walked with
the given text read as plain levels (`Admits`), whether it is a topic name or a
subscription filter.
-/

namespace OxiMqtt.Acl

open Collections OxiMqtt.Codec OxiMqtt.Codec.V5

/-! ## Configuration values -/

/-- `serde_json::Number` -/
inductive Number : Type
  | posInt (n : Nat)
  | negInt (n : Int)
  | float (text : String)

/-- `serde_json::Value` -/
inductive Value : Type
  | null
  | bool (b : Bool)
  | number (n : Number)
  | string (s : String)
  | array (items : List Value)
  | object (fields : List (String × Value))

namespace Value

def asStr : Value → Option String
  | string s => some s
  | _ => none

def asBool : Value → Option Bool
  | bool b => some b
  | _ => none

def asU64 : Value → Option Nat
  | number (.posInt n) => some n
  | _ => none

end Value

/-- The errors of the rule configuration.  Each but the last carries the value
that its message prints after `ACL Rule config error, … config is`. -/
inductive ConfigError : Type
  | rule (cfg : Value)
  | access (cfg : Value)
  | user (cfg : Value)
  | control (cfg : Option Value)
  | topics (cfg : Option Value)
  | topic (e : TopicError)

/-! ## The rule -/

abbrev ClientId : Type := String
abbrev UserName : Type := String
abbrev Password : Type := List UInt8
abbrev Superuser : Type := Bool

/-- `Option<ClientId>`, ordered as the source orders it: `None`, here `⊥`, comes
first. -/
abbrev Tag : Type := WithBot ClientId

inductive Access : Type
  | allow
  | deny
  deriving DecidableEq, Repr

inductive User : Type
  | username (name : UserName) (password : Option Password) (superuser : Superuser)
  | clientid (clientid : ClientId)
  | ipaddr (ipaddr : String)
  | protocol (protocol : UInt8)
  | all
  deriving DecidableEq

inductive Control : Type
  | all
  | connect
  | publish
  | subscribe
  | pubsub
  deriving DecidableEq, Repr

/-- `Topics` -/
structure Topics : Type where
  all : Bool
  eqs : List String
  eqPlaceholders : List String
  tree : TopicTree Tag
  placeholders : List String

structure Rule : Type where
  access : Access
  users : List User
  control : Control
  topics : Topics

/-- The part of `Id` the rules read; `remoteAddr` is the printed IP address. -/
structure Id : Type where
  clientId : ClientId
  username : Option UserName
  remoteAddr : Option String
  deriving DecidableEq

/-- What the check reads of a session. -/
structure Session : Type where
  id : Id
  password : Option Password
  protocol : Option UInt8

/-! ## Building a rule -/

def phC : List Char := ['%', 'c']
def phU : List Char := ['%', 'u']

/-- `s.contains(pat)` -/
def contains (s : String) (pat : List Char) : Bool := s.toList.tails.any fun tl => pat.isPrefixOf tl

/-- The entry holds a `%u` or a `%c`. -/
def hasPlaceholder (s : String) : Bool := contains s phU || contains s phC

/-- `s.to_lowercase()`, on the letters the keywords are made of. -/
def toLowercase (s : String) : String := String.ofList (s.toList.map Char.toLower)

/-- `TryFrom<&Value> for Access` -/
def Access.tryFrom (accessCfg : Value) : Except ConfigError Access :=
  match accessCfg.asStr with
  | none => .error (.access accessCfg)
  | some s =>
      if toLowercase s = "allow" then .ok .allow
      else if toLowercase s = "deny" then .ok .deny
      else .error (.access accessCfg)

/-- The user name constraint of `users_try_from`. -/
def usernameTryFrom (userCfg : Value) (map : List (String × Value)) (access : Access)
    (name : UserName) : Except ConfigError User :=
  match access with
  | .allow =>
      let superuser := ((map.lookup "superuser").bind Value.asBool).getD false
      match map.lookup "password" with
      | some (.string p) => .ok (.username name (some p.toUTF8.toList) superuser)
      | none => .ok (.username name none superuser)
      | _ => .error (.user userCfg)
  | .deny => .ok (.username name none false)

/-- `users_try_from` -/
def usersTryFrom (userCfg : Value) (access : Access) : Except ConfigError (List User) :=
  match userCfg with
  | .string all => if toLowercase all = "all" then .ok [.all] else .error (.user userCfg)
  | .object map => do
      let name ← match (map.lookup "user").bind Value.asStr with
        | some name => (usernameTryFrom userCfg map access name).map fun u => [u]
        | none => .ok []
      let clientid := ((map.lookup "clientid").bind Value.asStr).toList.map User.clientid
      let ipaddr := ((map.lookup "ipaddr").bind Value.asStr).toList.map User.ipaddr
      let protocol := ((map.lookup "protocol").bind Value.asU64).toList.map
        fun p => User.protocol (UInt8.ofNat p)
      .ok (name ++ clientid ++ ipaddr ++ protocol)
  | _ => .error (.user userCfg)

/-- `TryFrom<Option<&Value>> for Control` -/
def Control.tryFrom (controlCfg : Option Value) : Except ConfigError Control :=
  match controlCfg with
  | none => .ok .all
  | some (.string control) =>
      if toLowercase control = "connect" then .ok .connect
      else if toLowercase control = "publish" then .ok .publish
      else if toLowercase control = "subscribe" then .ok .subscribe
      else if toLowercase control = "pubsub" then .ok .pubsub
      else if toLowercase control = "all" then .ok .all
      else .error (.control controlCfg)
  | _ => .error (.control controlCfg)

namespace Topics

def empty : Topics where
  all := false
  eqs := []
  eqPlaceholders := []
  tree := Node.default
  placeholders := []

/-- One entry of the topic list. -/
def addEntry (topicsCfg : Option Value) (topics : Topics) : Value → Except ConfigError Topics
  | .string topic =>
      if hasPlaceholder topic then
        .ok { topics with placeholders := topics.placeholders ++ [topic] }
      else
        match Topic.fromStr topic with
        | .ok t => .ok { topics with tree := (topics.tree.insert t ⊥).1 }
        | .error e => .error (.topic e)
  | .object eqMap =>
      match eqMap.lookup "eq" with
      | some (.string eq) =>
          if hasPlaceholder eq then
            .ok { topics with eqPlaceholders := topics.eqPlaceholders ++ [eq] }
          else .ok { topics with eqs := topics.eqs.insert eq }
      | _ => .error (.topics topicsCfg)
  | _ => .error (.topics topicsCfg)

/-- `TryFrom<Option<&Value>> for Topics` -/
def tryFrom (topicsCfg : Option Value) : Except ConfigError Topics :=
  match topicsCfg with
  | none => .ok { empty with all := true }
  | some (.array topics) => topics.foldlM (addEntry topicsCfg) empty
  | _ => .error (.topics topicsCfg)

end Topics

/-- `TryFrom<&Value> for Rule` -/
def Rule.tryFrom (ruleCfg : Value) : Except ConfigError Rule :=
  match ruleCfg with
  | .array (accessCfg :: userCfg :: rest) => do
      let access ← Access.tryFrom accessCfg
      let users ← usersTryFrom userCfg access
      let control ← Control.tryFrom rest[0]?
      let topics ← Topics.tryFrom rest[1]?
      .ok { access, users, control, topics }
  | _ => .error (.rule ruleCfg)

/-! ## Who a rule hits -/

/-- `User::hit` -/
def User.hit (id : Id) (password : Option Password) (protocol : Option UInt8) (allow : Bool) :
    User → Bool × Superuser
  | .all => (true, false)
  | .username name1 password1 superuser =>
      match id.username, password, password1, allow with
      | some name2, some password2, some password1, true =>
          (name1 == name2 && password1 == password2, superuser)
      | some name2, some _, some _, false => (name1 == name2, false)
      | some name2, _, none, true => (name1 == name2, superuser)
      | some name2, _, none, false => (name1 == name2, false)
      | some _, none, some _, _ => (false, false)
      | none, _, _, _ => (false, false)
  | .clientid cid => (id.clientId == cid, false)
  | .ipaddr addr =>
      match id.remoteAddr with
      | some remoteAddr => (addr == remoteAddr, false)
      | none => (false, false)
  | .protocol protocol1 =>
      match protocol with
      | some protocol => (protocol == protocol1, false)
      | none => (false, false)

/-- The loop of `Rule::hit` over the constraints still to check. -/
def hitAll (id : Id) (password : Option Password) (protocol : Option UInt8) (allow : Bool) :
    List User → Superuser → Bool × Superuser
  | [], superuser => (true, superuser)
  | user :: users, _ =>
      match user.hit id password protocol allow with
      | (true, superuser) => hitAll id password protocol allow users superuser
      | (false, _) => (false, false)

/-- `Rule::hit` -/
def Rule.hit (rule : Rule) (id : Id) (password : Option Password) (protocol : Option UInt8)
    (allow : Bool) : Bool × Superuser :=
  hitAll id password protocol allow rule.users false

/-! ## What a rule matches -/

/-- A tree value makes the rule match for the client: it carries no tag, or the
client's. -/
def tagMatches (clientId : ClientId) : Tag → Bool
  | (cid : ClientId) => cid == clientId
  | ⊥ => true

/-- `Topics::is_match`.  `matched` lists what iterating `tree.matches` yields
(`MatchedIter.exhausts_new`). -/
def Topics.isMatch (topics : Topics) (topicFilter : Topic) (topicFilterStr : String)
    (clientId : ClientId) : Bool :=
  topics.all || topics.eqs.contains topicFilterStr ||
    (matched topicFilter.levels topics.tree []).any fun item => item.2.any (tagMatches clientId)

/-- `Topic::from_str(s).unwrap_or_else(|_| Topic::from(Vec::new()))` -/
def parseOrEmpty (s : String) : Topic :=
  match Topic.fromStr s with
  | .ok t => t
  | .error _ => ⟨[]⟩

/-- The rules in order: the access of the first one with a fitting control that
hits the session and matches the topic. -/
def firstMatch (controls : List Control) (session : Session) (topic : Topic) (topicStr : String) :
    List Rule → Option Access
  | [] => none
  | rule :: rules =>
      if controls.contains rule.control &&
          (rule.hit session.id session.password session.protocol (rule.access == .allow)).1 &&
          rule.topics.isMatch topic topicStr session.id.clientId then some rule.access
      else firstMatch controls session topic topicStr rules

/-- `SubscribeReturn::new_success` -/
def newSuccess : QoS → SubscribeAckReason
  | .atMostOnce => .grantedQos0
  | .atLeastOnce => .grantedQos1
  | .exactlyOnce => .grantedQos2

/-- `SubscribeReturn::failure` -/
def failure : SubscribeAckReason → Bool
  | .grantedQos0 => false
  | .grantedQos1 => false
  | .grantedQos2 => false
  | _ => true

/-- `AclHandler::hook` on `ClientSubscribeCheckAcl`: whether the hook chain goes
on, and the result it leaves. -/
def subscribeCheckAcl (rules : List Rule) (session : Session) (topicFilter : String) (qos : QoS)
    (acc : Option SubscribeAckReason) : Bool × Option SubscribeAckReason :=
  if acc.any failure then (false, acc)
  else
    match firstMatch [.subscribe, .pubsub, .all] session (parseOrEmpty topicFilter) topicFilter
      rules with
    | some .allow => (false, some (newSuccess qos))
    | some .deny => (false, some .unspecifiedError)
    | none => (false, some .unspecifiedError)

/-- `PublishAclResult`: allowed, or rejected with the choice to disconnect. -/
inductive PublishAclResult : Type
  | allow
  | rejected (disconnect : Bool)
  deriving DecidableEq, Repr

/-- `AclHandler::hook` on `MessagePublishCheckAcl`. -/
def publishCheckAcl (rules : List Rule) (disconnectIfPubRejected : Bool) (session : Session)
    (topicStr : String) (acc : Option PublishAclResult) : Bool × Option PublishAclResult :=
  match acc with
  | some (.rejected d) => (false, some (.rejected d))
  | _ =>
      match firstMatch [.publish, .pubsub, .all] session (parseOrEmpty topicStr) topicStr rules with
      | some .allow => (false, some .allow)
      | some .deny => (false, some (.rejected disconnectIfPubRejected))
      | none => (false, some (.rejected disconnectIfPubRejected))

/-! ## What the check decides -/

theorem isValid_of_mem_parseOrEmpty (s : String) :
    ∀ l ∈ (parseOrEmpty s).levels, l.isValid = true := by
  unfold parseOrEmpty
  cases h : Topic.fromStr s with
  | ok t => exact (Topic.valid_of_fromStr h).levels_valid
  | error e => simp

/-- `is_match` decides: the rule is for all topics, the text is one of the `eq`
texts, or a filter of the tree admits the topic and carries a fitting tag. -/
theorem Topics.isMatch_iff {topics : Topics} {t : Topic} (valid : ∀ l ∈ t.levels, l.isValid = true)
    (s : String) (clientId : ClientId) :
    topics.isMatch t s clientId = true ↔ topics.all = true ∨ s ∈ topics.eqs ∨
      ∃ f : Topic, ∃ tag ∈ topics.tree.valuesAt f.levels,
        tagMatches clientId tag = true ∧ Admits f.levels t.levels := by
  unfold Topics.isMatch
  rw [Bool.or_eq_true, Bool.or_eq_true, List.contains_iff_mem, or_assoc]
  refine or_congr_right (or_congr_right ?_)
  rw [List.any_eq_true]
  constructor
  · rintro ⟨item, hitem, hany⟩
    obtain ⟨q, hq, shown, -, rfl⟩ := mem_matched.mp hitem
    obtain ⟨tag, htag, hmatch⟩ := List.any_eq_true.mp hany
    rw [secluded_root_iff valid] at shown
    exact ⟨⟨q⟩, tag, htag, hmatch, hq, shown⟩
  · rintro ⟨f, tag, htag, hmatch, hq, shown⟩
    rw [← secluded_root_iff valid] at shown
    refine ⟨(f.levels, (topics.tree.valuesAt f.levels).toList), ?_,
      List.any_eq_true.mpr ⟨tag, htag, hmatch⟩⟩
    exact mem_matched.mpr ⟨f.levels, hq, shown, OrdSet.ne_empty_iff.mpr ⟨tag, htag⟩, rfl⟩

/-- What every entry of a topic list keeps holds of the topics built from the list. -/
theorem Topics.of_entries {cfg : Option Value} {P : Topics → Prop} {entries : List Value}
    (keep : ∀ entry ∈ entries, ∀ topics topics', P topics →
      Topics.addEntry cfg topics entry = .ok topics' → P topics')
    {topics topics' : Topics} (start : P topics)
    (built : entries.foldlM (Topics.addEntry cfg) topics = .ok topics') : P topics' := by
  induction entries generalizing topics with
  | nil =>
      cases built
      exact start
  | cons entry entries ih =>
      rw [List.foldlM_cons] at built
      cases hadd : topics.addEntry cfg entry with
      | error e =>
          rw [hadd] at built
          cases built
      | ok mid =>
          rw [hadd] at built
          exact ih (fun entry' hmem => keep entry' (List.mem_cons_of_mem _ hmem))
            (keep entry List.mem_cons_self topics mid start hadd) built

/-- The topics of a built rule are built from the fourth item of its
configuration. -/
theorem topics_of_tryFrom {items : List Value} {rule : Rule}
    (built : Rule.tryFrom (.array items) = .ok rule) :
    Topics.tryFrom items[3]? = .ok rule.topics := by
  unfold Rule.tryFrom at built
  split at built
  · rename_i accessCfg userCfg rest hitems
    cases hitems
    cases ha : Access.tryFrom accessCfg with
    | error e => rw [ha] at built; cases built
    | ok access =>
        rw [ha] at built
        change (usersTryFrom userCfg access >>= _) = _ at built
        cases hu : usersTryFrom userCfg access with
        | error e => rw [hu] at built; cases built
        | ok users =>
            rw [hu] at built
            change (Control.tryFrom rest[0]? >>= _) = _ at built
            cases hc : Control.tryFrom rest[0]? with
            | error e => rw [hc] at built; cases built
            | ok control =>
                rw [hc] at built
                change (Topics.tryFrom rest[1]? >>= _) = _ at built
                cases ht : Topics.tryFrom rest[1]? with
                | error e => rw [ht] at built; cases built
                | ok topics =>
                    rw [ht] at built
                    cases built
                    simpa using ht
  · cases built

end OxiMqtt.Acl

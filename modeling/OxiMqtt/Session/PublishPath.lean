import Mathlib.Data.List.Sort
import OxiMqtt.Codec.Stream
import OxiMqtt.Lib.Text
import OxiMqtt.Session.Inbound
import OxiMqtt.Session.TopicAliases
import OxiMqtt.Topic

/-!
# The path of an inbound publish

A PUBLISH of an online session goes through `SessionState::_publish`: the topic aliases of the
client, the `$delayed` syntax, the hooks and the ACL check.  `forwards` then hands it to the store
of retained messages and to the router, or to the queue of delayed messages, which a timer empties.

No step of the path looks at the topic name.  `origin` is the topic name of a message after alias
resolution; it is carried along to say what became of the message, and nothing reads it.

* `Stable`: what the path does to a server once the alias is resolved.
* `valid_names_iff`: when no message with an invalid topic name is published, in any order of
  connections, publishes and timers.
* `plus_is_routed`: a PUBLISH to `+` is decoded and reaches the router.
-/

namespace OxiMqtt.Session.PublishPath

open Collections Process Text
open OxiMqtt.Codec (NonZeroU16 Publish)
open Inbound (Reason PublishResult)
open TopicAliases (TopicName aliasOf)

/-! ## Client topic aliases -/

/-- `ClientTopicAliases`; an alias stands in the table by its number. -/
structure ClientTopicAliases : Type where
  maxTopicAliases : Nat
  aliases : Assoc UInt16 TopicName := []

/-- `SessionState::new`: a session has a table when the negotiated maximum is not zero. -/
def clientTopicAliases (max : UInt16) : Option ClientTopicAliases :=
  if max > 0 then some { maxTopicAliases := max.toNat } else none

/-- An error of `set_and_get`. -/
def aliasError (text : String) : Reason :=
  .publishAckReason .implementationSpecificError ("implementation specific error, " ++ text)

/-- `ClientTopicAliases::set_and_get` -/
def ClientTopicAliases.setAndGet (t : ClientTopicAliases) (aliasId : Option NonZeroU16)
    (topic : TopicName) : Except Reason (ClientTopicAliases × TopicName) :=
  match aliasId with
  | some a =>
      if topic = "" then
        match t.aliases.lookup a.val with
        | some known => .ok (t, known)
        | none => .error (aliasError "the ‘topic‘ associated with the ‘alias‘ was not found")
      else if (t.aliases.lookup a.val).isSome || t.aliases.length < t.maxTopicAliases then
        .ok ({ t with aliases := t.aliases.insert a.val topic }, topic)
      else
        .error (aliasError
          ("the number of topic aliases exceeds the limit (" ++ toString t.maxTopicAliases ++ ")"))
  | none =>
      if topic = "" then .error (aliasError "‘alias’ and ‘topic’ are both empty")
      else .ok (t, topic)

/-! ## Delayed messages -/

/-- `Publish` of `types.rs`: the packet, and the delay its topic asks for in seconds. -/
structure Message : Type where
  inner : Publish
  delayInterval : Option UInt32

/-- `DefaultDelayedSender::parse`, for `$delayed/<seconds>/<topic>`. -/
def parse (m : Message) : Except Reason Message :=
  match splitn '/' 3 m.inner.topic.toList with
  | [first, interval, topic] =>
      if String.ofList first = "$delayed" then
        match parseUnsigned (2 ^ 32) interval with
        | .ok seconds =>
            .ok
              { inner := { m.inner with topic := String.ofList topic }
                delayInterval := some (UInt32.ofNat seconds) }
        | .error e =>
            .error (.other ("the delay time of $delayed must be an integer, topic: " ++
              m.inner.topic ++ ", " ++ e.text))
      else .ok m
  | _ => .ok m

/-- `DelayedPublish` -/
structure DelayedPublish : Type where
  expiredTime : Int
  message : Message
  origin : TopicName

/-- `BinaryHeap::push`.  `Ord for DelayedPublish` puts the earliest time on top. -/
def pushDelayed (d : DelayedPublish) (heap : List DelayedPublish) : List DelayedPublish :=
  heap.orderedInsert (fun a b => a.expiredTime ≤ b.expiredTime) d

/-! ## The server -/

/-- A connection's session. -/
abbrev SessionNo : Type := Nat

/-- What becomes of a message. -/
inductive Event : Type
  /-- The handlers of the ACL check evaluate its topic. -/
  | evaluated (origin : TopicName) (m : Message)
  /-- It is stored as a retained message. -/
  | retained (origin : TopicName) (m : Message)
  /-- It is handed to the router. -/
  | routed (origin : TopicName) (m : Message)

/-- The topic name, after alias resolution, of the PUBLISH that an event is about. -/
def Event.origin : Event → TopicName
  | evaluated origin _ => origin
  | retained origin _ => origin
  | routed origin _ => origin

/-- The alias tables of the sessions, the delayed messages, the number of calls to the outside so
far, and the log. -/
structure Server : Type where
  tables : SessionNo → Option ClientTopicAliases
  delayed : List DelayedPublish
  calls : Nat
  log : List Event

/-- The configuration, and what the hooks, the store of retained messages and the clock answer to
the `n`-th call.  No handler of a hook is the answer `none`. -/
structure Env : Type where
  delayedPublish : SessionNo → Bool
  superuser : SessionNo → Bool
  delayedPublishMax : Nat
  delayedPublishImmediate : Bool
  retainEnable : Bool
  messagePublish : Nat → SessionNo → Message → Option Message
  publishCheckAcl : Nat → SessionNo → Message → Option PublishResult
  retainSet : Nat → TopicName → Message → Except Reason Unit
  timestampMillis : Nat → Int

namespace Server

/-- A server without sessions. -/
def new : Server where
  tables _ := none
  delayed := []
  calls := 0
  log := []

def called (s : Server) : Server := { s with calls := s.calls + 1 }

def logged (s : Server) (e : Event) : Server := { s with log := s.log ++ [e] }

def deferred (s : Server) (d : DelayedPublish) : Server :=
  { s with delayed := pushDelayed d s.delayed }

def setTable (s : Server) (c : SessionNo) (t : Option ClientTopicAliases) : Server :=
  { s with tables := Function.update s.tables c t }

theorem tables_setTable (s : Server) (c : SessionNo) (t : Option ClientTopicAliases) :
    (s.setTable c t).tables = Function.update s.tables c t := rfl

end Server

abbrev Proc (α : Type) : Type := EStateM Reason Server α

/-- `?` -/
def orReturn {α : Type} : Except Reason α → Proc α
  | .ok a => return a
  | .error e => throw e

/-- A session without a table takes the topic of the packet as it is. -/
def resolve (c : SessionNo) (p : Publish) : Proc TopicName := do
  let s ← get
  match s.tables c with
  | none => return p.topic
  | some t => do
      let (t, topic) ← orReturn (t.setAndGet (aliasOf p) p.topic)
      set (s.setTable c (some t))
      return topic

variable (env : Env)

/-- `Hook::message_publish`, or the message itself. -/
def messagePublish (c : SessionNo) (m : Message) : Proc Message := do
  let s ← get
  set s.called
  return (env.messagePublish s.calls c m).getD m

/-- `Hook::message_publish_check_acl`, with `PublishAclResult::allow()` for no answer. -/
def messagePublishCheckAcl (c : SessionNo) (origin : TopicName) (m : Message) :
    Proc PublishResult :=
  if env.superuser c then return .success
  else do
    let s ← get
    set (s.called.logged (.evaluated origin m))
    return (env.publishCheckAcl s.calls c m).getD .success

/-- `retain.set` in `inner_forwards`. -/
def retainSet (origin : TopicName) (m : Message) : Proc Unit :=
  if env.retainEnable && m.inner.retain then do
    let s ← get
    set s.called
    orReturn (env.retainSet s.calls m.inner.topic m)
    modify (·.logged (.retained origin m))
  else return ()

/-- `SessionState::inner_forwards`.  Messages have no id, so that none is stored for offline
subscribers. -/
def innerForwards (origin : TopicName) (m : Message) : Proc Unit := do
  retainSet env origin m
  modify (·.logged (.routed origin m))

/-- `SessionState::forwards`, with `DefaultDelayedSender::delay_publish`. -/
def forwards (origin : TopicName) (m : Message) : Proc Unit :=
  match m.delayInterval with
  | none => innerForwards env origin m
  | some seconds => do
      let s ← get
      if s.delayed.length < env.delayedPublishMax then
        let expiredTime := env.timestampMillis s.calls + seconds.toNat * 1000
        set (s.called.deferred ⟨expiredTime, m, origin⟩)
      else if env.delayedPublishImmediate then innerForwards env origin m
      else return ()

/-- The end of `_publish`: a message that the ACL check does not allow is dropped. -/
def forwardAllowed (origin : TopicName) (m : Message) (acl : PublishResult) : Proc PublishResult :=
  if acl.isSuccess then do
    forwards env origin m
    return .success
  else if acl.disconnect then
    throw (.publishAckReason acl.reasonCode (acl.reasonString.getD ""))
  else return acl

/-- `_publish` once the alias is resolved. -/
def publishResolved (c : SessionNo) (p : Publish) (topic : TopicName) : Proc PublishResult := do
  let m : Message := { inner := { p with topic }, delayInterval := none }
  let m ← orReturn (if env.delayedPublish c then parse m else .ok m)
  let m ← messagePublish env c m
  let acl ← messagePublishCheckAcl env c topic m
  forwardAllowed env topic m acl

/-- `SessionState::_publish` -/
def _publish (c : SessionNo) (p : Publish) : Proc PublishResult := do
  let topic ← resolve c p
  publishResolved env c p topic

/-- One turn of the task of `DefaultDelayedSender::start`: the message on top is sent if it is
expired. -/
def sendExpired (now : Int) : Proc Unit := do
  let s ← get
  match s.delayed with
  | [] => return ()
  | d :: rest =>
      if now > d.expiredTime then do
        set { s with delayed := rest }
        innerForwards env d.origin { d.message with delayInterval := none }
      else return ()

/-- What a server does. -/
inductive Action : Type
  /-- A session begins, with this maximum for the aliases of its client. -/
  | connect (c : SessionNo) (max : UInt16)
  /-- `publish` is called for a PUBLISH of a session. -/
  | publish (c : SessionNo) (p : Publish)
  /-- The task of the delayed messages looks at the one on top. -/
  | expire (now : Int)

/-- The state in which a process ends. -/
def after {α : Type} (x : Proc α) (s : Server) : Server :=
  match x s with
  | .ok _ s' => s'
  | .error _ s' => s'

def step (s : Server) : Action → Server
  | .connect c max => s.setTable c (clientTopicAliases max)
  | .publish c p => after (_publish env c p) s
  | .expire now => after (sendExpired env now) s

/-- The server after a sequence of actions. -/
def run (s : Server) (actions : List Action) : Server := actions.foldl (step env) s

/-! ## The path behind alias resolution -/

/-- A property of servers that holds after whatever the path does with a message of this origin. -/
structure Stable (origin : TopicName) (I : Server → Prop) : Prop where
  called : ∀ s, I s → I s.called
  logged : ∀ s e, e.origin = origin → I s → I (s.logged e)
  deferred : ∀ s d, d.origin = origin → I s → I (s.deferred d)

theorem orReturn_spec {α : Type} (I : Server → Prop) (r : Except Reason α) :
    Triple I (orReturn r) (fun _ => I) I := by
  cases r with
  | ok a => exact .of_pure fun _ hs => hs
  | error e => exact .of_throw fun _ hs => hs

section

variable {env} {origin : TopicName} {I : Server → Prop} (stable : Stable origin I)
include stable

theorem Stable.messagePublish (c : SessionNo) (m : Message) :
    Triple I (messagePublish env c m) (fun _ => I) I := by
  apply Triple.get_bind
  intro s hs
  apply Triple.set_bind
  apply Triple.of_pure
  intro s' eq
  rw [eq]
  exact stable.called s hs

theorem Stable.messagePublishCheckAcl (c : SessionNo) (m : Message) :
    Triple I (messagePublishCheckAcl env c origin m) (fun _ => I) I := by
  unfold PublishPath.messagePublishCheckAcl
  split
  · exact .of_pure fun _ hs => hs
  · apply Triple.get_bind
    intro s hs
    apply Triple.set_bind
    apply Triple.of_pure
    intro s' eq
    rw [eq]
    exact stable.logged _ _ rfl (stable.called s hs)

theorem Stable.retainSet (m : Message) : Triple I (retainSet env origin m) (fun _ => I) I := by
  unfold PublishPath.retainSet
  split
  · apply Triple.get_bind
    intro s hs
    apply Triple.set_bind
    have called : ∀ s', s' = s.called → I s' := by
      intro s' eq
      rw [eq]
      exact stable.called s hs
    apply Triple.bind ((orReturn_spec I _).weaken called (fun _ _ h => h) fun _ h => h)
    intro _ s' hs'
    exact stable.logged s' _ rfl hs'
  · exact .of_pure fun _ hs => hs

theorem Stable.innerForwards (m : Message) :
    Triple I (innerForwards env origin m) (fun _ => I) I := by
  apply Triple.bind (stable.retainSet m)
  intro _ s hs
  exact stable.logged s _ rfl hs

theorem Stable.forwards (m : Message) : Triple I (forwards env origin m) (fun _ => I) I := by
  unfold PublishPath.forwards
  split
  · exact stable.innerForwards m
  · apply Triple.get_bind
    intro s hs
    have same : ∀ s', s' = s → I s' := fun s' eq => eq ▸ hs
    split
    · intro s' _
      exact stable.deferred _ _ rfl (stable.called s hs)
    · split
      · exact (stable.innerForwards m).weaken same (fun _ _ h => h) fun _ h => h
      · exact .of_pure same

theorem Stable.forwardAllowed (m : Message) (acl : PublishResult) :
    Triple I (forwardAllowed env origin m acl) (fun _ => I) I := by
  unfold PublishPath.forwardAllowed
  split
  · exact (stable.forwards m).bind fun _ => .of_pure fun _ hs => hs
  · split
    · exact .of_throw fun _ hs => hs
    · exact .of_pure fun _ hs => hs

/-- What is stable holds throughout the path. -/
theorem Stable.publishResolved (c : SessionNo) (p : Publish) :
    Triple I (publishResolved env c p origin) (fun _ => I) I := by
  apply Triple.bind (orReturn_spec I _)
  intro m
  apply Triple.bind (stable.messagePublish c m)
  intro m
  apply Triple.bind (stable.messagePublishCheckAcl c m)
  intro acl
  exact stable.forwardAllowed m acl

end

theorem after_of_triple {α : Type} {P Q : Server → Prop} {x : Proc α}
    (h : Triple P x (fun _ => Q) Q) {s : Server} (hs : P s) : Q (after x s) := by
  have run := h s hs
  unfold after
  cases hx : x s with
  | ok a s' =>
      rw [hx] at run
      exact run
  | error e s' =>
      rw [hx] at run
      exact run

/-! ## Steps of the server -/

/-- What alias resolution does with a packet: the table it leaves, and the topic name. -/
def resolution (table : Option ClientTopicAliases) (p : Publish) :
    Except Reason (Option ClientTopicAliases × TopicName) :=
  match table with
  | none => .ok (none, p.topic)
  | some t => (t.setAndGet (aliasOf p) p.topic).map fun r => (some r.1, r.2)

theorem get_bind_apply {α : Type} (f : Server → Proc α) (s : Server) : (get >>= f) s = f s s := rfl

theorem after_bind {α β : Type} (x : Proc α) (f : α → Proc β) (s : Server) :
    after (x >>= f) s =
      match x s with
      | .ok a s' => after (f a) s'
      | .error _ s' => s' := by
  unfold after
  change (match EStateM.bind x f s with
    | .ok _ s' => s'
    | .error _ s' => s') = _
  unfold EStateM.bind
  cases x s <;> rfl

theorem resolve_eq (c : SessionNo) (p : Publish) (s : Server) :
    resolve c p s =
      match resolution (s.tables c) p with
      | .ok (t, topic) => .ok topic (s.setTable c t)
      | .error e => .error e s := by
  rw [resolve, get_bind_apply]
  cases ht : s.tables c with
  | none =>
      have same : s.setTable c none = s := by
        rw [Server.setTable, ← ht, Function.update_eq_self]
      simp only [resolution, same]
      rfl
  | some t =>
      simp only [resolution]
      cases t.setAndGet (aliasOf p) p.topic <;> rfl

theorem after_publish (c : SessionNo) (p : Publish) (s : Server) :
    after (_publish env c p) s =
      match resolution (s.tables c) p with
      | .ok (t, topic) => after (publishResolved env c p topic) (s.setTable c t)
      | .error _ => s := by
  rw [_publish, after_bind, resolve_eq]
  cases resolution (s.tables c) p <;> rfl

theorem after_sendExpired (now : Int) (s : Server) :
    after (sendExpired env now) s =
      match s.delayed with
      | [] => s
      | d :: rest =>
          if now > d.expiredTime then
            after (innerForwards env d.origin { d.message with delayInterval := none })
              { s with delayed := rest }
          else s := by
  rw [after, sendExpired, get_bind_apply]
  cases s.delayed with
  | nil => rfl
  | cons d rest =>
      by_cases expired : now > d.expiredTime
      · simp only [expired, ↓reduceIte]
        rfl
      · simp only [expired, ↓reduceIte]
        rfl

/-- The alias tables after an action. -/
def nextTables (tables : SessionNo → Option ClientTopicAliases) :
    Action → SessionNo → Option ClientTopicAliases
  | .connect c max => Function.update tables c (clientTopicAliases max)
  | .publish c p =>
      match resolution (tables c) p with
      | .ok (t, _) => Function.update tables c t
      | .error _ => tables
  | .expire _ => tables

theorem stable_tables (origin : TopicName) (tables : SessionNo → Option ClientTopicAliases) :
    Stable origin fun s => s.tables = tables where
  called _ hs := hs
  logged _ _ _ hs := hs
  deferred _ _ _ hs := hs

theorem stable_log (origin : TopicName) (log : List Event) : Stable origin fun s => log <+: s.log where
  called _ hs := hs
  logged _ _ _ hs := hs.trans (List.prefix_append _ _)
  deferred _ _ _ hs := hs

theorem tables_step (s : Server) (a : Action) :
    (step env s a).tables = nextTables s.tables a := by
  cases a with
  | connect c max => rfl
  | publish c p =>
      rw [step, after_publish, nextTables]
      split
      · exact after_of_triple ((stable_tables _ _).publishResolved c p) rfl
      · rfl
  | expire now =>
      rw [step, after_sendExpired, nextTables]
      split
      · rfl
      · split
        · exact after_of_triple ((stable_tables _ _).innerForwards _) rfl
        · rfl

theorem log_step (s : Server) (a : Action) : s.log <+: (step env s a).log := by
  cases a with
  | connect c max => exact List.prefix_rfl
  | publish c p =>
      rw [step, after_publish]
      split
      · exact after_of_triple ((stable_log _ _).publishResolved c p) List.prefix_rfl
      · exact List.prefix_rfl
  | expire now =>
      rw [step, after_sendExpired]
      split
      · exact List.prefix_rfl
      · split
        · exact after_of_triple ((stable_log _ _).innerForwards _) List.prefix_rfl
        · exact List.prefix_rfl

theorem log_run (s : Server) (actions : List Action) : s.log <+: (run env s actions).log := by
  induction actions generalizing s with
  | nil => exact List.prefix_rfl
  | cons a actions ih => exact (log_step env s a).trans (ih (step env s a))

/-! ## Topic names -/

/-- A topic name is not empty, and has no `+` or `#`. -/
def ValidName (topic : TopicName) : Prop := topic ≠ "" ∧ Level.hasWildcardChar topic = false

instance (topic : TopicName) : Decidable (ValidName topic) := inferInstanceAs (Decidable (_ ∧ _))

/-- The table has no room for the alias. -/
def ClientTopicAliases.Full (t : ClientTopicAliases) : Option NonZeroU16 → Prop
  | none => False
  | some a => t.aliases.lookup a.val = none ∧ t.maxTopicAliases ≤ t.aliases.length

/-- The condition on a packet, in the table before it: its topic has no wildcard, and without a
table it is not empty.  A packet whose alias is refused may have any topic. -/
def Clean (p : Publish) : Option ClientTopicAliases → Prop
  | none => ValidName p.topic
  | some t => Level.hasWildcardChar p.topic = false ∨ t.Full (aliasOf p)

/-- The condition on an action. -/
def CleanAction (tables : SessionNo → Option ClientTopicAliases) : Action → Prop
  | .publish c p => Clean p (tables c)
  | _ => True

/-- Every PUBLISH of the sequence meets the condition, in the table that its session then has. -/
def CleanRun : (SessionNo → Option ClientTopicAliases) → List Action → Prop
  | _, [] => True
  | tables, a :: actions => CleanAction tables a ∧ CleanRun (nextTables tables a) actions

/-- The topic names of a table are valid. -/
def ValidTable : Option ClientTopicAliases → Prop
  | none => True
  | some t => ∀ a known, t.aliases.lookup a = some known → ValidName known

theorem validTable_new (max : UInt16) : ValidTable (clientTopicAliases max) := by
  unfold clientTopicAliases
  split
  · intro a known found
    cases found
  · trivial

/-- A packet that meets the condition resolves to a valid name, and leaves valid names. -/
theorem resolution_clean {table table' : Option ClientTopicAliases} {p : Publish}
    {topic : TopicName} (valid : ValidTable table) (clean : Clean p table)
    (h : resolution table p = .ok (table', topic)) : ValidName topic ∧ ValidTable table' := by
  cases table with
  | none =>
      cases h
      exact ⟨clean, trivial⟩
  | some t =>
      unfold resolution ClientTopicAliases.setAndGet at h
      cases ha : aliasOf p with
      | none =>
          rw [Clean, ha] at clean
          have plain := clean.resolve_right id
          by_cases empty : p.topic = ""
          · simp [ha, empty, Except.map] at h
          · simp only [ha, empty, ↓reduceIte, Except.map, Except.ok.injEq, Prod.mk.injEq] at h
            rw [← h.1, ← h.2]
            exact ⟨⟨empty, plain⟩, valid⟩
      | some a =>
          rw [Clean, ha] at clean
          by_cases empty : p.topic = ""
          · cases found : t.aliases.lookup a.val with
            | none => simp [ha, empty, found, Except.map] at h
            | some known =>
                simp only [ha, empty, found, ↓reduceIte, Except.map, Except.ok.injEq,
                  Prod.mk.injEq] at h
                rw [← h.1, ← h.2]
                exact ⟨valid a.val known found, valid⟩
          · by_cases room : (t.aliases.lookup a.val).isSome || t.aliases.length < t.maxTopicAliases
            · simp only [ha, empty, room, ↓reduceIte, Except.map, Except.ok.injEq,
                Prod.mk.injEq] at h
              have plain : Level.hasWildcardChar p.topic = false := by
                apply clean.resolve_right
                intro full
                simp [full.1, Nat.not_lt.mpr full.2] at room
              have name : ValidName p.topic := ⟨empty, plain⟩
              rw [← h.1, ← h.2]
              refine ⟨name, ?_⟩
              intro b known found
              change (t.aliases.insert a.val p.topic).lookup b = some known at found
              by_cases eq : b = a.val
              · rw [eq, Assoc.lookup_insert_self] at found
                cases found
                exact name
              · rw [Assoc.lookup_insert_of_ne _ _ eq] at found
                exact valid b known found
            · simp [ha, empty, room, Except.map] at h

/-- A packet that does not meet it resolves to its own topic, which is no valid name. -/
theorem resolution_unclean {table : Option ClientTopicAliases} {p : Publish}
    (unclean : ¬ Clean p table) :
    ¬ ValidName p.topic ∧ ∃ table', resolution table p = .ok (table', p.topic) := by
  cases table with
  | none => exact ⟨unclean, none, rfl⟩
  | some t =>
      obtain ⟨wild, room⟩ := not_or.mp unclean
      have empty : p.topic ≠ "" := by
        intro eq
        rw [eq] at wild
        exact wild (by decide)
      refine ⟨fun name => wild name.2, ?_⟩
      unfold resolution ClientTopicAliases.setAndGet
      cases ha : aliasOf p with
      | none => simp [empty, Except.map]
      | some a =>
          rw [ha, ClientTopicAliases.Full] at room
          have room : (t.aliases.lookup a.val).isSome || t.aliases.length < t.maxTopicAliases := by
            cases found : t.aliases.lookup a.val with
            | none => simpa [found] using room
            | some known => rfl
          simp [empty, room, Except.map]

/-- No invalid topic name is stored in a table, is the origin of a delayed message or of what has
become of a message. -/
structure Sanitary (s : Server) : Prop where
  stored : ∀ c, ValidTable (s.tables c)
  queued : ∀ d ∈ s.delayed, ValidName d.origin
  logged : ∀ e ∈ s.log, ValidName e.origin

theorem sanitary_new : Sanitary Server.new where
  stored _ := trivial
  queued d hd := by cases hd
  logged e he := by cases he

theorem stable_sanitary {origin : TopicName} (valid : ValidName origin) : Stable origin Sanitary where
  called _ hs := ⟨hs.stored, hs.queued, hs.logged⟩
  logged s e eq hs := by
    refine ⟨hs.stored, hs.queued, ?_⟩
    intro e' he'
    rcases List.mem_append.mp he' with old | new
    · exact hs.logged e' old
    · rw [List.mem_singleton.mp new, eq]
      exact valid
  deferred s d eq hs := by
    refine ⟨hs.stored, ?_, hs.logged⟩
    intro d' hd'
    rcases (List.mem_orderedInsert _).mp hd' with new | old
    · rw [new, eq]
      exact valid
    · exact hs.queued d' old

theorem Sanitary.setTable {s : Server} (h : Sanitary s) (c : SessionNo)
    {t : Option ClientTopicAliases} (valid : ValidTable t) : Sanitary (s.setTable c t) where
  stored c' := by
    by_cases eq : c' = c
    · rw [eq, Server.tables_setTable, Function.update_self]
      exact valid
    · rw [Server.tables_setTable, Function.update_of_ne eq]
      exact h.stored c'
  queued := h.queued
  logged := h.logged

theorem Sanitary.step {s : Server} (h : Sanitary s) {a : Action} (clean : CleanAction s.tables a) :
    Sanitary (step env s a) := by
  cases a with
  | connect c max => exact h.setTable c (validTable_new max)
  | publish c p =>
      rw [PublishPath.step, after_publish]
      split
      · rename_i t topic resolved
        obtain ⟨name, table⟩ := resolution_clean (h.stored c) clean resolved
        exact after_of_triple ((stable_sanitary name).publishResolved c p) (h.setTable c table)
      · exact h
  | expire now =>
      rw [PublishPath.step, after_sendExpired]
      split
      · exact h
      · rename_i d rest eq
        have name : ValidName d.origin := h.queued d (by simp [eq])
        have popped : Sanitary { s with delayed := rest } :=
          ⟨h.stored, fun d' hd' => h.queued d' (by simp [eq, hd']), h.logged⟩
        split
        · exact after_of_triple ((stable_sanitary name).innerForwards _) popped
        · exact h

theorem Sanitary.run {s : Server} (h : Sanitary s) {actions : List Action}
    (clean : CleanRun s.tables actions) : Sanitary (run env s actions) := by
  induction actions generalizing s with
  | nil => exact h
  | cons a actions ih =>
      rw [CleanRun, ← tables_step env] at clean
      exact ih (h.step env clean.1) clean.2

/-! ## An open server -/

/-- The hooks and the ACL check have no handlers, nothing is delayed or retained. -/
def Env.open : Env where
  delayedPublish _ := false
  superuser _ := false
  delayedPublishMax := 0
  delayedPublishImmediate := false
  retainEnable := false
  messagePublish _ _ _ := none
  publishCheckAcl _ _ _ := none
  retainSet _ _ _ := .ok ()
  timestampMillis _ := 0

/-- An open server routes a PUBLISH that does not meet the condition. -/
theorem routed_of_unclean {s : Server} {a : Action} (unclean : ¬ CleanAction s.tables a) :
    ∃ e ∈ (step Env.open s a).log, ¬ ValidName e.origin := by
  cases a with
  | connect c max => exact absurd trivial unclean
  | publish c p =>
      obtain ⟨name, t, resolved⟩ := resolution_unclean unclean
      refine ⟨.routed p.topic ⟨p, none⟩, ?_, name⟩
      rw [step, after_publish, resolved]
      exact List.mem_append_right _ (List.mem_singleton.mpr rfl)
  | expire now => exact absurd trivial unclean

theorem cleanRun_of_open {s : Server} (h : Sanitary s) {actions : List Action}
    (valid : ∀ e ∈ (run Env.open s actions).log, ValidName e.origin) :
    CleanRun s.tables actions := by
  induction actions generalizing s with
  | nil => trivial
  | cons a actions ih =>
      have clean : CleanAction s.tables a := by
        by_contra unclean
        obtain ⟨e, he, name⟩ := routed_of_unclean unclean
        exact name (valid e ((log_run Env.open (step Env.open s a) actions).subset he))
      rw [CleanRun, ← tables_step Env.open]
      exact ⟨clean, ih (h.step _ clean) valid⟩

/-- No message with an invalid topic name is evaluated by the ACL check, retained or routed, with
any hooks, store and configuration, if and only if every PUBLISH meets the condition. -/
theorem valid_names_iff (actions : List Action) :
    (∀ env : Env, ∀ e ∈ (run env Server.new actions).log, ValidName e.origin) ↔
      CleanRun Server.new.tables actions := by
  constructor
  · intro valid
    exact cleanRun_of_open sanitary_new (valid Env.open)
  · intro clean env
    exact (sanitary_new.run env clean).logged

/-- The bytes of a v3 PUBLISH to `+` with QoS 0 and an empty payload. -/
def plusBytes : Wire.Bytes := [0x30, 3, 0, 1, 0x2b]

/-- The packet they are decoded to. -/
def plusPublish : Publish where
  dup := false
  retain := false
  qos := .atMostOnce
  topic := "+"
  packetId := none
  payload := []
  properties := none

/-- The PUBLISH to `+` is decoded, evaluated by the ACL check and routed. -/
theorem plus_is_routed :
    ((Codec.V3.Codec.new 0).receive [plusBytes]).1.map Prod.fst = [.publish plusPublish] ∧
      (run Env.open Server.new [.connect 0 0, .publish 0 plusPublish]).log =
        [.evaluated "+" ⟨plusPublish, none⟩, .routed "+" ⟨plusPublish, none⟩] ∧
      ¬ ValidName "+" := by
  exact ⟨by decide +kernel, rfl, by decide⟩

end OxiMqtt.Session.PublishPath

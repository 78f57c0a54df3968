import OxiMqtt.Acl
import OxiMqtt.Lib.Machine

/-!
# Placeholder entries and the clients they are built for

When a client connects, a spawned task instantiates the `%c` and `%u` entries of
every rule: a plain entry goes to the rule's topic tree under the client's tag
and is noted in the session's cache, an `eq` entry goes to the rule's set of
exact texts.  When the client disconnects, the filters its cache holds are
looked up in every rule's tree and removed under its tag.

The machine runs these as the source interleaves them: the build task of each
connection one entry at a time, its cache note after the insertion, the
disconnect hook one lookup and one removal at a time.

* `placeholder_isolation`: a rule of placeholder entries matches, for a
  connected client, only what the entries instantiated for that client match,
  as long as the other connections left nothing foreign where it is seen
  (`Undisturbed`).
* `eq_placeholder_shared`: the set of exact texts carries no tag, so an `eq`
  entry instantiated for one client matches for every other.
-/

namespace OxiMqtt.Acl

open Collections

/-! ## Instantiating an entry -/

/-- `str::replace` from the first character on, with `skip` characters of a match
still to drop. -/
def replaceFrom (pat rep : List Char) : Nat → List Char → List Char
  | _, [] => []
  | skip + 1, _ :: cs => replaceFrom pat rep skip cs
  | 0, c :: cs =>
      if pat.isPrefixOf (c :: cs) then rep ++ replaceFrom pat rep (pat.length - 1) cs
      else c :: replaceFrom pat rep 0 cs

/-- `s.replace(pat, rep)` -/
def replace (s : String) (pat : List Char) (rep : String) : String :=
  String.ofList (replaceFrom pat rep.toList 0 s.toList)

/-- An entry with the client id and the user name in the place of `%c` and `%u`;
a client without a user name gets the empty text. -/
def instantiateEntry (clientId : ClientId) (username : Option UserName) (entry : String) : String :=
  let tf := replace entry phC clientId
  match username with
  | some un => replace tf phU un
  | none => replace tf phU ""

/-! ## The updates of a rule -/

namespace Rule

/-- `Rule::add_topic_filter` -/
def addTopicFilter (rule : Rule) (topicFilter : String) (clientId : ClientId) :
    Except TopicError Rule := do
  let t ← Topic.fromStr topicFilter
  .ok { rule with topics.tree := (rule.topics.tree.insert t (clientId : Tag)).1 }

/-- `Rule::add_topic_to_eqs` -/
def addTopicToEqs (rule : Rule) (topic : String) : Rule :=
  { rule with topics.eqs := rule.topics.eqs.insert topic }

/-- The first half of `Rule::remove_topic`: the filters that match the topic and
carry the client's tag. -/
def taggedTopics (rule : Rule) (topic : String) (clientId : ClientId) :
    Except TopicError (List Topic) := do
  let t ← Topic.fromStr topic
  .ok ((matched t.levels rule.topics.tree []).flatMap fun item =>
    (item.2.filter fun tag => tag = (clientId : Tag)).map fun _ => ⟨item.1⟩)

/-- The second half of `Rule::remove_topic`, for one of these filters. -/
def removeTagged (rule : Rule) (topic : Topic) (clientId : ClientId) : Rule :=
  { rule with topics.tree := (rule.topics.tree.remove topic (clientId : Tag)).1 }

end Rule

/-! ## The handler's state -/

/-- What the build task of a connection still has to do. -/
inductive BuildOp : Type
  | addFilter (rule : Nat) (tf : String)
  | cache (tf : String)
  | addEq (rule : Nat) (t : String)
  deriving DecidableEq, Repr

/-- What the disconnect hook of a connection still has to do. -/
inductive PurgeOp : Type
  | removeTopic (rule : Nat) (topicFilter : String)
  | remove (rule : Nat) (topic : Topic)
  deriving DecidableEq, Repr

/-- Whether the disconnect hook of a connection has run; `read` is the cache as
the hook read it. -/
inductive Status : Type
  | connected
  | disconnected (read : List String) (todo : List PurgeOp)
  deriving DecidableEq, Repr

/-- One connection: its session's id, its build task, and the filters noted
under the session's `CACHE_KEY`. -/
structure Conn : Type where
  clientId : ClientId
  username : Option UserName
  building : List BuildOp
  cache : List String
  status : Status
  deriving DecidableEq, Repr

/-- The rules, with the trees and sets all clients share, and every connection of
the history. -/
structure State : Type where
  rules : List Rule
  conns : List Conn

namespace State

def initial (rules : List Rule) : State := ⟨rules, []⟩

def modifyRule (s : State) (i : Nat) (f : Rule → Rule) : State :=
  { s with rules := s.rules.modify i f }

def setConn (s : State) (k : Nat) (conn : Conn) : State := { s with conns := s.conns.set k conn }

end State

/-- The insertions of `build_placeholders`, in the order of the rules. -/
def buildPlaceholders (rules : List Rule) (clientId : ClientId) (username : Option UserName) :
    List BuildOp :=
  rules.zipIdx.flatMap fun (rule, i) =>
    (rule.topics.placeholders.map fun ph => .addFilter i (instantiateEntry clientId username ph)) ++
      rule.topics.eqPlaceholders.map fun ph => .addEq i (instantiateEntry clientId username ph)

/-- The lookups of the disconnect hook: every cached filter in every rule. -/
def purgeOps (rules : List Rule) (topicFilters : List String) : List PurgeOp :=
  topicFilters.flatMap fun tf => (List.range rules.length).map fun i => .removeTopic i tf

inductive Event : Type
  | clientConnected (clientId : ClientId) (username : Option UserName)
  | build (k : Nat)
  | clientDisconnected (k : Nat)
  | purge (k : Nat)
  deriving DecidableEq, Repr

/-- One step of the build task of connection `k`.  A filter that does not parse is
logged and cached all the same. -/
def buildStep (s : State) (k : Nat) (conn : Conn) : Option State :=
  match conn.building with
  | [] => none
  | .addFilter i tf :: rest =>
      some ((s.modifyRule i fun rule =>
        match rule.addTopicFilter tf conn.clientId with
        | .ok rule' => rule'
        | .error _ => rule).setConn k { conn with building := .cache tf :: rest })
  | .cache tf :: rest =>
      some (s.setConn k { conn with cache := conn.cache ++ [tf], building := rest })
  | .addEq i t :: rest =>
      some ((s.modifyRule i fun rule => rule.addTopicToEqs t).setConn k
        { conn with building := rest })

/-- The lookup `remove_topic` starts with; a filter that does not parse is logged. -/
def lookupTagged (s : State) (i : Nat) (topicFilter : String) (clientId : ClientId) : List Topic :=
  match s.rules[i]? with
  | none => []
  | some rule =>
      match rule.taggedTopics topicFilter clientId with
      | .ok topics => topics
      | .error _ => []

/-- One step of the disconnect hook of connection `k`. -/
def purgeStep (s : State) (k : Nat) (conn : Conn) : Option State :=
  match conn.status with
  | .connected => none
  | .disconnected _ [] => none
  | .disconnected read (.removeTopic i tf :: todo) =>
      some (s.setConn k { conn with
        status := .disconnected read
          ((lookupTagged s i tf conn.clientId).map (fun t => .remove i t) ++ todo) })
  | .disconnected read (.remove i topic :: todo) =>
      some ((s.modifyRule i fun rule => rule.removeTagged topic conn.clientId).setConn k
        { conn with status := .disconnected read todo })

/-- `AclHandler::hook` on `ClientConnected` and `ClientDisconnected`, with the
tasks they start. -/
def step (s : State) : Event → Option State
  | .clientConnected clientId username =>
      some { s with conns := s.conns ++ [{
        clientId, username
        building := buildPlaceholders s.rules clientId username
        cache := []
        status := .connected }] }
  | .build k => (s.conns[k]?).bind (buildStep s k)
  | .clientDisconnected k =>
      (s.conns[k]?).bind fun conn =>
        if conn.status = .connected then
          some (s.setConn k { conn with
            status := .disconnected conn.cache (purgeOps s.rules conn.cache) })
        else none
  | .purge k => (s.conns[k]?).bind (purgeStep s k)

/-! ## What a connection's entries match -/

/-- The text is an `eq` entry instantiated for the client. -/
def EqMatch (eqPlaceholders : List String) (clientId : ClientId) (username : Option UserName)
    (s : String) : Prop :=
  ∃ ph ∈ eqPlaceholders, instantiateEntry clientId username ph = s

/-- The topic is admitted by a plain entry instantiated for the client. -/
def PlainMatch (placeholders : List String) (clientId : ClientId) (username : Option UserName)
    (s : String) : Prop :=
  ∃ ph ∈ placeholders, ∃ f, Topic.fromStr (instantiateEntry clientId username ph) = .ok f ∧
    Admits f.levels (parseOrEmpty s).levels

/-- The topic is matched by one of the rule's entries instantiated for the client. -/
def EntryMatch (topics : Topics) (clientId : ClientId) (username : Option UserName) (s : String) :
    Prop :=
  EqMatch topics.eqPlaceholders clientId username s ∨
    PlainMatch topics.placeholders clientId username s

/-- The connection has ended, its cache held all it had inserted when the
disconnect hook read it, and the hook is done. -/
def Conn.Purged (conn : Conn) : Prop :=
  conn.building = [] ∧ conn.status = .disconnected conn.cache []

/-- No connection of the history left the client a foreign match: the `eq` texts
instantiated for any of them match one of the client's own entries, and so does
all that the plain entries match which were instantiated under the client's id,
for another user name perhaps, and are not yet purged. -/
def Undisturbed (s : State) (topics : Topics) (clientId : ClientId) (username : Option UserName) :
    Prop :=
  ∀ other ∈ s.conns,
    (∀ text, EqMatch topics.eqPlaceholders other.clientId other.username text →
      EntryMatch topics clientId username text) ∧
    (other.clientId = clientId → ¬ other.Purged → ∀ text,
      PlainMatch topics.placeholders other.clientId other.username text →
        EntryMatch topics clientId username text)

/-! ## What the shared structures hold -/

section Invariant

variable (i : Nat) (placeholders eqPlaceholders : List String)

/-- The disconnect hook read the cache before the build task had noted all the
filters it has inserted. -/
def Late (conn : Conn) (read : List String) : Prop :=
  (∃ tf, .cache tf ∈ conn.building) ∨ read.length < conn.cache.length

/-- Connection `conn` is why the tree of rule `i` may still hold the filter `f`
under its tag: it has inserted the filter, and its disconnect hook has not run,
has run too early, or has still to remove the filter. -/
def Holds (conn : Conn) (f : Topic) : Prop :=
  ∃ ph ∈ placeholders,
    Topic.fromStr (instantiateEntry conn.clientId conn.username ph) = .ok f ∧
    (instantiateEntry conn.clientId conn.username ph ∈ conn.cache ∨
      .cache (instantiateEntry conn.clientId conn.username ph) ∈ conn.building) ∧
    ∀ read todo, conn.status = .disconnected read todo →
      Late conn read ∨
      .removeTopic i (instantiateEntry conn.clientId conn.username ph) ∈ todo ∨
      .remove i f ∈ todo

/-- The build task of the connection inserts only instances of the rule's
entries into rule `i`, and the cache has only grown since the hook read it. -/
structure ConnInv (conn : Conn) : Prop where
  filters : ∀ tf, .addFilter i tf ∈ conn.building →
    ∃ ph ∈ placeholders, instantiateEntry conn.clientId conn.username ph = tf
  eqs : ∀ t, .addEq i t ∈ conn.building → EqMatch eqPlaceholders conn.clientId conn.username t
  read : ∀ read todo, conn.status = .disconnected read todo → read.length ≤ conn.cache.length

/-- What rule `i` holds is what connections have put there. -/
structure RuleHolds (conns : List Conn) (rule : Rule) : Prop where
  not_all : rule.topics.all = false
  placeholders_eq : rule.topics.placeholders = placeholders
  eqPlaceholders_eq : rule.topics.eqPlaceholders = eqPlaceholders
  eqs : ∀ t ∈ rule.topics.eqs, ∃ conn ∈ conns,
    EqMatch eqPlaceholders conn.clientId conn.username t
  tree : ∀ (f : Topic) (tag : Tag), tag ∈ rule.topics.tree.valuesAt f.levels →
    ∃ conn ∈ conns, tag = conn.clientId ∧ Holds i placeholders conn f

structure Inv (s : State) : Prop where
  rule : ∃ rule, s.rules[i]? = some rule ∧
    RuleHolds i placeholders eqPlaceholders s.conns rule
  conns : ∀ conn ∈ s.conns, ConnInv i placeholders eqPlaceholders conn

variable {i placeholders eqPlaceholders}

theorem exists_mem_set {conns : List Conn} {k : Nat} {old new : Conn} {Q : Conn → Prop}
    (hold : conns[k]? = some old) (keep : Q old → Q new) (h : ∃ conn ∈ conns, Q conn) :
    ∃ conn ∈ conns.set k new, Q conn := by
  obtain ⟨conn, hmem, hq⟩ := h
  obtain ⟨j, hj, rfl⟩ := List.getElem_of_mem hmem
  obtain ⟨hk, hold⟩ := List.getElem?_eq_some_iff.mp hold
  by_cases hkj : k = j
  · subst hkj
    exact ⟨new, List.mem_set hk _, keep (hold ▸ hq)⟩
  · refine ⟨conns[j], List.mem_iff_getElem.mpr ⟨j, by simpa using hj, ?_⟩, hq⟩
    rw [List.getElem_set_ne hkj]

/-- Replacing a connection by one of the same client that still accounts for its
filters keeps the contents of the rule accounted for. -/
theorem RuleHolds.setConn {conns : List Conn} {rule : Rule} {k : Nat} {old new : Conn}
    (h : RuleHolds i placeholders eqPlaceholders conns rule) (hold : conns[k]? = some old)
    (id : new.clientId = old.clientId) (name : new.username = old.username)
    (keep : ∀ f, (old.clientId : Tag) ∈ rule.topics.tree.valuesAt f.levels →
      Holds i placeholders old f → Holds i placeholders new f) :
    RuleHolds i placeholders eqPlaceholders (conns.set k new) rule where
  not_all := h.not_all
  placeholders_eq := h.placeholders_eq
  eqPlaceholders_eq := h.eqPlaceholders_eq
  eqs t ht := exists_mem_set hold (by rw [id, name]; exact fun hq => hq) (h.eqs t ht)
  tree f tag htag := by
    refine exists_mem_set hold ?_ (h.tree f tag htag)
    rintro ⟨rfl, hholds⟩
    exact ⟨by rw [id], keep f htag hholds⟩

theorem forall_mem_set {conns : List Conn} {k : Nat} {new : Conn} {Q : Conn → Prop}
    (h : ∀ conn ∈ conns, Q conn) (hnew : Q new) : ∀ conn ∈ conns.set k new, Q conn := by
  intro conn hmem
  obtain hmem | rfl := List.mem_or_eq_of_mem_set hmem
  · exact h conn hmem
  · exact hnew

theorem modify_getElem? {rules : List Rule} {j : Nat} {f : Rule → Rule} {rule : Rule}
    (hrule : rules[i]? = some rule) :
    (rules.modify j f)[i]? = some (if j = i then f rule else rule) := by
  rw [List.getElem?_modify, hrule]
  split <;> rfl

/-- A step that updates rule `j` and connection `k` keeps the invariant if the
updated rule is accounted for by the updated connections. -/
theorem Inv.update {s : State} {j k : Nat} {f : Rule → Rule} {new : Conn}
    (h : Inv i placeholders eqPlaceholders s)
    (hnew : ConnInv i placeholders eqPlaceholders new)
    (same : ∀ rule, RuleHolds i placeholders eqPlaceholders s.conns rule →
      RuleHolds i placeholders eqPlaceholders (s.conns.set k new) (if j = i then f rule else rule)) :
    Inv i placeholders eqPlaceholders ((s.modifyRule j f).setConn k new) := by
  obtain ⟨⟨rule, hrule, hholds⟩, hconns⟩ := h
  exact ⟨⟨_, modify_getElem? hrule, same rule hholds⟩, forall_mem_set hconns hnew⟩

theorem Inv.setConn {s : State} {k : Nat} {new : Conn}
    (h : Inv i placeholders eqPlaceholders s)
    (hnew : ConnInv i placeholders eqPlaceholders new)
    (same : ∀ rule, s.rules[i]? = some rule →
      RuleHolds i placeholders eqPlaceholders s.conns rule →
      RuleHolds i placeholders eqPlaceholders (s.conns.set k new) rule) :
    Inv i placeholders eqPlaceholders (s.setConn k new) := by
  obtain ⟨⟨rule, hrule, hholds⟩, hconns⟩ := h
  exact ⟨⟨rule, hrule, same rule hrule hholds⟩, forall_mem_set hconns hnew⟩

/-! ## The steps keep it -/

theorem mem_buildPlaceholders {rules : List Rule} {clientId : ClientId}
    {username : Option UserName} {op : BuildOp} {rule : Rule} (hrule : rules[i]? = some rule)
    (hop : op ∈ buildPlaceholders rules clientId username) :
    (∀ tf, op = .addFilter i tf →
      ∃ ph ∈ rule.topics.placeholders, instantiateEntry clientId username ph = tf) ∧
    ∀ t, op = .addEq i t → EqMatch rule.topics.eqPlaceholders clientId username t := by
  obtain ⟨⟨rule', j⟩, hmem, hop⟩ := List.mem_flatMap.mp hop
  have hj : rules[j]? = some rule' := List.mem_zipIdx_iff_getElem?.mp hmem
  rw [List.mem_append, List.mem_map, List.mem_map] at hop
  obtain ⟨ph, hph, rfl⟩ | ⟨ph, hph, rfl⟩ := hop
  · refine ⟨fun tf heq => ?_, fun t heq => by cases heq⟩
    cases heq
    rw [hj] at hrule
    cases hrule
    exact ⟨ph, hph, rfl⟩
  · refine ⟨fun tf heq => (by cases heq), fun t heq => ?_⟩
    cases heq
    rw [hj] at hrule
    cases hrule
    exact ⟨ph, hph, rfl⟩

theorem inv_clientConnected {s : State} (h : Inv i placeholders eqPlaceholders s)
    (clientId : ClientId) (username : Option UserName) :
    Inv i placeholders eqPlaceholders { s with conns := s.conns ++ [{
      clientId, username
      building := buildPlaceholders s.rules clientId username
      cache := []
      status := .connected }] } := by
  obtain ⟨⟨rule, hrule, hholds⟩, hconns⟩ := h
  refine ⟨⟨rule, hrule, { hholds with eqs := ?_, tree := ?_ }⟩, fun conn hmem => ?_⟩
  · intro t ht
    obtain ⟨conn, hmem, hq⟩ := hholds.eqs t ht
    exact ⟨conn, List.mem_append_left _ hmem, hq⟩
  · intro f tag htag
    obtain ⟨conn, hmem, hq⟩ := hholds.tree f tag htag
    exact ⟨conn, List.mem_append_left _ hmem, hq⟩
  · rw [List.mem_append, List.mem_singleton] at hmem
    obtain hmem | rfl := hmem
    · exact hconns conn hmem
    · refine ⟨fun tf htf => ?_, fun t ht => ?_, fun read todo heq => by cases heq⟩
      · rw [← hholds.placeholders_eq]
        exact (mem_buildPlaceholders hrule htf).1 tf rfl
      · rw [← hholds.eqPlaceholders_eq]
        exact (mem_buildPlaceholders hrule ht).2 t rfl

/-- A connection whose build task goes on accounts for the filters it accounted
for, if what it had noted or was about to note it still has or is about to. -/
theorem Holds.build {old new : Conn} {f : Topic} (h : Holds i placeholders old f)
    (id : new.clientId = old.clientId) (name : new.username = old.username)
    (status : new.status = old.status)
    (noted : ∀ tf, tf ∈ old.cache ∨ .cache tf ∈ old.building →
      tf ∈ new.cache ∨ .cache tf ∈ new.building)
    (late : ∀ read todo, old.status = .disconnected read todo → Late old read → Late new read) :
    Holds i placeholders new f := by
  obtain ⟨ph, hph, hparse, hnoted, hkept⟩ := h
  refine ⟨ph, hph, by rw [id, name]; exact hparse, by rw [id, name]; exact noted _ hnoted, ?_⟩
  intro read todo hstatus
  rw [status] at hstatus
  rw [id, name]
  obtain hlate | hrest := hkept read todo hstatus
  · exact .inl (late read todo hstatus hlate)
  · exact .inr hrest

theorem inv_build_addFilter {s : State} {k j : Nat} {conn : Conn} {tf : String}
    {rest : List BuildOp} (h : Inv i placeholders eqPlaceholders s)
    (hconn : s.conns[k]? = some conn) (hbuilding : conn.building = .addFilter j tf :: rest) :
    Inv i placeholders eqPlaceholders ((s.modifyRule j fun rule =>
        match rule.addTopicFilter tf conn.clientId with
        | .ok rule' => rule'
        | .error _ => rule).setConn k { conn with building := .cache tf :: rest }) := by
  have own := h.conns conn (List.mem_of_getElem? hconn)
  refine h.update ⟨fun tf' hmem => own.filters tf' ?_, fun t hmem => own.eqs t ?_, own.read⟩
    fun rule hholds => ?_
  · rw [hbuilding]
    exact List.mem_cons_of_mem _ (by simpa using hmem)
  · rw [hbuilding]
    exact List.mem_cons_of_mem _ (by simpa using hmem)
  have moved : RuleHolds i placeholders eqPlaceholders
      (s.conns.set k { conn with building := .cache tf :: rest }) rule := by
    refine hholds.setConn hconn rfl rfl fun f _ hf => hf.build rfl rfl rfl ?_ ?_
    · intro tf' hnoted
      rw [hbuilding] at hnoted
      simpa using hnoted.imp_right fun hmem => Or.inr (by simpa using hmem)
    · exact fun read todo _ _ => .inl ⟨tf, List.mem_cons_self⟩
  split
  · rename_i hji
    subst hji
    unfold Rule.addTopicFilter
    cases hparse : Topic.fromStr tf with
    | error e => exact moved
    | ok t =>
        refine { moved with tree := fun f tag htag => ?_ }
        obtain ⟨rfl, rfl⟩ | htag := Node.mem_valuesAt_insert.mp htag
        · -- The filter just inserted is accounted for by the note still to come.
          obtain ⟨hk, -⟩ := List.getElem?_eq_some_iff.mp hconn
          obtain ⟨ph, hph, hinst⟩ := own.filters tf (by rw [hbuilding]; exact List.mem_cons_self)
          refine ⟨_, List.mem_set hk _, rfl, ph, hph, by rw [hinst]; exact hparse, ?_, ?_⟩
          · exact .inr (by rw [hinst]; exact List.mem_cons_self)
          · exact fun read todo _ => .inl (.inl ⟨tf, List.mem_cons_self⟩)
        · exact moved.tree f tag htag
  · exact moved

theorem inv_build {s s' : State} {k : Nat} {conn : Conn}
    (h : Inv i placeholders eqPlaceholders s) (hconn : s.conns[k]? = some conn)
    (hstep : buildStep s k conn = some s') : Inv i placeholders eqPlaceholders s' := by
  have own := h.conns conn (List.mem_of_getElem? hconn)
  unfold buildStep at hstep
  split at hstep
  · cases hstep
  · rename_i j tf rest hbuilding
    cases hstep
    exact inv_build_addFilter h hconn hbuilding
  · rename_i tf rest hbuilding
    cases hstep
    refine h.setConn ⟨fun tf' hmem => own.filters tf' ?_, fun t hmem => own.eqs t ?_,
      fun read todo hstatus => ?_⟩ fun rule _ hholds =>
        hholds.setConn hconn rfl rfl fun f _ hf => hf.build rfl rfl rfl ?_ ?_
    · rw [hbuilding]
      exact List.mem_cons_of_mem _ hmem
    · rw [hbuilding]
      exact List.mem_cons_of_mem _ hmem
    · have := own.read read todo hstatus
      simp only [List.length_append, List.length_singleton]
      omega
    · intro tf' hnoted
      rw [hbuilding, List.mem_cons] at hnoted
      simp only [List.mem_append, List.mem_singleton]
      obtain hcache | hnote | hmem := hnoted
      · exact .inl (.inl hcache)
      · exact .inl (.inr (by simpa using hnote))
      · exact .inr hmem
    · intro read todo hstatus _
      have := own.read read todo hstatus
      refine .inr ?_
      simp only [List.length_append, List.length_singleton]
      omega
  · rename_i j t rest hbuilding
    cases hstep
    refine h.update ⟨fun tf' hmem => own.filters tf' ?_, fun t' hmem => own.eqs t' ?_, own.read⟩
      fun rule hholds => ?_
    · rw [hbuilding]
      exact List.mem_cons_of_mem _ hmem
    · rw [hbuilding]
      exact List.mem_cons_of_mem _ hmem
    have moved : RuleHolds i placeholders eqPlaceholders
        (s.conns.set k { conn with building := rest }) rule := by
      refine hholds.setConn hconn rfl rfl fun f _ hf => hf.build rfl rfl rfl ?_ ?_
      · intro tf' hnoted
        rw [hbuilding] at hnoted
        simpa using hnoted
      · intro read todo _ hlate
        obtain ⟨tf', hmem⟩ | hlen := hlate
        · rw [hbuilding] at hmem
          exact .inl ⟨tf', by simpa using hmem⟩
        · exact .inr hlen
    split
    · rename_i hji
      subst hji
      refine { moved with eqs := fun t' ht' => ?_ }
      obtain rfl | ht' := List.mem_insert_iff.mp ht'
      · obtain ⟨hk, -⟩ := List.getElem?_eq_some_iff.mp hconn
        exact ⟨_, List.mem_set hk _, own.eqs t' (by rw [hbuilding]; exact List.mem_cons_self)⟩
      · exact moved.eqs t' ht'
    · exact moved

theorem inv_clientDisconnected {s : State} {k : Nat} {conn : Conn}
    (h : Inv i placeholders eqPlaceholders s) (hconn : s.conns[k]? = some conn) :
    Inv i placeholders eqPlaceholders (s.setConn k { conn with
      status := .disconnected conn.cache (purgeOps s.rules conn.cache) }) := by
  have own := h.conns conn (List.mem_of_getElem? hconn)
  refine h.setConn ⟨own.filters, own.eqs, ?_⟩ fun rule hrule hholds =>
    hholds.setConn hconn rfl rfl fun f _ hf => ?_
  · intro read todo hstatus
    cases hstatus
    exact le_rfl
  · obtain ⟨ph, hph, hparse, hnoted, -⟩ := hf
    refine ⟨ph, hph, hparse, hnoted, ?_⟩
    intro read todo hstatus
    cases hstatus
    obtain hcache | hnote := hnoted
    · obtain ⟨hi, -⟩ := List.getElem?_eq_some_iff.mp hrule
      refine .inr (.inl (List.mem_flatMap.mpr ⟨_, hcache, List.mem_map.mpr ⟨i, ?_, rfl⟩⟩))
      exact List.mem_range.mpr hi
    · exact .inl (.inl ⟨_, hnote⟩)

/-- The lookup of a stored filter by its own text finds it. -/
theorem mem_lookupTagged {s : State} {rule : Rule} {tf : String} {f : Topic} {clientId : ClientId}
    (hrule : s.rules[i]? = some rule) (hparse : Topic.fromStr tf = .ok f)
    (stored : (clientId : Tag) ∈ rule.topics.tree.valuesAt f.levels) :
    f ∈ lookupTagged s i tf clientId := by
  unfold lookupTagged Rule.taggedTopics
  rw [hrule, hparse]
  have valid := (Topic.valid_of_fromStr hparse).levels_valid
  have listed : (f.levels, (rule.topics.tree.valuesAt f.levels).toList) ∈
      matched f.levels rule.topics.tree [] := by
    refine mem_matched.mpr ⟨f.levels, .refl _, ?_, OrdSet.ne_empty_iff.mpr ⟨_, stored⟩, rfl⟩
    rw [secluded_root_iff valid]
    rintro ⟨⟨l, head, wild⟩, l', head', dollar⟩
    rw [head] at head'
    cases head'
    rw [Level.dollar_of_isWildcard wild] at dollar
    cases dollar
  refine List.mem_flatMap.mpr ⟨_, listed, List.mem_map.mpr ⟨clientId, ?_, rfl⟩⟩
  rw [List.mem_filter]
  exact ⟨stored, by simp⟩

theorem inv_purge {s s' : State} {k : Nat} {conn : Conn}
    (h : Inv i placeholders eqPlaceholders s) (hconn : s.conns[k]? = some conn)
    (hstep : purgeStep s k conn = some s') : Inv i placeholders eqPlaceholders s' := by
  have own := h.conns conn (List.mem_of_getElem? hconn)
  unfold purgeStep at hstep
  split at hstep
  · cases hstep
  · cases hstep
  · rename_i read j tf todo hstatus
    cases hstep
    refine h.setConn ⟨own.filters, own.eqs, ?_⟩ fun rule hrule hholds =>
      hholds.setConn hconn rfl rfl fun f hf hold => ?_
    · intro read' todo' heq
      cases heq
      exact own.read read _ hstatus
    · obtain ⟨ph, hph, hparse, hnoted, hkept⟩ := hold
      refine ⟨ph, hph, hparse, hnoted, ?_⟩
      intro read' todo' heq
      cases heq
      obtain hlate | hlookup | hremove := hkept read _ hstatus
      · exact .inl hlate
      · cases hlookup with
        | head =>
            refine .inr (.inr (List.mem_append_left _ (List.mem_map.mpr ⟨f, ?_, rfl⟩)))
            exact mem_lookupTagged hrule hparse hf
        | tail _ hlookup => exact .inr (.inl (List.mem_append_right _ hlookup))
      · cases hremove with
        | tail _ hremove => exact .inr (.inr (List.mem_append_right _ hremove))
  · rename_i read j topic todo hstatus
    cases hstep
    refine h.update ⟨own.filters, own.eqs, ?_⟩ fun rule hholds => ?_
    · intro read' todo' heq
      cases heq
      exact own.read read _ hstatus
    have shrunk : RuleHolds i placeholders eqPlaceholders s.conns
        (if j = i then rule.removeTagged topic conn.clientId else rule) := by
      split
      · exact { hholds with
          tree := fun f tag htag => hholds.tree f tag (Node.mem_valuesAt_remove.mp htag).2 }
      · exact hholds
    refine shrunk.setConn hconn rfl rfl fun f hf hold => ?_
    obtain ⟨ph, hph, hparse, hnoted, hkept⟩ := hold
    refine ⟨ph, hph, hparse, hnoted, ?_⟩
    intro read' todo' heq
    cases heq
    obtain hlate | hlookup | hremove := hkept read _ hstatus
    · exact .inl hlate
    · cases hlookup with
      | tail _ hlookup => exact .inr (.inl hlookup)
    · cases hremove with
      | head =>
          -- The filter just removed is not in the tree any more.
          rw [if_pos rfl] at hf
          exact absurd ⟨rfl, rfl⟩ (Node.mem_valuesAt_remove.mp hf).1
      | tail _ hremove => exact .inr (.inr hremove)

theorem step_inv {s s' : State} {e : Event} (h : Inv i placeholders eqPlaceholders s)
    (hstep : step s e = some s') : Inv i placeholders eqPlaceholders s' := by
  cases e with
  | clientConnected clientId username =>
      cases hstep
      exact inv_clientConnected h clientId username
  | build k =>
      obtain ⟨conn, hconn, hstep⟩ := Option.bind_eq_some_iff.mp hstep
      exact inv_build h hconn hstep
  | clientDisconnected k =>
      obtain ⟨conn, hconn, hstep⟩ := Option.bind_eq_some_iff.mp hstep
      split at hstep
      · cases hstep
        exact inv_clientDisconnected h hconn
      · cases hstep
  | purge k =>
      obtain ⟨conn, hconn, hstep⟩ := Option.bind_eq_some_iff.mp hstep
      exact inv_purge h hconn hstep

end Invariant

/-! ## Rules of placeholder entries -/

/-- An entry of the topic list with a placeholder, plain or `eq`. -/
def isPlaceholderEntry : Value → Bool
  | .string topic => hasPlaceholder topic
  | .object eqMap =>
      match eqMap.lookup "eq" with
      | some (.string eq) => hasPlaceholder eq
      | _ => false
  | _ => false

theorem addEntry_placeholder {cfg : Option Value} {topics topics' : Topics} {entry : Value}
    (h : isPlaceholderEntry entry = true) (added : topics.addEntry cfg entry = .ok topics') :
    topics'.all = topics.all ∧ topics'.eqs = topics.eqs ∧ topics'.tree = topics.tree := by
  cases entry with
  | string topic =>
      rw [isPlaceholderEntry] at h
      rw [Topics.addEntry, if_pos h] at added
      cases added
      exact ⟨rfl, rfl, rfl⟩
  | object eqMap =>
      rw [isPlaceholderEntry] at h
      rw [Topics.addEntry] at added
      split at h
      · rename_i eq hlookup
        rw [hlookup] at added
        simp only [h, if_true] at added
        cases added
        exact ⟨rfl, rfl, rfl⟩
      · cases h
  | null => cases h
  | bool b => cases h
  | number n => cases h
  | array items => cases h

theorem foldlM_addEntry_placeholder {cfg : Option Value} {entries : List Value}
    {topics topics' : Topics} (only : ∀ entry ∈ entries, isPlaceholderEntry entry = true)
    (built : entries.foldlM (Topics.addEntry cfg) topics = .ok topics') :
    topics'.all = topics.all ∧ topics'.eqs = topics.eqs ∧ topics'.tree = topics.tree := by
  apply Topics.of_entries (P := fun t => t.all = topics.all ∧ t.eqs = topics.eqs ∧
    t.tree = topics.tree) (fun entry hmem mid mid' same added => ?_) ⟨rfl, rfl, rfl⟩ built
  obtain ⟨hall, heqs, htree⟩ := same
  obtain ⟨hall', heqs', htree'⟩ := addEntry_placeholder (only entry hmem) added
  exact ⟨hall'.trans hall, heqs'.trans heqs, htree'.trans htree⟩

theorem inv_initial {rules : List Rule} {i : Nat} {rule : Rule} {items entries : List Value}
    (listed : rules[i]? = some rule) (built : Rule.tryFrom (.array items) = .ok rule)
    (topicList : items[3]? = some (.array entries))
    (only : ∀ entry ∈ entries, isPlaceholderEntry entry = true) :
    Inv i rule.topics.placeholders rule.topics.eqPlaceholders (.initial rules) := by
  have topics := topics_of_tryFrom built
  rw [topicList] at topics
  obtain ⟨hall, heqs, htree⟩ := foldlM_addEntry_placeholder only topics
  refine ⟨⟨rule, listed, hall, rfl, rfl, fun t ht => ?_, fun f tag htag => ?_⟩,
    fun conn hmem => by cases hmem⟩
  · rw [heqs] at ht
    cases ht
  · rw [htree] at htag
    simp [Topics.empty] at htag

/-- A connection that accounts for a filter is not purged. -/
theorem Holds.not_purged {i : Nat} {placeholders : List String} {conn : Conn} {f : Topic}
    (h : Holds i placeholders conn f) : ¬ conn.Purged := by
  rintro ⟨hbuilding, hstatus⟩
  obtain ⟨ph, -, -, -, hkept⟩ := h
  obtain (⟨tf, hmem⟩ | hlen) | hlookup | hremove := hkept _ _ hstatus
  · rw [hbuilding] at hmem
    cases hmem
  · exact lt_irrefl _ hlen
  · cases hlookup
  · cases hremove

/-- In every state the handler reaches, whatever the order of connects,
disconnects and the tasks they start, a rule of placeholder entries matches for a
client with an undisturbed history only what its own entries match. -/
theorem placeholder_isolation {rules : List Rule} {i : Nat} {rule : Rule}
    {items entries : List Value} (listed : rules[i]? = some rule)
    (built : Rule.tryFrom (.array items) = .ok rule)
    (topicList : items[3]? = some (.array entries))
    (only : ∀ entry ∈ entries, isPlaceholderEntry entry = true) {events : List Event} {s : State}
    (ran : Machine.run step (.initial rules) events = some s) {clientId : ClientId}
    {username : Option UserName} (undisturbed : Undisturbed s rule.topics clientId username)
    {rule' : Rule} (now : s.rules[i]? = some rule') {text : String}
    (hmatch : rule'.topics.isMatch (parseOrEmpty text) text clientId = true) :
    EntryMatch rule.topics clientId username text := by
  have inv := Machine.invariant_run (fun _ _ _ h hstep => step_inv h hstep) ran
    (inv_initial listed built topicList only)
  obtain ⟨⟨_, hnow, hholds⟩, -⟩ := inv
  rw [now] at hnow
  cases hnow
  rw [Topics.isMatch_iff (isValid_of_mem_parseOrEmpty text), hholds.not_all] at hmatch
  obtain hall | heq | ⟨f, tag, htag, hfits, hadmits⟩ := hmatch
  · cases hall
  · obtain ⟨other, hother, heqMatch⟩ := hholds.eqs text heq
    exact (undisturbed other hother).1 text heqMatch
  · obtain ⟨other, hother, rfl, hheld⟩ := hholds.tree f tag htag
    have same : other.clientId = clientId := by simpa [tagMatches] using hfits
    refine (undisturbed other hother).2 same hheld.not_purged text ?_
    obtain ⟨ph, hph, hparse, -⟩ := hheld
    exact ⟨ph, hph, f, hparse, hadmits⟩

/-- `["allow", "all", "pubsub", ["sensor/%c/ctrl"]]` -/
def ctrlRule : List Value :=
  [.string "allow", .string "all", .string "pubsub", .array [.string "sensor/%c/ctrl"]]

/-- `["allow", "all", "pubsub", [{ eq = "sensor/%c" }]]` -/
def eqRule : List Value :=
  [.string "allow", .string "all", .string "pubsub",
    .array [.object [("eq", .string "sensor/%c")]]]

theorem placeholder_isolation_ctrl :
    ∃ rule rule' s, Rule.tryFrom (.array ctrlRule) = .ok rule ∧
      Machine.run step (.initial [rule])
        [.clientConnected "light" none, .build 0, .build 0] = some s ∧
      s.rules[0]? = some rule' ∧
      rule'.topics.isMatch (parseOrEmpty "sensor/light/ctrl") "sensor/light/ctrl" "light" = true ∧
      EntryMatch rule.topics "light" none "sensor/light/ctrl" := by
  have reached : ∃ rule rule' s, Rule.tryFrom (.array ctrlRule) = .ok rule ∧
      Machine.run step (.initial [rule])
        [.clientConnected "light" none, .build 0, .build 0] = some s ∧
      s.rules[0]? = some rule' ∧
      rule'.topics.isMatch (parseOrEmpty "sensor/light/ctrl") "sensor/light/ctrl" "light" = true ∧
      Undisturbed s rule.topics "light" none := by
    refine ⟨_, _, _, rfl, rfl, rfl, by decide, fun other hother => ?_⟩
    cases hother with
    | head =>
        refine ⟨fun text h => ?_, fun _ _ text h => .inr h⟩
        obtain ⟨ph, hph, -⟩ := h
        cases hph
    | tail _ hother => cases hother
  obtain ⟨rule, rule', s, built, ran, now, hmatch, undisturbed⟩ := reached
  exact ⟨rule, rule', s, built, ran, now, hmatch,
    placeholder_isolation (i := 0) rfl built rfl (by decide)
      ran undisturbed now hmatch⟩

/-- The text an `eq` entry was instantiated to for `alice` matches for `bob`, and
still does after `alice` has disconnected. -/
theorem eq_placeholder_shared :
    ∃ rule rule' s, Rule.tryFrom (.array eqRule) = .ok rule ∧
      Machine.run step (.initial [rule])
        [.clientConnected "alice" none, .build 0, .clientDisconnected 0,
          .clientConnected "bob" none, .build 1] = some s ∧
      s.rules[0]? = some rule' ∧
      (∃ bob ∈ s.conns, bob.clientId = "bob" ∧ bob.status = .connected) ∧
      rule'.topics.isMatch (parseOrEmpty "sensor/alice") "sensor/alice" "bob" = true ∧
      ¬ EntryMatch rule.topics "bob" none "sensor/alice" := by
  refine ⟨_, _, _, rfl, rfl, rfl, ⟨_, List.mem_cons_of_mem _ List.mem_cons_self, rfl, rfl⟩,
    by decide, ?_⟩
  rintro (⟨ph, hph, heq⟩ | ⟨ph, hph, -⟩)
  · cases hph with
    | head => exact absurd heq (by decide)
    | tail _ hph => cases hph
  · cases hph

end OxiMqtt.Acl

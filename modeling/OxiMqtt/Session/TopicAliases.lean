import Mathlib.Data.Finset.Card
import Mathlib.Data.List.TakeWhile
import OxiMqtt.Codec.Types
import OxiMqtt.Lib.Gather

/-!
# Server topic aliases

The outbound topic aliases of a v5 session: `ServerTopicAliases::get`, `Sink::publish` of
`types.rs`, and the table that `SessionState::new` makes for a negotiated maximum.  The
other end is a receiver as the protocol has it: it keeps the topic of every alias it was
given one with, and looks up an alias that comes without a topic.

The sender enters a topic in its table whenever it publishes it; the receiver learns the
alias only if the publish has properties to carry it.

* `Tables`: what both tables hold after any publishes.
* `InStep.publish`: what one publish does to them, and when its packet resolves.
* `aliases_resolve_iff`: when the receiver resolves every publish.
* `alias_lost_without_properties`: a topic that is published twice without properties.
-/

namespace OxiMqtt.Session.TopicAliases

open Collections
open OxiMqtt.Codec (NonZeroU16 NonZeroU32 Publish)

abbrev TopicName : Type := String

/-! ## The sender -/

/-- `ServerTopicAliases` -/
structure ServerTopicAliases : Type where
  maxTopicAliases : Nat
  aliases : Assoc TopicName NonZeroU16 := []

/-- `ServerTopicAliases::get`; `none` is its `unreachable!()`. -/
def ServerTopicAliases.get (s : ServerTopicAliases) (topic : TopicName) :
    Option (ServerTopicAliases × Option TopicName × Option NonZeroU16) :=
  if s.maxTopicAliases = 0 then some (s, some topic, none)
  else
    match s.aliases.lookup topic with
    | some aliasId => some (s, none, some aliasId)
    | none =>
        let len := s.aliases.length
        if len ≥ s.maxTopicAliases then some (s, some topic, none)
        else
          (NonZeroU16.new (UInt16.ofNat (len + 1))).map fun aliasId =>
            ({ s with aliases := s.aliases.insert topic aliasId }, some topic, some aliasId)

/-- `SessionState::new`: a session has a table when the negotiated maximum is not zero. -/
def serverTopicAliases (max : UInt16) : Option ServerTopicAliases :=
  if max > 0 then some { maxTopicAliases := max.toNat } else none

/-- `Sink::publish` of a v5 sink: the table it leaves, and the packet it sends. -/
def publish (table : Option ServerTopicAliases) (p : Publish)
    (messageExpiryInterval : Option NonZeroU32) : Option (Option ServerTopicAliases × Publish) := do
  let (table, topic, aliasId) ←
    match table with
    | some s => (s.get p.topic).map fun (s, topic, aliasId) => (some s, topic, aliasId)
    | none => some (none, some p.topic, none)
  return (table,
    { p with
      topic := topic.getD ""
      properties := p.properties.map fun properties =>
        { properties with messageExpiryInterval, topicAlias := aliasId } })

/-- A publish with the expiry interval it is sent with. -/
abbrev Outgoing : Type := Publish × Option NonZeroU32

/-- The packets of a sequence of publishes. -/
def publishAll : Option ServerTopicAliases → List Outgoing → Option (List Publish)
  | _, [] => some []
  | table, (p, expiry) :: ps => do
      let (table, sent) ← publish table p expiry
      let rest ← publishAll table ps
      return sent :: rest

/-! ## A conformant receiver -/

/-- The alias of a packet. -/
def aliasOf (p : Publish) : Option NonZeroU16 := p.properties.bind fun q => q.topicAlias

/-- The topic of a packet that the receiver may accept: an alias is at most the maximum, and
an empty topic has an alias that is known. -/
def resolve (max : UInt16) (known : Assoc UInt16 TopicName) (p : Publish) : Option TopicName :=
  match aliasOf p with
  | none => if p.topic = "" then none else some p.topic
  | some aliasId =>
      if aliasId.val > max then none
      else if p.topic = "" then known.lookup aliasId.val
      else some p.topic

/-- What the receiver knows after a packet. -/
def learn (known : Assoc UInt16 TopicName) (p : Publish) : Assoc UInt16 TopicName :=
  match aliasOf p with
  | none => known
  | some aliasId => if p.topic = "" then known else known.insert aliasId.val p.topic

/-- The topics of a sequence of packets, none once a packet is not acceptable. -/
def receiveAll (max : UInt16) : Assoc UInt16 TopicName → List Publish → Option (List TopicName)
  | _, [] => some []
  | known, p :: ps => do
      let topic ← resolve max known p
      let rest ← receiveAll max (learn known p) ps
      return topic :: rest

/-- The sequence is sent, and the receiver resolves every packet to the topic of its publish. -/
def Resolved (max : UInt16) (ps : List Outgoing) : Prop :=
  ∃ sent, publishAll (serverTopicAliases max) ps = some sent ∧
    receiveAll max [] sent = some (ps.map fun p => p.1.topic)

/-! ## One publish -/

/-- The publish has properties, which can carry an alias. -/
def carries (p : Outgoing) : Bool := p.1.properties.isSome

/-- The packet of a publish, with this topic and this alias. -/
def packetOf (p : Outgoing) (topic : TopicName) (aliasId : Option NonZeroU16) : Publish :=
  { p.1 with
    topic
    properties := p.1.properties.map fun properties =>
      { properties with messageExpiryInterval := p.2, topicAlias := aliasId } }

theorem aliasOf_packetOf (p : Outgoing) (topic : TopicName) (aliasId : Option NonZeroU16) :
    aliasOf (packetOf p topic aliasId) = if carries p then aliasId else none := by
  rw [aliasOf, packetOf, carries]
  cases p.1.properties <;> rfl

section

variable {s : ServerTopicAliases} {p : Outgoing}

theorem publish_known {aliasId : NonZeroU16} (pos : s.maxTopicAliases ≠ 0)
    (found : s.aliases.lookup p.1.topic = some aliasId) :
    publish (some s) p.1 p.2 = some (some s, packetOf p "" (some aliasId)) := by
  simp [publish, ServerTopicAliases.get, pos, found, packetOf]

theorem publish_full (pos : s.maxTopicAliases ≠ 0)
    (absent : s.aliases.lookup p.1.topic = none) (full : s.maxTopicAliases ≤ s.aliases.length) :
    publish (some s) p.1 p.2 = some (some s, packetOf p p.1.topic none) := by
  simp [publish, ServerTopicAliases.get, pos, absent, full, packetOf]

/-- A new topic takes the next alias.  The table has at most 65535 of them, so that there
is one. -/
theorem publish_new (absent : s.aliases.lookup p.1.topic = none)
    (room : s.aliases.length < s.maxTopicAliases) (bound : s.maxTopicAliases ≤ 65535) :
    ∃ aliasId : NonZeroU16, aliasId.val.toNat = s.aliases.length + 1 ∧
      publish (some s) p.1 p.2 = some
        (some { s with aliases := s.aliases.insert p.1.topic aliasId },
          packetOf p p.1.topic (some aliasId)) := by
  have value : (UInt16.ofNat (s.aliases.length + 1)).toNat = s.aliases.length + 1 := by
    rw [UInt16.toNat_ofNat']
    omega
  have nonzero : UInt16.ofNat (s.aliases.length + 1) ≠ 0 := by
    intro h
    rw [h] at value
    cases value
  refine ⟨⟨_, nonzero⟩, value, ?_⟩
  have number : NonZeroU16.new (UInt16.ofNat (s.aliases.length + 1)) = some ⟨_, nonzero⟩ :=
    dif_pos nonzero
  have got : s.get p.1.topic = some ({ s with aliases := s.aliases.insert p.1.topic ⟨_, nonzero⟩ },
      some p.1.topic, some ⟨_, nonzero⟩) := by
    rw [ServerTopicAliases.get, if_neg (by omega), absent]
    dsimp only
    rw [if_neg (by omega), number]
    rfl
  rw [publish, got]
  rfl

end

/-! ## Both tables after any publishes -/

/-- The number of different topics. -/
def distinct (ps : List Outgoing) : Nat := (ps.map fun p => p.1.topic).toFinset.card

/-- The first publish of a topic. -/
def firstOf (ps : List Outgoing) (topic : TopicName) : Option Outgoing :=
  ps.find? fun p => p.1.topic = topic

/-- The publishes before the first one of a topic. -/
def beforeFirst (ps : List Outgoing) (topic : TopicName) : List Outgoing :=
  ps.takeWhile fun p => p.1.topic ≠ topic

/-- A topic is among the first `max` different topics. -/
def TakesAlias (max : UInt16) (ps : List Outgoing) (topic : TopicName) : Prop :=
  distinct (beforeFirst ps topic) < max.toNat

theorem firstOf_eq_none {ps : List Outgoing} {topic : TopicName} :
    firstOf ps topic = none ↔ topic ∉ ps.map fun p => p.1.topic := by
  rw [firstOf, List.find?_eq_none, List.mem_map]
  simp

theorem distinct_append (ps : List Outgoing) (p : Outgoing) :
    distinct (ps ++ [p]) = if (firstOf ps p.1.topic).isSome then distinct ps else distinct ps + 1 := by
  have set : ((ps ++ [p]).map fun p => p.1.topic).toFinset =
      insert p.1.topic (ps.map fun p => p.1.topic).toFinset := by
    rw [List.map_append, List.toFinset_append]
    simp [Finset.union_comm]
  rw [distinct, set]
  cases h : firstOf ps p.1.topic with
  | none =>
      have fresh := firstOf_eq_none.mp h
      rw [Finset.card_insert_of_notMem (by rwa [List.mem_toFinset])]
      rfl
  | some first =>
      have seen : p.1.topic ∈ ps.map fun p => p.1.topic := by
        by_contra absent
        rw [firstOf_eq_none.mpr absent] at h
        cases h
      rw [Finset.insert_eq_of_mem (by rwa [List.mem_toFinset])]
      rfl

theorem firstOf_append (ps : List Outgoing) (p : Outgoing) (topic : TopicName) :
    firstOf (ps ++ [p]) topic =
      (firstOf ps topic).or (if p.1.topic = topic then some p else none) := by
  rw [firstOf, List.find?_append, List.find?_singleton]
  simp [firstOf]

theorem beforeFirst_append {ps : List Outgoing} {topic : TopicName} {first : Outgoing}
    (h : firstOf ps topic = some first) (p : Outgoing) :
    beforeFirst (ps ++ [p]) topic = beforeFirst ps topic := by
  rw [beforeFirst, List.takeWhile_append, if_neg]
  · rfl
  · intro whole
    have all := List.takeWhile_eq_self_iff.mp (List.Sublist.eq_of_length
      (List.takeWhile_sublist _) whole)
    have found := all first (List.mem_of_find?_eq_some h)
    have same := List.find?_some h
    simp at found same
    exact found same

theorem beforeFirst_append_self {ps : List Outgoing} {p : Outgoing}
    (h : firstOf ps p.1.topic = none) : beforeFirst (ps ++ [p]) p.1.topic = ps := by
  rw [beforeFirst, List.takeWhile_append_of_pos]
  · simp
  · intro q hq
    simpa using List.find?_eq_none.mp h q hq

/-- What the tables of both ends hold after some publishes: the sender has an alias for each of the
first `max` different topics; the receiver knows it if the first publish of the topic could carry
it. -/
structure Tables (max : UInt16) (ps : List Outgoing) (s : ServerTopicAliases)
    (known : Assoc UInt16 TopicName) : Prop where
  max_eq : s.maxTopicAliases = max.toNat
  keys : s.aliases.NodupKeys
  size : s.aliases.length = min max.toNat (distinct ps)
  range : ∀ t a, s.aliases.lookup t = some a → a.val.toNat ≤ s.aliases.length
  inj : ∀ t t' a, s.aliases.lookup t = some a → s.aliases.lookup t' = some a → t = t'
  assigned : ∀ t, (∃ a, s.aliases.lookup t = some a) ↔
    ∃ p, firstOf ps t = some p ∧ TakesAlias max ps t
  taught : ∀ t a p, s.aliases.lookup t = some a → firstOf ps t = some p →
    (known.lookup a.val = some t ↔ carries p = true ∧ t ≠ "")
  learned : ∀ t a, known.lookup a = some t → ∃ h, s.aliases.lookup t = some ⟨a, h⟩

theorem distinct_beforeFirst_le (ps : List Outgoing) (topic : TopicName) :
    distinct (beforeFirst ps topic) ≤ distinct ps := by
  refine Finset.card_le_card fun t ht => ?_
  rw [List.mem_toFinset] at ht ⊢
  exact ((List.takeWhile_sublist _).map _).subset ht

theorem firstOf_append_of_ne {ps : List Outgoing} {p : Outgoing} {topic : TopicName}
    (ne : topic ≠ p.1.topic) : firstOf (ps ++ [p]) topic = firstOf ps topic := by
  rw [firstOf_append, if_neg (Ne.symm ne), Option.or_none]

theorem firstOf_append_of_some {ps : List Outgoing} {topic : TopicName} {first : Outgoing}
    (h : firstOf ps topic = some first) (p : Outgoing) :
    firstOf (ps ++ [p]) topic = some first := by
  rw [firstOf_append, h]
  rfl

/-- A publish of a topic that was published before takes no new place. -/
theorem takes_append_of_seen {max : UInt16} {ps : List Outgoing} {p : Outgoing}
    (seen : firstOf ps p.1.topic ≠ none) (t : TopicName) :
    (∃ q, firstOf (ps ++ [p]) t = some q ∧ TakesAlias max (ps ++ [p]) t) ↔
      ∃ q, firstOf ps t = some q ∧ TakesAlias max ps t := by
  cases h : firstOf ps t with
  | none =>
      have ne : t ≠ p.1.topic := by
        rintro rfl
        exact seen h
      rw [firstOf_append_of_ne ne, h]
      simp
  | some first => rw [firstOf_append_of_some h, TakesAlias, TakesAlias, beforeFirst_append h]

/-- A publish of another topic takes no place of this one. -/
theorem takes_append_of_ne {max : UInt16} {ps : List Outgoing} {p : Outgoing} {t : TopicName}
    (ne : t ≠ p.1.topic) :
    (∃ q, firstOf (ps ++ [p]) t = some q ∧ TakesAlias max (ps ++ [p]) t) ↔
      ∃ q, firstOf ps t = some q ∧ TakesAlias max ps t := by
  rw [firstOf_append_of_ne ne]
  refine exists_congr fun q => and_congr_right fun h => ?_
  rw [TakesAlias, TakesAlias, beforeFirst_append h]

section

variable {max : UInt16} {ps : List Outgoing} {s : ServerTopicAliases}
  {known : Assoc UInt16 TopicName} {p : Outgoing}

theorem learn_packetOf (topic : TopicName) (aliasId : NonZeroU16) :
    learn known (packetOf p topic (some aliasId)) =
      if carries p = true ∧ topic ≠ "" then known.insert aliasId.val topic else known := by
  rw [learn, aliasOf_packetOf]
  by_cases hc : carries p = true
  · by_cases ht : topic = "" <;> simp [hc, ht, packetOf]
  · simp [hc]

/-- What the client knows of the aliases after a publish with the alias. -/
theorem lookup_learn_packetOf (topic : TopicName) (aliasId : NonZeroU16) (a : UInt16) :
    (learn known (packetOf p topic (some aliasId))).lookup a =
      if a = aliasId.val ∧ carries p = true ∧ topic ≠ "" then some topic else known.lookup a := by
  rw [learn_packetOf]
  by_cases can : carries p = true ∧ topic ≠ ""
  · rw [if_pos can]
    have put := Assoc.lookup_put known aliasId.val a (some topic)
    exact put.trans (by simp [can.1, can.2])
  · rw [if_neg can, if_neg (fun h => can h.2)]

/-- A topic with an alias was published before, and what it taught stands. -/
theorem Tables.taught_append (tables : Tables max ps s known) {t : TopicName} {a : NonZeroU16}
    {q : Outgoing} (ha : s.aliases.lookup t = some a) (hq : firstOf (ps ++ [p]) t = some q) :
    known.lookup a.val = some t ↔ carries q = true ∧ t ≠ "" := by
  rcases (tables.assigned t).mp ⟨a, ha⟩ with ⟨q', hq', -⟩
  rw [firstOf_append_of_some hq'] at hq
  cases hq
  exact tables.taught t a _ ha hq'

/-- While there is room, a topic that was published before has its alias. -/
theorem Tables.fresh_of_room (tables : Tables max ps s known) {t : TopicName}
    (absent : s.aliases.lookup t = none) (room : s.aliases.length < s.maxTopicAliases) :
    firstOf ps t = none := by
  rw [Option.eq_none_iff_forall_ne_some]
  intro q hq
  have early : TakesAlias max ps t := by
    have before := distinct_beforeFirst_le ps t
    have size := tables.size
    rw [tables.max_eq] at room
    rw [TakesAlias]
    omega
  obtain ⟨a, ha⟩ := (tables.assigned t).mpr ⟨q, hq, early⟩
  rw [absent] at ha
  cases ha

/-- A publish of a topic that has an alias. -/
theorem Tables.repeated (tables : Tables max ps s known) {aliasId : NonZeroU16}
    (found : s.aliases.lookup p.1.topic = some aliasId) :
    Tables max (ps ++ [p]) s (learn known (packetOf p "" (some aliasId))) := by
  rcases (tables.assigned _).mp ⟨aliasId, found⟩ with ⟨first, hfirst, -⟩
  have seen : firstOf ps p.1.topic ≠ none := by simp [hfirst]
  rw [learn_packetOf, if_neg (fun h => h.2 rfl)]
  refine ⟨tables.max_eq, tables.keys, ?_, tables.range, tables.inj, fun t => ?_, fun t a q ha hq => ?_,
    tables.learned⟩
  · rw [distinct_append, hfirst]
    exact tables.size
  · rw [takes_append_of_seen seen]
    exact tables.assigned t
  · exact tables.taught_append ha hq

/-- A publish of a topic that finds the table full. -/
theorem Tables.full (tables : Tables max ps s known)
    (absent : s.aliases.lookup p.1.topic = none) (full : s.maxTopicAliases ≤ s.aliases.length) :
    Tables max (ps ++ [p]) s (learn known (packetOf p p.1.topic none)) := by
  have size := tables.size
  rw [tables.max_eq] at full
  have unchanged : learn known (packetOf p p.1.topic none) = known := by
    rw [learn, aliasOf_packetOf]
    cases carries p <;> rfl
  rw [unchanged]
  refine ⟨tables.max_eq, tables.keys, ?_, tables.range, tables.inj, fun t => ?_, fun t a q ha hq => ?_,
    tables.learned⟩
  · rw [distinct_append]
    split <;> omega
  · by_cases ht : t = p.1.topic
    · -- The topic comes behind `max` others.
      subst ht
      constructor
      · rintro ⟨a, ha⟩
        rw [absent] at ha
        cases ha
      · rintro ⟨q, hq, takes⟩
        cases h : firstOf ps p.1.topic with
        | some first =>
            rw [TakesAlias, beforeFirst_append h] at takes
            exact (tables.assigned _).mpr ⟨first, h, takes⟩
        | none =>
            rw [TakesAlias, beforeFirst_append_self h] at takes
            omega
    · rw [takes_append_of_ne ht]
      exact tables.assigned t
  · exact tables.taught_append ha hq

/-- The next alias is not in use. -/
theorem Tables.unused_next (tables : Tables max ps s known) {aliasId : NonZeroU16}
    (next : aliasId.val.toNat = s.aliases.length + 1) (t : TopicName) :
    s.aliases.lookup t ≠ some aliasId := by
  intro ht
  have := tables.range t aliasId ht
  omega

theorem Tables.unknown_next (tables : Tables max ps s known) {aliasId : NonZeroU16}
    (next : aliasId.val.toNat = s.aliases.length + 1) : known.lookup aliasId.val = none := by
  rw [Option.eq_none_iff_forall_ne_some]
  intro t ht
  rcases tables.learned t aliasId.val ht with ⟨nonzero, found⟩
  exact tables.unused_next next t found

/-- A publish of a topic that takes the next alias. -/
theorem Tables.new (tables : Tables max ps s known) {aliasId : NonZeroU16}
    (absent : s.aliases.lookup p.1.topic = none) (room : s.aliases.length < s.maxTopicAliases)
    (next : aliasId.val.toNat = s.aliases.length + 1) :
    Tables max (ps ++ [p]) { s with aliases := s.aliases.insert p.1.topic aliasId }
      (learn known (packetOf p p.1.topic (some aliasId))) := by
  have size := tables.size
  have fresh := tables.fresh_of_room absent room
  rw [tables.max_eq] at room
  have length : (s.aliases.insert p.1.topic aliasId).length = s.aliases.length + 1 := by
    have := tables.keys.length_insert p.1.topic aliasId
    simpa [absent] using this
  have lookup : ∀ t, (s.aliases.insert p.1.topic aliasId).lookup t =
      if t = p.1.topic then some aliasId else s.aliases.lookup t := fun t =>
    Assoc.lookup_put s.aliases p.1.topic t (some aliasId)
  have unused := tables.unused_next next
  have unknown := tables.unknown_next next
  refine ⟨tables.max_eq, tables.keys.insert _ _, ?_, fun t a ha => ?_, fun t t' a ha ha' => ?_,
    fun t => ?_, fun t a q ha hq => ?_, fun t a ha => ?_⟩
  · rw [distinct_append, fresh]
    dsimp only
    rw [length]
    simp only [Option.isSome_none, Bool.false_eq_true, if_false]
    omega
  · dsimp only at ha ⊢
    rw [lookup] at ha
    rw [length]
    split at ha
    · cases ha
      omega
    · have := tables.range t a ha
      omega
  · dsimp only at ha ha'
    rw [lookup] at ha ha'
    split at ha <;> split at ha'
    · rename_i ht ht'
      rw [ht, ht']
    · cases ha
      exact (unused t' ha').elim
    · cases ha'
      exact (unused t ha).elim
    · exact tables.inj t t' a ha ha'
  · dsimp only
    rw [lookup]
    by_cases ht : t = p.1.topic
    · subst ht
      rw [if_pos rfl]
      refine ⟨fun _ => ⟨p, ?_, ?_⟩, fun _ => ⟨aliasId, rfl⟩⟩
      · rw [firstOf_append, fresh, if_pos rfl]
        rfl
      · rw [TakesAlias, beforeFirst_append_self fresh]
        omega
    · rw [if_neg ht, takes_append_of_ne ht]
      exact tables.assigned t
  · dsimp only at ha
    rw [lookup] at ha
    rw [lookup_learn_packetOf]
    split at ha
    · rename_i ht
      subst ht
      cases ha
      rw [firstOf_append, fresh, if_pos rfl] at hq
      cases hq
      rw [unknown]
      by_cases can : carries p = true ∧ p.1.topic ≠ "" <;> simp [can]
    · rename_i ht
      rw [firstOf_append_of_ne ht] at hq
      have other : a.val ≠ aliasId.val := by
        intro same
        rw [Subtype.ext same] at ha
        exact unused t ha
      rw [if_neg (fun h => other h.1)]
      exact tables.taught t a q ha hq
  · dsimp only
    rw [lookup]
    rw [lookup_learn_packetOf] at ha
    split at ha
    · rename_i h
      cases ha
      rw [if_pos rfl]
      exact ⟨h.1 ▸ aliasId.property, congrArg some (Subtype.ext h.1.symm)⟩
    · rcases tables.learned t a ha with ⟨nonzero, before⟩
      refine ⟨nonzero, ?_⟩
      rw [if_neg]
      · exact before
      · intro same
        rw [same, absent] at before
        cases before

/-! ## Resolving the packets -/

/-- The publish can be resolved: its topic is not empty, and if the topic has an alias since
an earlier publish, that one and this one have properties. -/
def Resolves (max : UInt16) (ps : List Outgoing) (p : Outgoing) : Prop :=
  p.1.topic ≠ "" ∧ ∀ first, firstOf ps p.1.topic = some first → TakesAlias max ps p.1.topic →
    carries first = true ∧ carries p = true

/-- A packet with its topic and no alias. -/
theorem resolve_plain {aliasId : Option NonZeroU16}
    (plain : aliasOf (packetOf p p.1.topic aliasId) = none) :
    resolve max known (packetOf p p.1.topic aliasId) = some p.1.topic ↔ p.1.topic ≠ "" := by
  rw [resolve, plain]
  by_cases h : p.1.topic = "" <;> simp [h, packetOf]

/-- The packet of a topic that has an alias. -/
theorem Tables.resolve_repeated (tables : Tables max ps s known) {aliasId : NonZeroU16}
    (found : s.aliases.lookup p.1.topic = some aliasId) :
    resolve max known (packetOf p "" (some aliasId)) = some p.1.topic ↔ Resolves max ps p := by
  rcases (tables.assigned _).mp ⟨aliasId, found⟩ with ⟨first, hfirst, takes⟩
  have bound : ¬ aliasId.val > max := by
    have := tables.range _ _ found
    have := tables.size
    rw [gt_iff_lt, UInt16.lt_iff_toNat_lt]
    omega
  have iff : Resolves max ps p ↔ p.1.topic ≠ "" ∧ carries first = true ∧ carries p = true := by
    rw [Resolves, hfirst]
    simp [takes]
  rw [iff, resolve, aliasOf_packetOf]
  by_cases hc : carries p = true
  · simp only [hc, if_true, if_neg bound, packetOf, and_true]
    rw [tables.taught _ _ _ found hfirst, and_comm]
  · simp [hc, packetOf]

/-- The packet of a topic that has no alias yet. -/
theorem Tables.resolve_fresh (tables : Tables max ps s known)
    (absent : s.aliases.lookup p.1.topic = none) {aliasId : Option NonZeroU16}
    (next : ∀ a, aliasId = some a → a.val.toNat = s.aliases.length + 1 ∧ a.val.toNat ≤ max.toNat) :
    resolve max known (packetOf p p.1.topic aliasId) = some p.1.topic ↔ Resolves max ps p := by
  have iff : Resolves max ps p ↔ p.1.topic ≠ "" := by
    refine and_iff_left fun first hfirst takes => ?_
    rcases (tables.assigned _).mpr ⟨first, hfirst, takes⟩ with ⟨a, ha⟩
    rw [absent] at ha
    cases ha
  rw [iff]
  cases aliasId with
  | none => exact resolve_plain (by rw [aliasOf_packetOf, ite_self])
  | some a =>
      rcases next a rfl with ⟨isNext, le⟩
      have bound : ¬ a.val > max := by
        rw [gt_iff_lt, UInt16.lt_iff_toNat_lt]
        omega
      by_cases hc : carries p = true
      · rw [resolve, aliasOf_packetOf, if_pos hc]
        simp only [if_neg bound, packetOf]
        by_cases ht : p.1.topic = ""
        · simp [ht, tables.unknown_next isNext]
        · simp [ht]
      · exact resolve_plain (by rw [aliasOf_packetOf, if_neg hc])

end

/-- Sender and receiver are in step; a session with the maximum zero has no table. -/
def InStep (max : UInt16) (ps : List Outgoing) (known : Assoc UInt16 TopicName) :
    Option ServerTopicAliases → Prop
  | none => max.toNat = 0
  | some s => max.toNat ≠ 0 ∧ Tables max ps s known

section

variable {max : UInt16} {ps : List Outgoing} {known : Assoc UInt16 TopicName}
  {table : Option ServerTopicAliases}

theorem InStep.start (max : UInt16) : InStep max [] [] (serverTopicAliases max) := by
  rw [serverTopicAliases]
  split
  · rename_i pos
    rw [gt_iff_lt, UInt16.lt_iff_toNat_lt] at pos
    refine ⟨Nat.ne_of_gt pos, rfl, List.nodup_nil, ?_, ?_, ?_, ?_, ?_, ?_⟩ <;>
      simp [distinct, firstOf]
  · rename_i zero
    rw [gt_iff_lt, UInt16.lt_iff_toNat_lt] at zero
    exact Nat.eq_zero_of_not_pos zero

/-- One publish keeps both ends in step. -/
theorem InStep.publish (inStep : InStep max ps known table) (p : Outgoing) :
    ∃ table' sent, TopicAliases.publish table p.1 p.2 = some (table', sent) ∧
      InStep max (ps ++ [p]) (learn known sent) table' ∧
      (resolve max known sent = some p.1.topic ↔ Resolves max ps p) := by
  cases table with
  | none =>
      refine ⟨none, packetOf p p.1.topic none, rfl, inStep, ?_⟩
      have never : ¬ TakesAlias max ps p.1.topic := by
        rw [TakesAlias, show max.toNat = 0 from inStep]
        exact Nat.not_lt_zero _
      rw [resolve_plain (by rw [aliasOf_packetOf, ite_self]), Resolves]
      simp [never]
  | some s =>
      rcases inStep with ⟨pos, tables⟩
      have pos' : s.maxTopicAliases ≠ 0 := tables.max_eq ▸ pos
      cases found : s.aliases.lookup p.1.topic with
      | some aliasId =>
          exact ⟨_, _, publish_known pos' found, ⟨pos, tables.repeated found⟩,
            tables.resolve_repeated found⟩
      | none =>
          by_cases full : s.maxTopicAliases ≤ s.aliases.length
          · exact ⟨_, _, publish_full pos' found full, ⟨pos, tables.full found full⟩,
              tables.resolve_fresh found nofun⟩
          · have room := Nat.lt_of_not_le full
            have bound : s.maxTopicAliases ≤ 65535 := by
              have := max.toNat_lt
              have := tables.max_eq
              omega
            rcases publish_new (p := p) found room bound with ⟨aliasId, next, sends⟩
            refine ⟨_, _, sends, ⟨pos, tables.new found room next⟩, tables.resolve_fresh found ?_⟩
            rintro a ⟨⟩
            have := tables.max_eq
            omega

/-- The packets of further publishes resolve when each of them does. -/
theorem InStep.resolved_iff (inStep : InStep max ps known table) (qs : List Outgoing) :
    (∃ sent, publishAll table qs = some sent ∧
        receiveAll max known sent = some (qs.map fun q => q.1.topic)) ↔
      ∀ before q after, qs = before ++ q :: after → Resolves max (ps ++ before) q := by
  induction qs generalizing ps known table with
  | nil => simp [publishAll, receiveAll]
  | cons p qs ih =>
      rcases inStep.publish p with ⟨table', packet, sends, inStep', resolves⟩
      have all : (∀ before q after, p :: qs = before ++ q :: after → Resolves max (ps ++ before) q) ↔
          Resolves max ps p ∧ ∀ before q after, qs = before ++ q :: after →
            Resolves max (ps ++ [p] ++ before) q := by
        constructor
        · intro h
          refine ⟨by simpa using h [] p qs rfl, fun before q after split => ?_⟩
          simpa using h (p :: before) q after (by rw [split]; rfl)
        · rintro ⟨here, later⟩ before q after split
          cases before with
          | nil =>
              cases split
              simpa using here
          | cons b before =>
              cases split
              simpa using later before q after rfl
      rw [all, ← resolves, ← ih inStep']
      constructor
      · rintro ⟨sent, hsent, received⟩
        simp only [publishAll, sends, Option.bind_eq_bind, Option.bind_some,
          Option.bind_eq_some_iff, Option.pure_def, Option.some.injEq] at hsent
        rcases hsent with ⟨rest, hrest, rfl⟩
        simp only [receiveAll, Option.bind_eq_bind, Option.bind_eq_some_iff, Option.pure_def,
          Option.some.injEq, List.map_cons, List.cons.injEq] at received
        rcases received with ⟨topic, htopic, topics, htopics, rfl, rfl⟩
        exact ⟨htopic, rest, hrest, htopics⟩
      · rintro ⟨here, rest, hrest, received⟩
        refine ⟨packet :: rest, ?_, ?_⟩
        · simp [publishAll, sends, hrest]
        · simp [receiveAll, here, received]

end

/-- The receiver resolves every publish of a session when no topic is empty, and every
publish of a topic that takes an alias and is published again has properties: the first
one, which assigns the alias, and all later ones, which only have the alias. -/
theorem aliases_resolve_iff (max : UInt16) (ps : List Outgoing) :
    Resolved max ps ↔
      (∀ p ∈ ps, p.1.topic ≠ "") ∧
      ∀ before p after, ps = before ++ p :: after →
        ∀ first, firstOf before p.1.topic = some first → TakesAlias max before p.1.topic →
          carries first = true ∧ carries p = true := by
  rw [Resolved, (InStep.start max).resolved_iff ps]
  simp only [List.nil_append, Resolves]
  constructor
  · intro h
    refine ⟨fun p hp => ?_, fun before p after split => (h before p after split).2⟩
    rcases List.append_of_mem hp with ⟨before, after, split⟩
    exact (h before p after split).1
  · rintro ⟨named, can⟩ before p after split
    exact ⟨named p (by simp [split]), can before p after split⟩

/-- A publish of a v3 publisher. -/
def plainPublish (topic : TopicName) : Outgoing :=
  ({ dup := false, retain := false, qos := .atMostOnce, topic, packetId := none, payload := [],
     properties := none }, none)

/-- A topic that is published twice without properties: the second packet has neither a topic
nor an alias. -/
theorem alias_lost_without_properties :
    ¬ Resolved 10 [plainPublish "a/b", plainPublish "a/b"] := by
  rintro ⟨sent, sends, received⟩
  cases sends
  cases received

end OxiMqtt.Session.TopicAliases

import OxiMqtt.Lib.Machine
import OxiMqtt.Router.Matches

/-!
# Concurrent calls of the router

Clients call `add` and `remove` at the same time.  An access to the tree or to the
relation map is one step; between the steps of a call, other clients take theirs.  `Pc`
is what a client still has to do in its call.

`remove` finds out under one guard that a filter has no relations left, and deletes the
entry and the filter later.  `orderly` says that this is still true when it does: the
entry is still empty when it is deleted, and the filter has no relation, and nobody is
about to insert one, when it is taken from the tree.

* `Inv.step`: what every orderly step keeps.
* `settled_of_orderly`: after an orderly run the router is consistent when all calls have
  finished.
* `remove_loses_subscription`: a run that is not orderly and loses a subscription.
-/

namespace OxiMqtt.Router.Concurrent

open Collections

/-! ## The machine -/

/-- What is left of a call. -/
inductive Pc : Type
  | insertRelation (topicFilter : TopicFilter) (id : Id) (opts : SubscriptionOptions)
  | countRelation
  | dropFilter (topicFilter : TopicFilter)
  | uncountTopic (topicFilter : TopicFilter)
  | removeTopic (topicFilter : TopicFilter)
  deriving DecidableEq, Repr

namespace Pc

/-- The client is about to insert a relation of the filter. -/
def inserts (topicFilter : TopicFilter) : Pc → Bool
  | insertRelation f _ _ => f = topicFilter
  | _ => false

/-- The client is about to take the filter from the tree. -/
def prunes (topicFilter : TopicFilter) : Pc → Bool
  | uncountTopic f => f = topicFilter
  | removeTopic f => f = topicFilter
  | _ => false

/-- The client is about to delete the entry of the filter. -/
def drops (topicFilter : TopicFilter) : Pc → Bool
  | dropFilter f => f = topicFilter
  | _ => false

/-- Relations that are inserted and not counted. -/
def uncountedRelations : Pc → Nat
  | countRelation => 1
  | _ => 0

/-- Filters that are deleted and still counted. -/
def countedTopics : Pc → Nat
  | uncountTopic _ => 1
  | _ => 0

end Pc

/-- The router, the clients in a call, and, as a record of the run, the relation of every
client whose last accepted call at a filter was an `add`. -/
structure State : Type where
  router : DefaultRouter := {}
  busy : Assoc ClientId Pc := []
  lastAdd : Holdings := fun _ _ => none

/-- A client starts a call, or goes on with it. -/
inductive Action : Type
  | call (call : Call)
  | step (client : ClientId)
  deriving DecidableEq, Repr

/-- The first step of a call.  An `add` of a text that is no filter is refused. -/
def start (s : State) : Call → State
  | .add topicFilter id opts =>
      match Topic.fromStr topicFilter with
      | .error _ => s
      | .ok topic =>
          { router := s.router.insertTopic topic
            busy := s.busy.put id.clientId (some (.insertRelation topicFilter id opts))
            lastAdd := s.lastAdd.set topicFilter id.clientId (some (id, opts)) }
  | .remove topicFilter id =>
      let (router, res) := s.router.takeRelation topicFilter id
      { router
        busy := s.busy.put id.clientId
          (match res with
          | some (true, _) => some (.dropFilter topicFilter)
          | _ => none)
        lastAdd := s.lastAdd.set topicFilter id.clientId none }

/-- A later step of a call. -/
def proceed (s : State) (client : ClientId) : Pc → State
  | .insertRelation topicFilter id opts =>
      let (router, isNew) := s.router.insertRelation topicFilter id opts
      { s with router, busy := s.busy.put client (if isNew then some .countRelation else none) }
  | .countRelation =>
      { s with router := s.router.countRelation, busy := s.busy.put client none }
  | .dropFilter topicFilter =>
      let (router, dropped) := s.router.dropFilter topicFilter
      { s with
        router
        busy := s.busy.put client
          (some (if dropped then .uncountTopic topicFilter else .removeTopic topicFilter)) }
  | .uncountTopic topicFilter =>
      { s with
        router := s.router.uncountTopic
        busy := s.busy.put client (some (.removeTopic topicFilter)) }
  | .removeTopic topicFilter =>
      match Topic.fromStr topicFilter with
      | .error _ => { s with busy := s.busy.put client none }
      | .ok topic =>
          { s with router := s.router.removeTopic topic, busy := s.busy.put client none }

/-- The client that takes the first step of a call. -/
def callerOf : Call → ClientId
  | .add _ id _ => id.clientId
  | .remove _ id => id.clientId

def step (s : State) : Action → Option State
  | .call call => if (s.busy.lookup (callerOf call)).isNone then some (start s call) else none
  | .step client => (s.busy.lookup client).map (proceed s client)

/-- The step finds the filter as the call left it: the entry that it deletes is still empty,
and the filter it takes from the tree has no relations and nobody is inserting one. -/
def orderly (s : State) : Action → Bool
  | .call _ => true
  | .step client =>
      match s.busy.lookup client with
      | some (.dropFilter topicFilter) =>
          (s.router.relations.lookup topicFilter).all fun rels => rels.isEmpty
      | some (.removeTopic topicFilter) =>
          (s.router.relations.lookup topicFilter).isNone &&
            s.busy.all fun e => !e.2.inserts topicFilter
      | _ => true

/-! ## The invariant -/

/-- The number of pairs of a filter and a client in the relation map. -/
def pairs (r : DefaultRouter) : Nat := r.relations.weight List.length

/-- Some client is at such a place. -/
def Someone (busy : Assoc ClientId Pc) (p : Pc → Bool) : Prop :=
  ∃ c pc, busy.lookup c = some pc ∧ p pc = true

namespace Someone

variable {busy : Assoc ClientId Pc} {p : Pc → Bool}

theorem self {c : ClientId} {pc : Pc} (h : p pc = true) : Someone (busy.put c (some pc)) p :=
  ⟨c, pc, by rw [Assoc.lookup_put, if_pos rfl], h⟩

/-- A step of a client that is not at such a place. -/
theorem put {c : ClientId} {o : Option Pc} (h : Someone busy p)
    (other : ∀ pc, busy.lookup c = some pc → p pc = false) : Someone (busy.put c o) p := by
  rcases h with ⟨c', pc, hpc, hp⟩
  have ne : c' ≠ c := by
    rintro rfl
    rw [other pc hpc] at hp
    cases hp
  exact ⟨c', pc, by rw [Assoc.lookup_put, if_neg ne]; exact hpc, hp⟩

theorem put_idle {c : ClientId} {o : Option Pc} (h : Someone busy p)
    (idle : busy.lookup c = none) : Someone (busy.put c o) p :=
  h.put fun pc hpc => by rw [idle] at hpc; cases hpc

theorem put_at {c : ClientId} {o : Option Pc} {pc : Pc} (h : Someone busy p)
    (at_ : busy.lookup c = some pc) (other : p pc = false) : Someone (busy.put c o) p := by
  refine h.put fun pc' hpc => ?_
  rw [at_] at hpc
  cases hpc
  exact other

theorem of_put {c : ClientId} {o : Option Pc} (h : Someone (busy.put c o) p) :
    (∃ pc, o = some pc ∧ p pc = true) ∨ Someone busy p := by
  rcases h with ⟨c', pc, hpc, hp⟩
  rw [Assoc.lookup_put] at hpc
  split at hpc
  · exact .inl ⟨pc, hpc, hp⟩
  · exact .inr ⟨c', pc, hpc, hp⟩

/-- The step does not bring the client to such a place. -/
theorem of_put_of_not {c : ClientId} {o : Option Pc} (h : Someone (busy.put c o) p)
    (other : ∀ pc, o = some pc → p pc = false) : Someone busy p := by
  rcases h.of_put with ⟨pc, hpc, hp⟩ | h
  · rw [other pc hpc] at hp
    cases hp
  · exact h

end Someone

section

variable {busy : Assoc ClientId Pc} {c c' : ClientId} {pc pc' : Pc} {o : Option Pc}

/-- Where another client is does not change. -/
theorem lookup_put_of_ne_pc (h : busy.lookup c' = some pc') (at_ : busy.lookup c = some pc)
    (ne : pc' ≠ pc) : (busy.put c o).lookup c' = some pc' := by
  rw [Assoc.lookup_put, if_neg]
  · exact h
  · rintro rfl
    rw [at_] at h
    exact ne (Option.some.inj h).symm

theorem lookup_put_of_idle (h : busy.lookup c' = some pc') (idle : busy.lookup c = none) :
    (busy.put c o).lookup c' = some pc' := by
  rw [Assoc.lookup_put, if_neg]
  · exact h
  · rintro rfl
    rw [idle] at h
    cases h

/-- A step between places that weigh nothing. -/
theorem weight_put_of_zero (keys : busy.NodupKeys) {w : Pc → Nat}
    (before : ∀ pc, busy.lookup c = some pc → w pc = 0) (after : ∀ pc, o = some pc → w pc = 0) :
    (busy.put c o).weight w = busy.weight w := by
  have sum := keys.weight_put w c o
  have left : ((busy.lookup c).map w).getD 0 = 0 := by
    cases h : busy.lookup c with
    | none => rfl
    | some pc => exact before pc h
  have entered : (o.map w).getD 0 = 0 := by
    cases o with
    | none => rfl
    | some pc => exact after pc rfl
  omega

theorem weight_put_of_idle (keys : busy.NodupKeys) {w : Pc → Nat} (idle : busy.lookup c = none)
    (after : ∀ pc, o = some pc → w pc = 0) : (busy.put c o).weight w = busy.weight w :=
  weight_put_of_zero keys (fun pc h => by rw [idle] at h; cases h) after

theorem weight_put_at (keys : busy.NodupKeys) {w : Pc → Nat} (at_ : busy.lookup c = some pc)
    (before : w pc = 0) (after : ∀ pc, o = some pc → w pc = 0) :
    (busy.put c o).weight w = busy.weight w := by
  refine weight_put_of_zero keys (fun pc' h => ?_) after
  rw [at_] at h
  cases h
  exact before

end

/-- What holds between the steps of the calls. -/
structure Inv (router : DefaultRouter) (busy : Assoc ClientId Pc) (lastAdd : Holdings) : Prop where
  keys : router.relations.NodupKeys
  clients : ∀ f rels, router.relations.lookup f = some rels → rels.NodupKeys
  parsed : ∀ f rels, router.relations.lookup f = some rels → Parses f
  busyKeys : busy.NodupKeys
  /-- An `add` has parsed its filter, and it is the last call of its client there. -/
  inserting : ∀ c f id opts, busy.lookup c = some (.insertRelation f id opts) →
    Parses f ∧ id.clientId = c ∧ lastAdd f c = some (id, opts)
  /-- What has a relation, or is about to have one, is in the tree. -/
  stored : ∀ f topic, Topic.fromStr f = .ok topic →
    ((∃ rels, router.relations.lookup f = some rels ∧ rels ≠ []) ∨
      Someone busy (Pc.inserts f)) → () ∈ router.topics.valuesAt topic.levels
  /-- What is in the tree has a relation, is about to have one, or is about to leave. -/
  needed : ∀ topic : Topic, () ∈ router.topics.valuesAt topic.levels →
    ∃ f, Topic.fromStr f = .ok topic ∧ ((∃ rels, router.relations.lookup f = some rels) ∨
      Someone busy (Pc.inserts f) ∨ Someone busy (Pc.prunes f))
  /-- An empty entry is about to be deleted. -/
  dropping : ∀ f, router.relations.lookup f = some [] → Someone busy (Pc.drops f)
  /-- The last `add` of a client is in the map, or about to be. -/
  present : ∀ f c rel, lastAdd f c = some rel → router.held f c = some rel ∨
    busy.lookup c = some (.insertRelation f rel.1 rel.2)
  topicsCount : router.topicsCount.count =
    router.relations.length + busy.weight Pc.countedTopics
  relationsCount : router.relationsCount.count + busy.weight Pc.uncountedRelations =
    pairs router

/-- A step that brings its client to no insertion leaves those that others are about to make. -/
theorem Inv.inserting_put {router : DefaultRouter} {busy : Assoc ClientId Pc} {lastAdd : Holdings}
    (inv : Inv router busy lastAdd) {c : ClientId} {next : Option Pc}
    (other : ∀ pc, next = some pc → ∀ f id opts, pc ≠ .insertRelation f id opts) :
    ∀ c' f id opts, (busy.put c next).lookup c' = some (.insertRelation f id opts) →
      Parses f ∧ id.clientId = c' ∧ lastAdd f c' = some (id, opts) := by
  intro c' f id opts h
  rw [Assoc.lookup_put] at h
  split at h
  · exact absurd rfl (other _ h f id opts)
  · exact inv.inserting c' f id opts h

/-- What an idle client does last leaves the insertions that others are about to make. -/
theorem Inv.inserting_set {router : DefaultRouter} {busy : Assoc ClientId Pc} {lastAdd : Holdings}
    (inv : Inv router busy lastAdd) {c c' : ClientId} {f f' : TopicFilter} {id : Id}
    {opts : SubscriptionOptions} (idle : busy.lookup c = none) (last : Option Relation)
    (h : busy.lookup c' = some (.insertRelation f' id opts)) :
    Parses f' ∧ id.clientId = c' ∧ lastAdd.set f c last f' c' = some (id, opts) := by
  rcases inv.inserting c' f' id opts h with ⟨parsed, same, added⟩
  refine ⟨parsed, same, ?_⟩
  rw [Holdings.set_apply, if_neg]
  · exact added
  · rintro ⟨-, rfl⟩
    rw [idle] at h
    cases h

/-! ## The counters of the router -/

section

variable {r : DefaultRouter}

/-- An inserted relation is counted by its filter at once, and by the client later. -/
theorem insertRelation_counts (keys : r.relations.NodupKeys)
    (clients : ∀ f rels, r.relations.lookup f = some rels → rels.NodupKeys) (f : TopicFilter) (id : Id)
    (opts : SubscriptionOptions) :
    (r.insertRelation f id opts).1.topicsCount.count + r.relations.length =
        r.topicsCount.count + (r.insertRelation f id opts).1.relations.length ∧
      (r.insertRelation f id opts).1.relationsCount = r.relationsCount ∧
      pairs (r.insertRelation f id opts).1 =
        pairs r + if (r.insertRelation f id opts).2 then 1 else 0 := by
  have length := fun x => keys.length_insert f x
  have weight := fun x => keys.weight_insert List.length f x
  unfold DefaultRouter.insertRelation
  cases hf : r.relations.lookup f with
  | none =>
      simp only [hf, Option.isSome_none, Bool.false_eq_true, if_false, Nat.add_zero,
        Option.map_none, Option.getD_none] at length weight
      refine ⟨?_, rfl, ?_⟩
      · simp only [length, Counter.inc]
        omega
      · simp only [pairs, weight, if_true]
        rfl
  | some rels =>
      have inner := (clients f rels hf).length_insert id.clientId (id, opts)
      have outer := weight (rels.insert id.clientId (id, opts))
      simp only [hf, Option.isSome_some, if_true, Nat.add_right_cancel_iff] at length
      simp only [hf, Option.map_some, Option.getD_some] at outer
      refine ⟨?_, rfl, ?_⟩
      · simp only [length]
      · simp only [pairs]
        rcases Option.eq_none_or_eq_some (rels.lookup id.clientId) with hc | ⟨rel, hc⟩
        · simp only [hc, Option.isSome_none, Bool.false_eq_true, if_false] at inner
          simp only [hc, Option.isNone_none, if_true]
          omega
        · simp only [hc, Option.isSome_some, if_true] at inner
          simp only [hc, Option.isNone_some, Bool.false_eq_true, if_false]
          omega

/-- A relation that is taken is uncounted at once. -/
theorem takeRelation_counts (keys : r.relations.NodupKeys) {f : TopicFilter} {id : Id}
    {rels : Assoc ClientId Relation} {rel : Relation} (hf : r.relations.lookup f = some rels)
    (clients : rels.NodupKeys) (hc : rels.lookup id.clientId = some rel) :
    (r.relations.insert f (rels.erase id.clientId)).length = r.relations.length ∧
      Assoc.weight List.length (r.relations.insert f (rels.erase id.clientId)) + 1 = pairs r := by
  have length := keys.length_insert f (rels.erase id.clientId)
  have weight := keys.weight_insert List.length f (rels.erase id.clientId)
  have inner := clients.length_erase id.clientId
  simp only [hf, hc, Option.isSome_some, if_true, Option.map_some, Option.getD_some]
    at length weight inner
  refine ⟨by omega, ?_⟩
  rw [pairs]
  omega

end

/-! ## One step -/

section

variable {router : DefaultRouter} {busy : Assoc ClientId Pc} {lastAdd : Holdings}

theorem Inv.startAdd (inv : Inv router busy lastAdd) {f : TopicFilter} {id : Id}
    {topic : Topic} (parsed : Topic.fromStr f = .ok topic) (idle : busy.lookup id.clientId = none)
    (opts : SubscriptionOptions) :
    Inv (router.insertTopic topic) (busy.put id.clientId (some (.insertRelation f id opts)))
      (lastAdd.set f id.clientId (some (id, opts))) where
  keys := inv.keys
  clients := inv.clients
  parsed := inv.parsed
  busyKeys := inv.busyKeys.put _ _
  inserting c f' id' opts' h := by
    rw [Assoc.lookup_put] at h
    split at h
    · rename_i hc
      cases h
      exact ⟨⟨topic, parsed⟩, hc.symm, by rw [Holdings.set_apply, if_pos ⟨rfl, hc⟩]⟩
    · exact inv.inserting_set idle _ h
  stored f' topic' parsed' h := by
    change () ∈ (router.topics.insert topic ()).1.valuesAt topic'.levels
    rw [Node.mem_valuesAt_insert]
    rcases h with rel | someone
    · exact .inr (inv.stored f' topic' parsed' (.inl rel))
    · rcases someone.of_put with ⟨pc, hpc, hf⟩ | someone
      · cases hpc
        have same : f = f' := by simpa [Pc.inserts] using hf
        rw [← same, parsed] at parsed'
        exact .inl ⟨(Except.ok.inj parsed').symm, rfl⟩
      · exact .inr (inv.stored f' topic' parsed' (.inr someone))
  needed topic' h := by
    change () ∈ (router.topics.insert topic ()).1.valuesAt topic'.levels at h
    rw [Node.mem_valuesAt_insert] at h
    rcases h with ⟨rfl, -⟩ | h
    · exact ⟨f, parsed, .inr (.inl (.self (by simp [Pc.inserts])))⟩
    · rcases inv.needed topic' h with ⟨f', parsed', rel | someone | someone⟩
      · exact ⟨f', parsed', .inl rel⟩
      · exact ⟨f', parsed', .inr (.inl (someone.put_idle idle))⟩
      · exact ⟨f', parsed', .inr (.inr (someone.put_idle idle))⟩
  dropping f' h := (inv.dropping f' h).put_idle idle
  present f' c rel h := by
    rw [Holdings.set_apply] at h
    split at h
    · rename_i same
      cases h
      exact .inr (by rw [same.1, same.2, Assoc.lookup_put, if_pos rfl])
    · refine (inv.present f' c rel h).imp_right fun inserting => ?_
      exact lookup_put_of_idle inserting idle
  topicsCount := by
    rw [weight_put_of_idle inv.busyKeys idle fun pc hpc => by cases hpc; rfl]
    exact inv.topicsCount
  relationsCount := by
    rw [weight_put_of_idle inv.busyKeys idle fun pc hpc => by cases hpc; rfl]
    exact inv.relationsCount

/-- A `remove` that finds no relation of its id. -/
theorem Inv.startRemoveNone (inv : Inv router busy lastAdd) (f : TopicFilter) {c : ClientId}
    (idle : busy.lookup c = none) :
    Inv router (busy.put c none) (lastAdd.set f c none) := by
  have same : ∀ c', (busy.put c none).lookup c' = busy.lookup c' := by
    intro c'
    rw [Assoc.lookup_put]
    split
    · rename_i hc
      rw [hc, idle]
    · rfl
  have someone : ∀ p, Someone (busy.put c none) p ↔ Someone busy p := fun p =>
    ⟨fun h => h.of_put_of_not fun pc hpc => (by cases hpc), fun h => h.put_idle idle⟩
  have weight : ∀ w, (busy.put c none).weight w = busy.weight w := fun w =>
    weight_put_of_idle inv.busyKeys idle fun pc hpc => by cases hpc
  refine ⟨inv.keys, inv.clients, inv.parsed, inv.busyKeys.put _ _, ?_, ?_, ?_, ?_, ?_, ?_, ?_⟩
  · intro c' f' id opts h
    rw [same] at h
    exact inv.inserting_set idle _ h
  · intro f' topic parsed h
    rw [someone] at h
    exact inv.stored f' topic parsed h
  · intro topic h
    simp only [someone]
    exact inv.needed topic h
  · intro f' h
    rw [someone]
    exact inv.dropping f' h
  · intro f' c' rel h
    rw [Holdings.set_apply] at h
    split at h
    · cases h
    · rw [same]
      exact inv.present f' c' rel h
  · rw [weight]
    exact inv.topicsCount
  · rw [weight]
    exact inv.relationsCount

/-- A `remove` that takes the relation of its id. -/
theorem Inv.startRemoveSome (inv : Inv router busy lastAdd) {f : TopicFilter} {id : Id}
    {rels : Assoc ClientId Relation} {opts : SubscriptionOptions}
    (idle : busy.lookup id.clientId = none) (hf : router.relations.lookup f = some rels)
    (hrel : rels.lookup id.clientId = some (id, opts)) :
    Inv
      { router with
        relations := router.relations.insert f (rels.erase id.clientId)
        relationsCount := router.relationsCount.dec }
      (busy.put id.clientId (if (rels.erase id.clientId).isEmpty then some (.dropFilter f) else none))
      (lastAdd.set f id.clientId none) := by
  have lookup : ∀ f', (router.relations.insert f (rels.erase id.clientId)).lookup f' =
      if f' = f then some (rels.erase id.clientId) else router.relations.lookup f' := fun f' =>
    Assoc.lookup_put router.relations f f' (some (rels.erase id.clientId))
  have notInserts : ∀ f' pc,
      (if (rels.erase id.clientId).isEmpty then some (Pc.dropFilter f) else none) = some pc →
        pc.inserts f' = false := by
    intro f' pc hpc
    split at hpc
    · cases hpc
      rfl
    · cases hpc
  have weightless : ∀ w : Pc → Nat, w (.dropFilter f) = 0 →
      ∀ pc, (if (rels.erase id.clientId).isEmpty then some (Pc.dropFilter f) else none) = some pc →
        w pc = 0 := by
    intro w hw pc hpc
    split at hpc
    · cases hpc
      exact hw
    · cases hpc
  rcases takeRelation_counts inv.keys hf (inv.clients f rels hf) hrel with ⟨length, total⟩
  refine ⟨inv.keys.insert _ _, ?_, ?_, inv.busyKeys.put _ _, ?_, ?_, ?_, ?_, ?_, ?_, ?_⟩
  · intro f' rels' h
    rw [lookup] at h
    split at h
    · cases h
      exact (inv.clients f rels hf).erase _
    · exact inv.clients f' rels' h
  · intro f' rels' h
    rw [lookup] at h
    split at h
    · rename_i heq
      exact heq ▸ inv.parsed f rels hf
    · exact inv.parsed f' rels' h
  · intro c f' id' opts' h
    rw [Assoc.lookup_put] at h
    split at h
    · have := notInserts f' _ h
      simp [Pc.inserts] at this
    · exact inv.inserting_set idle _ h
  · intro f' topic parsed h
    refine inv.stored f' topic parsed ?_
    rcases h with ⟨rels', h, nonempty⟩ | someone
    · rw [lookup] at h
      split at h
      · rename_i heq
        refine .inl ⟨rels, heq ▸ hf, ?_⟩
        rintro rfl
        cases hrel
      · exact .inl ⟨rels', h, nonempty⟩
    · exact .inr (someone.of_put_of_not (notInserts f'))
  · intro topic h
    rcases inv.needed topic h with ⟨f', parsed, ⟨rels', rel⟩ | someone | someone⟩
    · refine ⟨f', parsed, .inl ?_⟩
      by_cases heq : f' = f
      · exact ⟨_, by rw [lookup, if_pos heq]⟩
      · exact ⟨rels', by rw [lookup, if_neg heq]; exact rel⟩
    · exact ⟨f', parsed, .inr (.inl (someone.put_idle idle))⟩
    · exact ⟨f', parsed, .inr (.inr (someone.put_idle idle))⟩
  · intro f' h
    rw [lookup] at h
    split at h
    · rename_i heq
      rw [Option.some.inj h, List.isEmpty_nil, if_pos rfl]
      exact .self (by simp [Pc.drops, heq])
    · exact (inv.dropping f' h).put_idle idle
  · intro f' c rel h
    rw [Holdings.set_apply] at h
    split at h
    · cases h
    · rename_i other
      rcases inv.present f' c rel h with held | inserting
      · refine .inl ?_
        rw [DefaultRouter.held, lookup]
        split
        · rename_i heq
          rw [DefaultRouter.held, heq, hf] at held
          rw [Option.bind_some, Assoc.lookup_erase_of_ne _ (fun hc => other ⟨heq, hc⟩)]
          exact held
        · exact held
      · exact .inr (lookup_put_of_idle inserting idle)
  · rw [weight_put_of_idle inv.busyKeys idle (weightless _ rfl), length]
    exact inv.topicsCount
  · have count := inv.relationsCount
    rw [weight_put_of_idle inv.busyKeys idle (weightless _ rfl)]
    simp only [pairs, Counter.dec] at count total ⊢
    omega

/-- The second step of an `add`. -/
theorem Inv.insertRelation (inv : Inv router busy lastAdd) {c : ClientId} {f : TopicFilter} {id : Id}
    {opts : SubscriptionOptions} (at_ : busy.lookup c = some (.insertRelation f id opts)) :
    Inv (router.insertRelation f id opts).1
      (busy.put c (if (router.insertRelation f id opts).2 then some .countRelation else none))
      lastAdd := by
  rcases inv.inserting c f id opts at_ with ⟨parsed, rfl, last⟩
  have lookup := fun f' => router.lookup_insertRelation f f' id opts
  have after : ∀ (p : Pc → Bool) pc, (if (router.insertRelation f id opts).2 then
      some Pc.countRelation else none) = some pc → p .countRelation = false → p pc = false := by
    intro p pc hpc hp
    split at hpc
    · cases hpc
      exact hp
    · cases hpc
  rcases insertRelation_counts inv.keys inv.clients f id opts with ⟨topics, relations, total⟩
  refine ⟨DefaultRouter.nodupKeys_insertRelation inv.keys _ _ _,
    DefaultRouter.clients_insertRelation inv.clients _ _ _, ?_, inv.busyKeys.put _ _, ?_, ?_, ?_, ?_,
    ?_, ?_, ?_⟩
  · intro f' rels h
    rw [lookup] at h
    split at h
    · rename_i heq
      exact heq ▸ parsed
    · exact inv.parsed f' rels h
  · apply inv.inserting_put
    intro pc hpc f' id' opts' insertion
    split at hpc
    · cases hpc
      cases insertion
    · cases hpc
  · intro f' topic parsed' h
    rw [DefaultRouter.insertRelation_topics]
    refine inv.stored f' topic parsed' ?_
    rcases h with ⟨rels, h, nonempty⟩ | someone
    · rw [lookup] at h
      split at h
      · rename_i heq
        exact .inr ⟨_, _, at_, by simp [Pc.inserts, heq]⟩
      · exact .inl ⟨rels, h, nonempty⟩
    · exact .inr (someone.of_put_of_not fun pc hpc => after _ pc hpc rfl)
  · intro topic h
    rw [DefaultRouter.insertRelation_topics] at h
    rcases inv.needed topic h with ⟨f', parsed', needed⟩
    refine ⟨f', parsed', ?_⟩
    by_cases heq : f' = f
    · exact .inl ⟨_, by rw [lookup, if_pos heq]⟩
    · have other : (Pc.insertRelation f id opts).inserts f' = false := by
        simp [Pc.inserts, Ne.symm heq]
      rcases needed with ⟨rels, rel⟩ | someone | someone
      · exact .inl ⟨rels, by rw [lookup, if_neg heq]; exact rel⟩
      · exact .inr (.inl (someone.put_at at_ other))
      · exact .inr (.inr (someone.put_at at_ rfl))
  · intro f' h
    rw [lookup] at h
    split at h
    · cases h
    · exact (inv.dropping f' h).put_at at_ rfl
  · intro f' c' rel h
    rw [DefaultRouter.held_insertRelation, Holdings.set_apply]
    by_cases same : f' = f ∧ c' = id.clientId
    · rw [if_pos same]
      rcases same with ⟨rfl, rfl⟩
      rw [last] at h
      cases h
      exact .inl rfl
    · rw [if_neg same]
      rcases inv.present f' c' rel h with held | inserting
      · exact .inl held
      · have other : c' ≠ id.clientId := by
          rintro rfl
          rw [at_] at inserting
          cases inserting
          exact same ⟨rfl, rfl⟩
        rw [Assoc.lookup_put, if_neg other]
        exact .inr inserting
  · have weight := inv.busyKeys.weight_put Pc.countedTopics id.clientId
      (if (router.insertRelation f id opts).2 then some .countRelation else none)
    have count := inv.topicsCount
    rw [at_] at weight
    cases isNew : (router.insertRelation f id opts).2 <;>
      simp [isNew, Pc.countedTopics] at weight ⊢ <;> omega
  · have weight := inv.busyKeys.weight_put Pc.uncountedRelations id.clientId
      (if (router.insertRelation f id opts).2 then some .countRelation else none)
    have count := inv.relationsCount
    rw [at_] at weight
    rw [relations, total]
    cases isNew : (router.insertRelation f id opts).2 <;>
      simp [isNew, Pc.uncountedRelations] at weight ⊢ <;> omega

/-- The last step of an `add` of a new relation. -/
theorem Inv.countRelation (inv : Inv router busy lastAdd) {c : ClientId}
    (at_ : busy.lookup c = some .countRelation) :
    Inv router.countRelation (busy.put c none) lastAdd := by
  refine ⟨inv.keys, inv.clients, inv.parsed, inv.busyKeys.put _ _, ?_, ?_, ?_, ?_, ?_, ?_, ?_⟩
  · apply inv.inserting_put
    intro pc hpc
    cases hpc
  · intro f' topic parsed h
    refine inv.stored f' topic parsed (h.imp_right fun someone => ?_)
    exact someone.of_put_of_not fun pc hpc => by cases hpc
  · intro topic h
    rcases inv.needed topic h with ⟨f', parsed, needed⟩
    refine ⟨f', parsed, needed.imp_right (Or.imp ?_ ?_)⟩
    · exact fun someone => someone.put_at at_ rfl
    · exact fun someone => someone.put_at at_ rfl
  · exact fun f' h => (inv.dropping f' h).put_at at_ rfl
  · intro f' c' rel h
    refine (inv.present f' c' rel h).imp_right fun inserting => ?_
    exact lookup_put_of_ne_pc inserting at_ nofun
  · rw [weight_put_at inv.busyKeys at_ rfl fun pc hpc => by cases hpc]
    exact inv.topicsCount
  · have weight := inv.busyKeys.weight_put Pc.uncountedRelations c none
    have count := inv.relationsCount
    rw [at_] at weight
    simp [Pc.uncountedRelations] at weight
    change router.relationsCount.count + 1 + _ = (pairs router : Int)
    omega

/-- A `remove` deletes the entry, which is still empty. -/
theorem Inv.dropFilter (inv : Inv router busy lastAdd) {c : ClientId} {f : TopicFilter}
    (at_ : busy.lookup c = some (.dropFilter f))
    (empty : ∀ rels, router.relations.lookup f = some rels → rels = []) :
    Inv (router.dropFilter f).1
      (busy.put c (some (if (router.dropFilter f).2 then .uncountTopic f else .removeTopic f)))
      lastAdd := by
  have after : ∀ p : Pc → Bool, p (.uncountTopic f) = false → p (.removeTopic f) = false →
      ∀ pc, some (if (router.dropFilter f).2 then Pc.uncountTopic f else .removeTopic f) = some pc →
        p pc = false := by
    intro p hp hp' pc hpc
    cases hpc
    split
    · exact hp
    · exact hp'
  have erase : ∀ f' rels, (router.relations.erase f).lookup f' = some rels →
      router.relations.lookup f' = some rels ∧ f' ≠ f := by
    intro f' rels h
    by_cases heq : f' = f
    · rw [heq, Assoc.lookup_erase_self] at h
      cases h
    · rw [Assoc.lookup_erase_of_ne _ heq] at h
      exact ⟨h, heq⟩
  refine ⟨inv.keys.erase f, fun f' rels h => inv.clients f' rels (erase f' rels h).1,
    fun f' rels h => inv.parsed f' rels (erase f' rels h).1, inv.busyKeys.put _ _, ?_, ?_, ?_, ?_, ?_,
    ?_, ?_⟩
  · apply inv.inserting_put
    intro pc hpc f' id' opts' insertion
    split at hpc <;> cases hpc <;> cases insertion
  · intro f' topic parsed h
    refine inv.stored f' topic parsed ?_
    rcases h with ⟨rels, h, nonempty⟩ | someone
    · exact .inl ⟨rels, (erase f' rels h).1, nonempty⟩
    · exact .inr (someone.of_put_of_not (after _ rfl rfl))
  · intro topic h
    rcases inv.needed topic h with ⟨f', parsed, ⟨rels, rel⟩ | someone | someone⟩
    · refine ⟨f', parsed, ?_⟩
      by_cases heq : f' = f
      · refine .inr (.inr (.self ?_))
        split <;> simp [Pc.prunes, heq]
      · exact .inl ⟨rels, (Assoc.lookup_erase_of_ne _ heq).trans rel⟩
    · exact ⟨f', parsed, .inr (.inl (someone.put_at at_ rfl))⟩
    · exact ⟨f', parsed, .inr (.inr (someone.put_at at_ rfl))⟩
  · intro f' h
    rcases erase f' [] h with ⟨rel, heq⟩
    exact (inv.dropping f' rel).put_at at_ (by simp [Pc.drops, Ne.symm heq])
  · intro f' c' rel h
    rcases inv.present f' c' rel h with held | inserting
    · refine .inl ?_
      rcases Option.bind_eq_some_iff.mp held with ⟨rels, hrels, hrel⟩
      have heq : f' ≠ f := by
        rintro rfl
        rw [empty rels hrels] at hrel
        cases hrel
      change ((router.relations.erase f).lookup f').bind _ = _
      rw [Assoc.lookup_erase_of_ne _ heq]
      exact held
    · exact .inr (lookup_put_of_ne_pc inserting at_ nofun)
  · have weight := inv.busyKeys.weight_put Pc.countedTopics c
      (some (if (router.dropFilter f).2 then .uncountTopic f else .removeTopic f))
    have length := inv.keys.length_erase f
    have count := inv.topicsCount
    have dropped : (router.dropFilter f).2 = (router.relations.lookup f).isSome := rfl
    change router.topicsCount.count = ((router.relations.erase f).length : Int) + _
    rw [at_] at weight
    rw [dropped] at weight ⊢
    rcases Bool.eq_false_or_eq_true (router.relations.lookup f).isSome with h | h
    · simp [h, Pc.countedTopics] at weight length ⊢
      omega
    · simp [h, Pc.countedTopics] at weight length ⊢
      omega
  · have entries := inv.keys.weight_erase List.length f
    have count := inv.relationsCount
    have nothing : ((router.relations.lookup f).map List.length).getD 0 = 0 := by
      cases hf : router.relations.lookup f with
      | none => rfl
      | some rels => rw [empty rels hf]; rfl
    have weight : (busy.put c (some (if (router.dropFilter f).2 then .uncountTopic f
        else .removeTopic f))).weight Pc.uncountedRelations = busy.weight Pc.uncountedRelations := by
      refine weight_put_at inv.busyKeys at_ rfl fun pc hpc => ?_
      cases hpc
      split <;> rfl
    change router.relationsCount.count + _ = ((router.relations.erase f).weight List.length : Int)
    rw [pairs] at count
    omega

/-- A `remove` uncounts the filter. -/
theorem Inv.uncountTopic (inv : Inv router busy lastAdd) {c : ClientId} {f : TopicFilter}
    (at_ : busy.lookup c = some (.uncountTopic f)) :
    Inv router.uncountTopic (busy.put c (some (.removeTopic f))) lastAdd := by
  refine ⟨inv.keys, inv.clients, inv.parsed, inv.busyKeys.put _ _, ?_, ?_, ?_, ?_, ?_, ?_, ?_⟩
  · apply inv.inserting_put
    intro pc hpc f' id' opts' insertion
    cases hpc
    cases insertion
  · intro f' topic parsed h
    refine inv.stored f' topic parsed (h.imp_right fun someone => ?_)
    exact someone.of_put_of_not fun pc hpc => by cases hpc; rfl
  · intro topic h
    rcases inv.needed topic h with ⟨f', parsed, rel | someone | someone⟩
    · exact ⟨f', parsed, .inl rel⟩
    · exact ⟨f', parsed, .inr (.inl (someone.put_at at_ rfl))⟩
    · refine ⟨f', parsed, .inr (.inr ?_)⟩
      by_cases heq : f = f'
      · exact .self (by simp [Pc.prunes, heq])
      · exact someone.put_at at_ (by simp [Pc.prunes, heq])
  · exact fun f' h => (inv.dropping f' h).put_at at_ rfl
  · intro f' c' rel h
    refine (inv.present f' c' rel h).imp_right fun inserting => ?_
    exact lookup_put_of_ne_pc inserting at_ nofun
  · have weight := inv.busyKeys.weight_put Pc.countedTopics c (some (.removeTopic f))
    have count := inv.topicsCount
    rw [at_] at weight
    simp [Pc.countedTopics] at weight
    change router.topicsCount.count - 1 = (router.relations.length : Int) + _
    omega
  · rw [weight_put_at inv.busyKeys at_ rfl fun pc hpc => by cases hpc; rfl]
    exact inv.relationsCount

/-- A `remove` takes the filter from the tree, when nobody needs it there. -/
theorem Inv.removeTopic (inv : Inv router busy lastAdd) {c : ClientId} {f : TopicFilter}
    {topics : TopicTree Unit}
    (removed : ∀ topic : Topic, () ∈ topics.valuesAt topic.levels ↔
      Topic.fromStr f ≠ .ok topic ∧ () ∈ router.topics.valuesAt topic.levels)
    (at_ : busy.lookup c = some (.removeTopic f)) (unused : router.relations.lookup f = none)
    (nobody : ¬ Someone busy (Pc.inserts f)) :
    Inv { router with topics := topics } (busy.put c none) lastAdd := by
  refine ⟨inv.keys, inv.clients, inv.parsed, inv.busyKeys.put _ _, ?_, ?_, ?_, ?_, ?_, ?_, ?_⟩
  · apply inv.inserting_put
    intro pc hpc
    cases hpc
  · intro f' topic parsed h
    have before : (∃ rels, router.relations.lookup f' = some rels ∧ rels ≠ []) ∨
        Someone busy (Pc.inserts f') :=
      h.imp_right fun someone => someone.of_put_of_not fun pc hpc => by cases hpc
    refine (removed topic).mpr ⟨fun parsed' => ?_, inv.stored f' topic parsed before⟩
    have same : f' = f := by
      rw [← Topic.toString_of_fromStr parsed, Topic.toString_of_fromStr parsed']
    rw [same] at before
    rcases before with ⟨rels, hrels, -⟩ | someone
    · rw [unused] at hrels
      cases hrels
    · exact nobody someone
  · intro topic h
    rcases (removed topic).mp h with ⟨other, h⟩
    rcases inv.needed topic h with ⟨f', parsed', rel | someone | someone⟩
    · exact ⟨f', parsed', .inl rel⟩
    · exact ⟨f', parsed', .inr (.inl (someone.put_at at_ rfl))⟩
    · refine ⟨f', parsed', .inr (.inr (someone.put_at at_ ?_))⟩
      have ne : f ≠ f' := by
        rintro rfl
        exact other parsed'
      simp [Pc.prunes, ne]
  · exact fun f' h => (inv.dropping f' h).put_at at_ rfl
  · intro f' c' rel h
    refine (inv.present f' c' rel h).imp_right fun inserting => ?_
    exact lookup_put_of_ne_pc inserting at_ nofun
  · rw [weight_put_at inv.busyKeys at_ rfl fun pc hpc => by cases hpc]
    exact inv.topicsCount
  · rw [weight_put_at inv.busyKeys at_ rfl fun pc hpc => by cases hpc]
    exact inv.relationsCount

end

/-- Every orderly step keeps the invariant. -/
theorem Inv.step {s s' : State} {a : Action} (inv : Inv s.router s.busy s.lastAdd)
    (ok : orderly s a = true) (h : step s a = some s') : Inv s'.router s'.busy s'.lastAdd := by
  cases a with
  | call call =>
      rw [Concurrent.step] at h
      split at h
      · rename_i idle
        rw [Option.isNone_iff_eq_none] at idle
        cases h
        cases call with
        | add f id opts =>
            rw [start]
            cases parsed : Topic.fromStr f with
            | error e => exact inv
            | ok topic => exact inv.startAdd parsed idle opts
        | remove f id =>
            rw [start]
            rcases s.router.takeRelation_cases f id with ⟨taken, -⟩ | ⟨rels, opts, hf, hrel, taken⟩
            · rw [taken]
              exact inv.startRemoveNone f idle
            · rw [taken]
              have step := inv.startRemoveSome idle hf hrel
              cases empty : (rels.erase id.clientId).isEmpty <;> rw [empty] at step <;> exact step
      · cases h
  | step c =>
      rcases Option.map_eq_some_iff.mp h with ⟨pc, at_, rfl⟩
      rw [orderly, at_] at ok
      cases pc with
      | insertRelation f id opts => exact inv.insertRelation at_
      | countRelation => exact inv.countRelation at_
      | dropFilter f =>
          refine inv.dropFilter at_ fun rels hrels => ?_
          change Option.all (fun rels => rels.isEmpty) (s.router.relations.lookup f) = true at ok
          rw [hrels] at ok
          exact List.isEmpty_iff.mp ok
      | uncountTopic f => exact inv.uncountTopic at_
      | removeTopic f =>
          rcases Bool.and_eq_true_iff.mp ok with ⟨unused, others⟩
          rw [Option.isNone_iff_eq_none] at unused
          have nobody : ¬ Someone s.busy (Pc.inserts f) := by
            rintro ⟨c', pc, hpc, inserts⟩
            have := List.all_eq_true.mp others (c', pc) (inv.busyKeys.mem_iff_lookup.mpr hpc)
            simp [inserts] at this
          rw [proceed]
          cases parsed : Topic.fromStr f with
          | error e =>
              have removed : ∀ t : Topic, () ∈ s.router.topics.valuesAt t.levels ↔
                  Topic.fromStr f ≠ .ok t ∧ () ∈ s.router.topics.valuesAt t.levels := by
                simp [parsed]
              exact inv.removeTopic removed at_ unused nobody
          | ok topic =>
              have removed : ∀ t : Topic,
                  () ∈ (s.router.topics.remove topic ()).1.valuesAt t.levels ↔
                    Topic.fromStr f ≠ .ok t ∧ () ∈ s.router.topics.valuesAt t.levels := by
                intro t
                rw [Node.mem_valuesAt_remove, parsed]
                simp [eq_comm]
              exact inv.removeTopic removed at_ unused nobody

theorem inv_init : Inv ({} : State).router ({} : State).busy ({} : State).lastAdd where
  keys := Assoc.nodupKeys_nil
  clients f rels h := by cases h
  parsed f rels h := by cases h
  busyKeys := Assoc.nodupKeys_nil
  inserting c f id opts h := by cases h
  stored f topic parsed h := by
    rcases h with ⟨rels, h, -⟩ | ⟨c, pc, h, -⟩ <;> cases h
  needed topic h := by
    change () ∈ (Node.default : TopicTree Unit).valuesAt topic.levels at h
    rw [Node.valuesAt_default] at h
    exact (OrdSet.not_mem_empty _ h).elim
  dropping f h := by cases h
  present f c rel h := by cases h
  topicsCount := rfl
  relationsCount := rfl

/-! ## Whole runs -/

/-- The router when all calls have finished: every client whose last call at a filter was an
`add` is in the map, the filter is in the tree, a publish reaches what is held, and the
counters count. -/
structure Settled (s : State) : Prop where
  consistent : s.router.Consistent
  present : ∀ f c rel, s.lastAdd f c = some rel → s.router.held f c = some rel ∧
    ∃ topic, Topic.fromStr f = .ok topic ∧ () ∈ s.router.topics.valuesAt topic.levels
  reached : ∀ env thisId topicName topic, Topic.fromStr topicName = .ok topic →
    topic.WildcardFree → ∃ rels chosen,
      DefaultRouter._matches env thisId s.router topicName = .ok rels ∧
      Chooses env s.router.held thisId topic chosen ∧
      Routes env s.router.held thisId topic chosen rels
  topicsCount : s.router.topicsCount.count = s.router.relations.length
  relationsCount : s.router.relationsCount.count = pairs s.router

theorem not_someone_nil (p : Pc → Bool) : ¬ Someone [] p := by
  rintro ⟨c, pc, h, -⟩
  cases h

theorem Inv.settled {s : State} (inv : Inv s.router s.busy s.lastAdd) (finished : s.busy = []) :
    Settled s := by
  rcases s with ⟨router, busy, lastAdd⟩
  cases finished
  have nonempty : ∀ f rels, router.relations.lookup f = some rels → rels ≠ [] := by
    rintro f rels h rfl
    exact not_someone_nil _ (inv.dropping f h)
  have consistent : router.Consistent := by
    refine ⟨inv.keys, inv.clients, nonempty, inv.parsed, fun topic => ⟨fun h => ?_, ?_⟩⟩
    · rcases inv.needed topic h with ⟨f, parsed, ⟨rels, rel⟩ | someone | someone⟩
      · exact ⟨f, rels, parsed, rel⟩
      · exact (not_someone_nil _ someone).elim
      · exact (not_someone_nil _ someone).elim
    · rintro ⟨f, rels, parsed, rel⟩
      exact inv.stored f topic parsed (.inl ⟨rels, rel, nonempty f rels rel⟩)
  refine ⟨consistent, ?_, ?_, by simpa [Assoc.weight] using inv.topicsCount,
    by simpa [Assoc.weight] using inv.relationsCount⟩
  · intro f c rel h
    rcases inv.present f c rel h with held | inserting
    · rcases Option.bind_eq_some_iff.mp held with ⟨rels, hrels, -⟩
      rcases inv.parsed f rels hrels with ⟨topic, parsed⟩
      exact ⟨held, topic, parsed, (consistent.stored topic).mpr ⟨f, rels, parsed, hrels⟩⟩
    · cases inserting
  · intro env thisId topicName topic parsed free
    rcases _matches_eq env thisId router parsed with ⟨rels, found, nodes, collected⟩
    exact ⟨rels, _, found, chooses_pick consistent,
      routes_matches consistent parsed free nodes collected⟩

/-- In every run of concurrent calls whose steps are orderly, the router is settled once all
calls have finished. -/
theorem settled_of_orderly {acts : List Action} {s : State}
    (ordered : Machine.Guarded step (fun s a => orderly s a = true) {} acts)
    (ran : Machine.run step {} acts = some s) (finished : s.busy = []) : Settled s := by
  have keep : ∀ s a s', Inv s.router s.busy s.lastAdd → orderly s a = true → step s a = some s' →
      Inv s'.router s'.busy s'.lastAdd := fun _ _ _ inv ok h => inv.step ok h
  exact (Machine.invariant_guarded keep ordered ran inv_init).settled finished

def exampleOpts : SubscriptionOptions := .v3 ⟨.atLeastOnce, none, none⟩

/-- A filter that is left, and subscribed to again after the removal has finished. -/
theorem settled_of_orderly_resubscribed :
    ∃ s, Machine.run step {}
        [.call (.add "t" (Id.ofClient 1 "a") exampleOpts), .step "a", .step "a",
          .call (.remove "t" (Id.ofClient 1 "a")), .step "a", .step "a", .step "a",
          .call (.add "t" (Id.ofClient 1 "b") exampleOpts), .step "b", .step "b"] = some s ∧
      Settled s :=
  ⟨_, rfl, @settled_of_orderly
    [.call (.add "t" (Id.ofClient 1 "a") exampleOpts), .step "a", .step "a",
      .call (.remove "t" (Id.ofClient 1 "a")), .step "a", .step "a", .step "a",
      .call (.add "t" (Id.ofClient 1 "b") exampleOpts), .step "b", .step "b"] _
    (by decide) rfl rfl⟩

/-- The last subscriber leaves; another client subscribes before the entry is deleted. -/
theorem remove_loses_subscription :
    ¬ ∀ (acts : List Action) (s : State), Machine.run step {} acts = some s → s.busy = [] →
      Settled s := by
  intro settled
  have final := settled
    [.call (.add "t" (Id.ofClient 1 "a") exampleOpts), .step "a", .step "a",
      .call (.remove "t" (Id.ofClient 1 "a")),
      .call (.add "t" (Id.ofClient 1 "b") exampleOpts), .step "b", .step "b",
      .step "a", .step "a", .step "a"] _ rfl rfl
  have held := (final.present "t" "b" (Id.ofClient 1 "b", exampleOpts) rfl).1
  cases held

end OxiMqtt.Router.Concurrent

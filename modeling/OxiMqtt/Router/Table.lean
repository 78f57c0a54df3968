import OxiMqtt.Router.Basic

/-!
# The subscriptions of a router

What a router is for, as a table: which subscription a client holds at a filter.
An accepted `add` sets the client's subscription at the filter; a `remove` clears it
if the id is the one that subscribed.

* `consistent_routerOf`: after any calls, a filter is in the tree exactly when it has
  relations.
* `held_routerOf`: after any calls, the relation map holds the table of the calls.
-/

namespace OxiMqtt.Router

open Collections

/-! ## The table of a history -/

/-- A call of the router. -/
inductive Call : Type
  | add (topicFilter : TopicFilter) (id : Id) (opts : SubscriptionOptions)
  | remove (topicFilter : TopicFilter) (id : Id)
  deriving DecidableEq, Repr

/-- The subscription every client holds at every filter. -/
abbrev Holdings : Type := TopicFilter → ClientId → Option Relation

def Holdings.set (held : Holdings) (topicFilter : TopicFilter) (clientId : ClientId)
    (rel : Option Relation) : Holdings :=
  fun f c => if f = topicFilter ∧ c = clientId then rel else held f c

theorem Holdings.set_apply (held : Holdings) (topicFilter f : TopicFilter) (clientId c : ClientId)
    (rel : Option Relation) :
    held.set topicFilter clientId rel f c =
      if f = topicFilter ∧ c = clientId then rel else held f c := rfl

/-- The text is a topic filter. -/
def Parses (topicFilter : TopicFilter) : Prop := ∃ topic, Topic.fromStr topicFilter = .ok topic

instance (topicFilter : TopicFilter) : Decidable (Parses topicFilter) :=
  match h : Topic.fromStr topicFilter with
  | .ok topic => isTrue ⟨topic, h⟩
  | .error _ => isFalse fun ⟨topic, ok⟩ => by rw [h] at ok; cases ok

namespace Call

def apply : Call → DefaultRouter → DefaultRouter
  | add topicFilter id opts, r =>
      match r.add topicFilter id opts with
      | .ok r' => r'
      | .error _ => r
  | remove topicFilter id, r => (r.remove topicFilter id).1

/-- The call on the table. -/
def record : Call → Holdings → Holdings
  | add topicFilter id opts, held =>
      if Parses topicFilter then held.set topicFilter id.clientId (some (id, opts)) else held
  | remove topicFilter id, held =>
      if (held topicFilter id.clientId).any (fun rel => rel.1 = id) then
        held.set topicFilter id.clientId none
      else held

end Call

/-- The router after a sequence of calls. -/
def routerOf (calls : List Call) : DefaultRouter := calls.foldl (fun r call => call.apply r) {}

/-- The subscriptions held after a sequence of calls. -/
def heldBy (calls : List Call) : Holdings :=
  calls.foldl (fun held call => call.record held) fun _ _ => none

namespace DefaultRouter

/-- The relation of a client at a filter. -/
def held (r : DefaultRouter) : Holdings := fun topicFilter clientId =>
  (r.relations.lookup topicFilter).bind fun rels => rels.lookup clientId

/-- The tree and the relation map agree. -/
structure Consistent (r : DefaultRouter) : Prop where
  keys : r.relations.NodupKeys
  clients : ∀ f rels, r.relations.lookup f = some rels → rels.NodupKeys
  nonempty : ∀ f rels, r.relations.lookup f = some rels → rels ≠ []
  parsed : ∀ f rels, r.relations.lookup f = some rels → Parses f
  stored : ∀ topic : Topic, () ∈ r.topics.valuesAt topic.levels ↔
    ∃ f rels, Topic.fromStr f = .ok topic ∧ r.relations.lookup f = some rels

/-! ## One call -/

theorem lookup_insertRelation (r : DefaultRouter) (topicFilter f : TopicFilter) (id : Id)
    (opts : SubscriptionOptions) :
    (r.insertRelation topicFilter id opts).1.relations.lookup f =
      if f = topicFilter then
        some (((r.relations.lookup topicFilter).getD []).insert id.clientId (id, opts))
      else r.relations.lookup f := by
  unfold insertRelation
  by_cases hf : f = topicFilter
  · subst hf
    cases r.relations.lookup f <;> simp
  · rw [if_neg hf]
    cases r.relations.lookup topicFilter <;> exact Assoc.lookup_insert_of_ne _ _ hf

@[simp] theorem insertRelation_topics (r : DefaultRouter) (topicFilter : TopicFilter) (id : Id)
    (opts : SubscriptionOptions) :
    (r.insertRelation topicFilter id opts).1.topics = r.topics := by
  unfold insertRelation
  cases r.relations.lookup topicFilter <;> rfl

theorem nodupKeys_insertRelation {r : DefaultRouter} (keys : r.relations.NodupKeys)
    (topicFilter : TopicFilter) (id : Id) (opts : SubscriptionOptions) :
    (r.insertRelation topicFilter id opts).1.relations.NodupKeys := by
  unfold insertRelation
  cases r.relations.lookup topicFilter <;> exact keys.insert _ _

theorem clients_insertRelation {r : DefaultRouter}
    (clients : ∀ f rels, r.relations.lookup f = some rels → rels.NodupKeys)
    (topicFilter : TopicFilter) (id : Id) (opts : SubscriptionOptions) (f : TopicFilter)
    (rels : Assoc ClientId Relation)
    (found : (r.insertRelation topicFilter id opts).1.relations.lookup f = some rels) :
    rels.NodupKeys := by
  rw [lookup_insertRelation] at found
  split at found
  · cases found
    have before : ((r.relations.lookup topicFilter).getD []).NodupKeys := by
      cases hrels : r.relations.lookup topicFilter with
      | none => exact Assoc.nodupKeys_nil
      | some rels => exact clients topicFilter rels hrels
    exact before.insert _ _
  · exact clients f rels found

theorem held_insertRelation (r : DefaultRouter) (topicFilter : TopicFilter) (id : Id)
    (opts : SubscriptionOptions) :
    (r.insertRelation topicFilter id opts).1.held =
      r.held.set topicFilter id.clientId (some (id, opts)) := by
  funext f c
  rw [held, lookup_insertRelation, Holdings.set]
  by_cases hf : f = topicFilter
  · subst hf
    rw [if_pos rfl, Option.bind_some]
    by_cases hc : c = id.clientId
    · rw [hc, Assoc.lookup_insert_self, if_pos ⟨rfl, rfl⟩]
    · rw [Assoc.lookup_insert_of_ne _ _ hc, if_neg (fun h => hc h.2), held]
      cases r.relations.lookup f <;> rfl
  · rw [if_neg hf, if_neg (fun h => hf h.1)]
    rfl

/-- What `remove` does under the guard: nothing, or it takes the relation of the id. -/
theorem takeRelation_cases (r : DefaultRouter) (topicFilter : TopicFilter) (id : Id) :
    (r.takeRelation topicFilter id = (r, none) ∧
        (r.held topicFilter id.clientId).any (fun rel => rel.1 = id) = false) ∨
      ∃ rels opts, r.relations.lookup topicFilter = some rels ∧
        rels.lookup id.clientId = some (id, opts) ∧
        r.takeRelation topicFilter id =
          ({ r with
              relations := r.relations.insert topicFilter (rels.erase id.clientId)
              relationsCount := r.relationsCount.dec },
            some ((rels.erase id.clientId).isEmpty, true)) := by
  unfold takeRelation held
  cases hrels : r.relations.lookup topicFilter with
  | none => exact .inl ⟨rfl, rfl⟩
  | some rels =>
      dsimp only
      rw [Option.bind_some]
      cases hrel : rels.lookup id.clientId with
      | none => exact .inl ⟨rfl, rfl⟩
      | some rel =>
          rcases rel with ⟨sId, opts⟩
          by_cases same : sId = id
          · subst same
            exact .inr ⟨rels, opts, rfl, hrel, by simp⟩
          · refine .inl ⟨?_, ?_⟩ <;> simp [same]

/-- The states `remove` leaves: the same, or the relation of the id is gone, and with
the last relation the filter. -/
theorem remove_cases {r : DefaultRouter} (consistent : r.Consistent) (topicFilter : TopicFilter)
    (id : Id) :
    ((r.remove topicFilter id).1 = r ∧
        (r.held topicFilter id.clientId).any (fun rel => rel.1 = id) = false) ∨
      ∃ rels opts topic, r.relations.lookup topicFilter = some rels ∧
        rels.lookup id.clientId = some (id, opts) ∧ Topic.fromStr topicFilter = .ok topic ∧
        (r.remove topicFilter id).1.relations =
          (if rels.erase id.clientId = [] then
            (r.relations.insert topicFilter (rels.erase id.clientId)).erase topicFilter
          else r.relations.insert topicFilter (rels.erase id.clientId)) ∧
        (r.remove topicFilter id).1.topics =
          if rels.erase id.clientId = [] then (r.topics.remove topic ()).1 else r.topics := by
  rcases r.takeRelation_cases topicFilter id with ⟨taken, other⟩ | ⟨rels, opts, hrels, hrel, taken⟩
  · left
    refine ⟨?_, other⟩
    rw [remove, taken]
  · right
    rcases consistent.parsed _ _ hrels with ⟨topic, htopic⟩
    refine ⟨rels, opts, topic, hrels, hrel, htopic, ?_⟩
    rw [remove, taken]
    cases hempty : (rels.erase id.clientId).isEmpty with
    | true =>
        simp [List.isEmpty_iff.mp hempty, dropFilter, htopic, removeTopic, uncountTopic]
    | false =>
        have left : rels.erase id.clientId ≠ [] := fun h => by rw [h] at hempty; cases hempty
        simp [left]

/-- The state an accepted `add` leaves. -/
theorem add_ok {r r' : DefaultRouter} {topicFilter : TopicFilter} {id : Id}
    {opts : SubscriptionOptions} (h : r.add topicFilter id opts = .ok r') :
    ∃ topic, Topic.fromStr topicFilter = .ok topic ∧
      r'.relations = ((r.insertTopic topic).insertRelation topicFilter id opts).1.relations ∧
      r'.topics = (r.topics.insert topic ()).1 := by
  unfold add at h
  cases htopic : Topic.fromStr topicFilter with
  | error e => rw [htopic] at h; cases h
  | ok topic =>
      rw [htopic] at h
      have state : r' = if ((r.insertTopic topic).insertRelation topicFilter id opts).2 then
          ((r.insertTopic topic).insertRelation topicFilter id opts).1.countRelation
          else ((r.insertTopic topic).insertRelation topicFilter id opts).1 :=
        (Except.ok.inj h).symm
      refine ⟨topic, rfl, ?_⟩
      rw [state]
      cases ((r.insertTopic topic).insertRelation topicFilter id opts).2 <;>
        simp [countRelation, insertTopic]

theorem add_error {r : DefaultRouter} {topicFilter : TopicFilter} {id : Id}
    {opts : SubscriptionOptions} {e : TopicError} (h : r.add topicFilter id opts = .error e) :
    ¬ Parses topicFilter := by
  rintro ⟨topic, htopic⟩
  rw [add, htopic] at h
  cases h

theorem Consistent.add {r r' : DefaultRouter} (consistent : r.Consistent)
    {topicFilter : TopicFilter} {id : Id} {opts : SubscriptionOptions}
    (h : r.add topicFilter id opts = .ok r') : r'.Consistent := by
  rcases add_ok h with ⟨topic, htopic, relations, topics⟩
  have lookup : ∀ f, r'.relations.lookup f =
      if f = topicFilter then
        some (((r.relations.lookup topicFilter).getD []).insert id.clientId (id, opts))
      else r.relations.lookup f := fun f => by
    rw [relations]
    exact lookup_insertRelation _ _ _ _ _
  refine ⟨?_, fun f rels hf => ?_, fun f rels hf => ?_, fun f rels hf => ?_, fun t => ?_⟩
  · rw [relations]
    exact nodupKeys_insertRelation (r := r.insertTopic topic) consistent.keys _ _ _
  · rw [relations] at hf
    exact clients_insertRelation (r := r.insertTopic topic) consistent.clients _ _ _ f rels hf
  · rw [lookup] at hf
    split at hf
    · cases hf
      exact List.cons_ne_nil _ _
    · exact consistent.nonempty f rels hf
  · rw [lookup] at hf
    split at hf
    · rename_i heq
      exact ⟨topic, heq ▸ htopic⟩
    · exact consistent.parsed f rels hf
  · rw [topics, Node.mem_valuesAt_insert, consistent.stored t]
    simp only [and_true, lookup]
    constructor
    · rintro (rfl | ⟨f, rels, hf, hrels⟩)
      · exact ⟨topicFilter, _, htopic, if_pos rfl⟩
      · by_cases heq : f = topicFilter
        · exact ⟨f, _, hf, if_pos heq⟩
        · exact ⟨f, rels, hf, by rw [if_neg heq]; exact hrels⟩
    · rintro ⟨f, rels, hf, hrels⟩
      split at hrels
      · rename_i heq
        rw [heq, htopic] at hf
        exact .inl (Except.ok.inj hf).symm
      · exact .inr ⟨f, rels, hf, hrels⟩

theorem held_add {r r' : DefaultRouter} {topicFilter : TopicFilter} {id : Id}
    {opts : SubscriptionOptions} (h : r.add topicFilter id opts = .ok r') :
    r'.held = r.held.set topicFilter id.clientId (some (id, opts)) := by
  rcases add_ok h with ⟨topic, -, relations, -⟩
  have inserted := held_insertRelation (r.insertTopic topic) topicFilter id opts
  have same : r'.held = ((r.insertTopic topic).insertRelation topicFilter id opts).1.held := by
    funext f c
    rw [held, held, relations]
  rw [same, inserted]
  rfl

theorem lookup_remove {r : DefaultRouter} {topicFilter : TopicFilter} {id : Id}
    {rels : Assoc ClientId Relation}
    (relations : (r.remove topicFilter id).1.relations =
      if rels.erase id.clientId = [] then
        (r.relations.insert topicFilter (rels.erase id.clientId)).erase topicFilter
      else r.relations.insert topicFilter (rels.erase id.clientId)) (f : TopicFilter) :
    (r.remove topicFilter id).1.relations.lookup f =
      if f = topicFilter then
        if rels.erase id.clientId = [] then none else some (rels.erase id.clientId)
      else r.relations.lookup f := by
  rw [relations]
  by_cases hf : f = topicFilter
  · subst hf
    rw [if_pos rfl]
    split
    · exact Assoc.lookup_erase_self _ _
    · exact Assoc.lookup_insert_self _ _ _
  · rw [if_neg hf]
    split
    · rw [Assoc.lookup_erase_of_ne _ hf, Assoc.lookup_insert_of_ne _ _ hf]
    · exact Assoc.lookup_insert_of_ne _ _ hf

theorem Consistent.remove {r : DefaultRouter} (consistent : r.Consistent)
    (topicFilter : TopicFilter) (id : Id) : (r.remove topicFilter id).1.Consistent := by
  rcases remove_cases consistent topicFilter id with
    ⟨same, -⟩ | ⟨rels, opts, topic, hrels, -, htopic, relations, topics⟩
  · rw [same]
    exact consistent
  have lookup := lookup_remove relations
  -- A filter with relations after the removal had some before it.
  have before : ∀ f rels', (r.remove topicFilter id).1.relations.lookup f = some rels' →
      ∃ rels₀, r.relations.lookup f = some rels₀ ∧ (rels' = rels₀ ∨
        rels₀ = rels ∧ rels' = rels.erase id.clientId ∧ rels.erase id.clientId ≠ []) := by
    intro f rels' hf
    rw [lookup] at hf
    split at hf
    · rename_i heq
      split at hf
      · cases hf
      · rename_i left
        exact ⟨rels, heq ▸ hrels, .inr ⟨rfl, (Option.some.inj hf).symm, left⟩⟩
    · exact ⟨rels', hf, .inl rfl⟩
  refine ⟨?_, fun f rels' hf => ?_, fun f rels' hf => ?_, fun f rels' hf => ?_, fun t => ?_⟩
  · rw [relations]
    split
    · exact (consistent.keys.insert _ _).erase _
    · exact consistent.keys.insert _ _
  · rcases before f rels' hf with ⟨rels₀, h₀, rfl | ⟨rfl, rfl, -⟩⟩
    · exact consistent.clients f _ h₀
    · exact (consistent.clients f _ h₀).erase _
  · rcases before f rels' hf with ⟨rels₀, h₀, rfl | ⟨-, rfl, left⟩⟩
    · exact consistent.nonempty f _ h₀
    · exact left
  · rcases before f rels' hf with ⟨rels₀, h₀, -⟩
    exact consistent.parsed f rels₀ h₀
  · rw [topics]
    by_cases last : rels.erase id.clientId = []
    · -- The last relation of the filter is gone, and the filter from the tree.
      simp only [last, if_true, Node.mem_valuesAt_remove, and_true, consistent.stored t, lookup]
      constructor
      · rintro ⟨other, f, rels', hf, hrels'⟩
        have ne : f ≠ topicFilter := by
          rintro rfl
          rw [htopic] at hf
          exact other (Except.ok.inj hf).symm
        exact ⟨f, rels', hf, by rw [if_neg ne]; exact hrels'⟩
      · rintro ⟨f, rels', hf, hrels'⟩
        split at hrels'
        · cases hrels'
        · rename_i ne
          refine ⟨?_, f, rels', hf, hrels'⟩
          rintro rfl
          exact ne (by rw [← Topic.toString_of_fromStr hf, Topic.toString_of_fromStr htopic])
    · simp only [last, if_false, consistent.stored t, lookup]
      constructor
      · rintro ⟨f, rels', hf, hrels'⟩
        by_cases heq : f = topicFilter
        · exact ⟨f, _, hf, if_pos heq⟩
        · exact ⟨f, rels', hf, by rw [if_neg heq]; exact hrels'⟩
      · rintro ⟨f, rels', hf, hrels'⟩
        split at hrels'
        · rename_i heq
          exact ⟨f, rels, hf, heq ▸ hrels⟩
        · exact ⟨f, rels', hf, hrels'⟩

theorem held_remove {r : DefaultRouter} (consistent : r.Consistent) (topicFilter : TopicFilter)
    (id : Id) : (r.remove topicFilter id).1.held = (Call.remove topicFilter id).record r.held := by
  rw [Call.record]
  rcases remove_cases consistent topicFilter id with
    ⟨same, other⟩ | ⟨rels, opts, topic, hrels, hrel, htopic, relations, topics⟩
  · rw [same, if_neg (by rw [other]; exact Bool.false_ne_true)]
  · have own : r.held topicFilter id.clientId = some (id, opts) := by
      rw [held, hrels]
      exact hrel
    rw [if_pos (by rw [own]; simp)]
    funext f c
    rw [held, lookup_remove relations, Holdings.set]
    by_cases hf : f = topicFilter
    · subst hf
      rw [if_pos rfl]
      have left : (if rels.erase id.clientId = [] then none else some (rels.erase id.clientId)).bind
          (fun rels => rels.lookup c) = (rels.erase id.clientId).lookup c := by
        split
        · rename_i last
          rw [last]
          rfl
        · rfl
      rw [left]
      by_cases hc : c = id.clientId
      · rw [hc, Assoc.lookup_erase_self, if_pos ⟨rfl, rfl⟩]
      · rw [Assoc.lookup_erase_of_ne _ hc, if_neg (fun h => hc h.2), held, hrels]
        rfl
    · rw [if_neg hf, if_neg (fun h => hf h.1)]
      rfl

end DefaultRouter

/-! ## Any calls -/

theorem Call.apply_spec (call : Call) {r : DefaultRouter} (consistent : r.Consistent) :
    (call.apply r).Consistent ∧ (call.apply r).held = call.record r.held := by
  cases call with
  | add topicFilter id opts =>
      rw [Call.apply, Call.record]
      cases h : r.add topicFilter id opts with
      | ok r' =>
          rcases DefaultRouter.add_ok h with ⟨topic, htopic, -⟩
          rw [if_pos ⟨topic, htopic⟩]
          exact ⟨consistent.add h, DefaultRouter.held_add h⟩
      | error e =>
          rw [if_neg (DefaultRouter.add_error h)]
          exact ⟨consistent, rfl⟩
  | remove topicFilter id =>
      exact ⟨consistent.remove topicFilter id, DefaultRouter.held_remove consistent topicFilter id⟩

theorem consistent_empty : ({} : DefaultRouter).Consistent where
  keys := Assoc.nodupKeys_nil
  clients f rels h := by cases h
  nonempty f rels h := by cases h
  parsed f rels h := by cases h
  stored topic := by
    change () ∈ (Node.default : TopicTree Unit).valuesAt topic.levels ↔ _
    rw [Node.valuesAt_default]
    constructor
    · intro h
      exact (OrdSet.not_mem_empty _ h).elim
    · rintro ⟨f, rels, -, h⟩
      cases h

private theorem foldl_spec (calls : List Call) {r : DefaultRouter} {held : Holdings}
    (consistent : r.Consistent) (same : r.held = held) :
    (calls.foldl (fun r call => call.apply r) r).Consistent ∧
      (calls.foldl (fun r call => call.apply r) r).held =
        calls.foldl (fun held call => call.record held) held := by
  induction calls generalizing r held with
  | nil => exact ⟨consistent, same⟩
  | cons call calls ih =>
      rcases call.apply_spec consistent with ⟨consistent', same'⟩
      exact ih consistent' (same ▸ same')

/-- After any calls, the tree holds the filters that have relations. -/
theorem consistent_routerOf (calls : List Call) : (routerOf calls).Consistent :=
  (foldl_spec calls consistent_empty rfl).1

/-- After any calls, the relation map is the table of the calls. -/
theorem held_routerOf (calls : List Call) : (routerOf calls).held = heldBy calls :=
  (foldl_spec calls consistent_empty rfl).2

end OxiMqtt.Router

import OxiMqtt.Router.Collector

/-!
# Forwarding a publish

`DefaultShared::forwards_to` of `shared.rs`: for every relation a copy of the publish
is made and sent to the channel of the client, or put to the errors.

The channels are a parameter: `peer i client` is what `self.tx(client)` finds at the
`i`-th relation, and whether `unbounded_send` accepts.  The lists `sent` and `errs` carry
the place of the relation they come from, which the source does not.  `F` is the type of
the origin (`From`), which is only passed on.

* `forwardsTo_contributes`: every relation has one copy sent, or one entry in the errors.
* `forwards_to_iff`: when the copies carry exactly the right metadata.
-/

namespace OxiMqtt.Router

open OxiMqtt.Codec (QoS)

/-- The broker's `Publish`: a packet with the fields the broker adds. -/
structure Publish : Type where
  inner : Codec.Publish
  targetClientid : Option ClientId
  delayInterval : Option UInt32
  createTime : Option Int
  deriving DecidableEq, Repr

/-- What `self.tx(&client_id)` finds: the id of the session, and whether its channel
takes messages. -/
structure Peer : Type where
  dest : Id
  isOpen : Bool
  deriving DecidableEq, Repr

/-- A recipient; the chosen member of a group carries the filter and the group. -/
abbrev ForwardedRecipients : Type := List (ClientId × Option (TopicFilter × SharedGroup))

/-- An entry of `errs`. -/
structure Failure (F : Type) : Type where
  dest : Id
  source : F
  publish : Publish
  reason : String
  deriving DecidableEq, Repr

/-- A message `Message::Forward` in the channel of a session. -/
structure Sent (F : Type) : Type where
  dest : Id
  source : F
  publish : Publish
  deriving DecidableEq, Repr

/-- The variables of the loop, and what it has sent. -/
structure Forwarding (F : Type) : Type where
  sent : List (Nat × Sent F) := []
  errs : List (Nat × Failure F) := []
  okRecipients : ForwardedRecipients := []

/-- The retain flag of a copy. -/
def forwardRetain (publish : Codec.Publish) (opts : SubscriptionOptions) : Bool :=
  match opts.retainAsPublished with
  | some retainAsPublished => if retainAsPublished then publish.retain else false
  | none => false

/-- The properties of a copy: identifiers are written where there are properties. -/
def forwardProperties (properties : Option Codec.PublishProperties)
    (subIds : Option (List SubscriptionIdentifier)) : Option Codec.PublishProperties :=
  match subIds with
  | some subIds => properties.map fun p => { p with subscriptionIds := subIds }
  | none => properties

/-- The copy of a publish for a relation. -/
def forwardCopy (publish : Publish) (rel : SubRelation) : Publish :=
  { publish with
    inner :=
      { publish.inner with
        dup := false
        retain := forwardRetain publish.inner rel.opts
        qos := publish.inner.qos.lessValue rel.opts.qos
        packetId := none
        properties := forwardProperties publish.inner.properties rel.subIds } }

/-- The recipients a delivery counts for: the members of the group, or the client. -/
def recipientsOf (rel : SubRelation) : ForwardedRecipients :=
  match rel.group with
  | some group =>
      group.clientIds.map fun cid =>
        if cid = rel.clientId then (cid, some (rel.topicFilter, group.group)) else (cid, none)
  | none => [(rel.clientId, none)]

variable {F : Type} (peer : Nat → ClientId → Option Peer) (source : F) (publish : Publish)

/-- The body of the loop. -/
def forwardOne (st : Forwarding F) : SubRelation × Nat → Forwarding F
  | (rel, i) =>
      let p := forwardCopy publish rel
      match peer i rel.clientId with
      | none =>
          { st with errs := st.errs ++
              [(i, ⟨Id.ofClient 0 rel.clientId, source, p, "the client has disconnected"⟩)] }
      | some ⟨dest, false⟩ =>
          { st with errs := st.errs ++ [(i, ⟨dest, source, p, "Connection Tx is closed"⟩)] }
      | some ⟨dest, true⟩ =>
          { st with
            sent := st.sent ++ [(i, ⟨dest, source, p⟩)]
            okRecipients := st.okRecipients ++ recipientsOf rel }

/-- The loop of `DefaultShared::forwards_to`. -/
def forwardsTo (relations : SubRelations) : Forwarding F :=
  relations.zipIdx.foldl (forwardOne peer source publish) {}

/-- The result of `DefaultShared::forwards_to`. -/
def forwardsToResult (relations : SubRelations) :
    Except (ForwardedRecipients × List (Failure F)) ForwardedRecipients :=
  let st := forwardsTo peer source publish relations
  if st.errs.isEmpty then .ok st.okRecipients else .error (st.okRecipients, st.errs.map Prod.snd)

/-! ## What the loop does -/

/-- The copy for the `i`-th relation is sent. -/
def Delivers (i : Nat) (rel : SubRelation) : Prop := ∃ dest, peer i rel.clientId = some ⟨dest, true⟩

/-- One relation adds one copy sent or one error. -/
theorem forwardOne_cases (st : Forwarding F) (rel : SubRelation) (i : Nat) :
    (∃ dest, peer i rel.clientId = some ⟨dest, true⟩ ∧
      (forwardOne peer source publish st (rel, i)).sent =
        st.sent ++ [(i, ⟨dest, source, forwardCopy publish rel⟩)] ∧
      (forwardOne peer source publish st (rel, i)).errs = st.errs) ∨
    (¬ Delivers peer i rel ∧ (forwardOne peer source publish st (rel, i)).sent = st.sent ∧
      ∃ dest reason, (forwardOne peer source publish st (rel, i)).errs =
        st.errs ++ [(i, ⟨dest, source, forwardCopy publish rel, reason⟩)]) := by
  rw [forwardOne, Delivers]
  rcases peer i rel.clientId with _ | ⟨dest, _ | _⟩
  · exact .inr ⟨fun ⟨_, h⟩ => (by cases h), rfl, _, _, rfl⟩
  · exact .inr ⟨fun ⟨_, h⟩ => (by cases h), rfl, _, _, rfl⟩
  · exact .inl ⟨dest, rfl, rfl, rfl⟩

/-- What the loop has sent: the copies of the relations that deliver. -/
theorem mem_sent_foldl (l : List (SubRelation × Nat)) (st : Forwarding F) (i : Nat) (m : Sent F) :
    (i, m) ∈ (l.foldl (forwardOne peer source publish) st).sent ↔
      (i, m) ∈ st.sent ∨ ∃ rel, (rel, i) ∈ l ∧ peer i rel.clientId = some ⟨m.dest, true⟩ ∧
        m.source = source ∧ m.publish = forwardCopy publish rel := by
  induction l generalizing st with
  | nil => simp
  | cons e l ih =>
      rcases e with ⟨rel, j⟩
      rw [List.foldl_cons, ih]
      rcases forwardOne_cases peer source publish st rel j with
        ⟨dest, hpeer, sent, -⟩ | ⟨stays, sent, -⟩
      · rw [sent, List.mem_append, List.mem_singleton]
        constructor
        · rintro ((old | new) | ⟨rel', hmem, h⟩)
          · exact .inl old
          · rcases Prod.mk.inj new with ⟨rfl, rfl⟩
            exact .inr ⟨rel, List.mem_cons_self, hpeer, rfl, rfl⟩
          · exact .inr ⟨rel', List.mem_cons_of_mem _ hmem, h⟩
        · rintro (old | ⟨rel', hmem, hpeer', hsource, hpublish⟩)
          · exact .inl (.inl old)
          · rcases List.mem_cons.mp hmem with heq | hmem
            · rcases Prod.mk.inj heq with ⟨rfl, rfl⟩
              refine .inl (.inr ?_)
              rcases m with ⟨mto, msource, mpublish⟩
              rw [hpeer] at hpeer'
              cases hpeer'
              cases hsource
              cases hpublish
              rfl
            · exact .inr ⟨rel', hmem, hpeer', hsource, hpublish⟩
      · rw [sent]
        refine or_congr_right (exists_congr fun rel' => and_congr_left fun h => ?_)
        rw [List.mem_cons]
        refine ⟨.inr, fun hmem => hmem.resolve_left ?_⟩
        intro heq
        rcases Prod.mk.inj heq with ⟨rfl, rfl⟩
        exact stays ⟨_, h.1⟩

theorem contributes_foldl (l : List (SubRelation × Nat)) (st : Forwarding F) :
    ((l.foldl (forwardOne peer source publish) st).sent.map Prod.fst ++
        (l.foldl (forwardOne peer source publish) st).errs.map Prod.fst).Perm
      (st.sent.map Prod.fst ++ st.errs.map Prod.fst ++ l.map Prod.snd) := by
  induction l generalizing st with
  | nil => simp
  | cons e l ih =>
      rcases e with ⟨rel, i⟩
      rw [List.foldl_cons]
      refine (ih _).trans ?_
      rcases forwardOne_cases peer source publish st rel i with
        ⟨dest, -, sent, errs⟩ | ⟨-, sent, dest, reason, errs⟩
      · rw [sent, errs]
        simp only [List.map_append, List.map_cons, List.map_nil, List.append_assoc]
        refine List.Perm.append_left _ ?_
        rw [List.singleton_append]
        exact List.perm_middle.symm
      · rw [sent, errs]
        simp

/-- Every relation has one copy sent, or one entry in the errors. -/
theorem forwardsTo_contributes (relations : SubRelations) :
    ((forwardsTo peer source publish relations).sent.map Prod.fst ++
        (forwardsTo peer source publish relations).errs.map Prod.fst).Perm
      (List.range relations.length) := by
  have all := contributes_foldl peer source publish relations.zipIdx {}
  rw [List.zipIdx_map_snd, ← List.range_eq_range'] at all
  exact all

/-! ## The metadata of a copy -/

/-- The copy carries exactly the right metadata. -/
structure CopyOf (publish : Publish) (rel : SubRelation) (p : Publish) : Prop where
  packetId : p.inner.packetId = none
  dup : p.inner.dup = false
  qos : p.inner.qos.value = min publish.inner.qos.value rel.opts.qos.value
  retain : p.inner.retain = true ↔
    publish.inner.retain = true ∧ rel.opts.retainAsPublished = some true
  identifiers : (p.inner.properties.map fun q => q.subscriptionIds).getD [] = rel.subIds.getD []

/-- The identifiers of the relation can be written to the copy, and replace those of the
publisher: there are properties to write them to, or there is nothing to write and
nothing to replace. -/
def IdentifiersReach (publish : Publish) (rel : SubRelation) : Prop :=
  match publish.inner.properties, rel.subIds with
  | none, subIds => subIds.getD [] = []
  | some _, some _ => True
  | some q, none => q.subscriptionIds = []

theorem lessValue_value (q q' : QoS) : (q.lessValue q').value = min q.value q'.value := by
  cases q <;> cases q' <;> rfl

theorem forwardRetain_iff (publish : Codec.Publish) (opts : SubscriptionOptions) :
    forwardRetain publish opts = true ↔
      publish.retain = true ∧ opts.retainAsPublished = some true := by
  unfold forwardRetain
  rcases opts.retainAsPublished with _ | _ | _ <;> simp

theorem copyOf_forwardCopy_iff (rel : SubRelation) :
    CopyOf publish rel (forwardCopy publish rel) ↔ IdentifiersReach publish rel := by
  have identifiers : ((forwardCopy publish rel).inner.properties.map fun q =>
      q.subscriptionIds).getD [] = rel.subIds.getD [] ↔ IdentifiersReach publish rel := by
    rw [forwardCopy, IdentifiersReach]
    dsimp only
    rcases publish.inner.properties with _ | q <;> rcases rel.subIds with _ | ids <;>
      simp [forwardProperties, eq_comm]
  constructor
  · intro copy
    exact identifiers.mp copy.identifiers
  · intro reach
    exact ⟨rfl, rfl, lessValue_value _ _, forwardRetain_iff _ _, identifiers.mpr reach⟩

/-- A publish is forwarded with exactly the right metadata on every copy, one copy or one
error for each relation, exactly when the identifiers of every relation that delivers
reach its copy. -/
theorem forwards_to_iff (relations : SubRelations) :
    (((forwardsTo peer source publish relations).sent.map Prod.fst ++
          (forwardsTo peer source publish relations).errs.map Prod.fst).Perm
        (List.range relations.length) ∧
      ∀ i m, (i, m) ∈ (forwardsTo peer source publish relations).sent →
        ∀ rel, relations[i]? = some rel → CopyOf publish rel m.publish) ↔
      ∀ i rel, relations[i]? = some rel → Delivers peer i rel → IdentifiersReach publish rel := by
  have sent := mem_sent_foldl peer source publish relations.zipIdx {}
  constructor
  · rintro ⟨-, copies⟩ i rel hrel ⟨dest, hpeer⟩
    have hmem := (sent i ⟨dest, source, forwardCopy publish rel⟩).mpr
      (.inr ⟨rel, List.mem_zipIdx_iff_getElem?.mpr hrel, hpeer, rfl, rfl⟩)
    exact (copyOf_forwardCopy_iff publish rel).mp (copies i _ hmem rel hrel)
  · intro reach
    refine ⟨forwardsTo_contributes peer source publish relations, fun i m hm rel hrel => ?_⟩
    rcases (sent i m).mp hm with old | ⟨rel', hrel', hpeer, -, hpublish⟩
    · cases old
    · have same := List.mem_zipIdx_iff_getElem?.mp hrel'
      rw [hrel] at same
      cases same
      rw [hpublish, copyOf_forwardCopy_iff]
      exact reach i _ hrel ⟨_, hpeer⟩

/-- A subscription with an identifier gets no identifier on a publish of a v3 client. -/
theorem forwards_without_identifiers :
    ¬ ∀ (peer : Nat → ClientId → Option Peer) (publish : Publish) (relations : SubRelations) (i : Nat)
      (m : Sent Unit), (i, m) ∈ (forwardsTo peer () publish relations).sent →
        ∀ rel, relations[i]? = some rel → CopyOf publish rel m.publish := by
  intro right
  let publish : Publish := ⟨⟨false, false, .atMostOnce, "a", none, [], none⟩, none, none, none⟩
  let rel : SubRelation :=
    ⟨"a", "c", .v5 ⟨.atMostOnce, none, none, false, false, .atSubscribe, some ⟨7, by decide⟩⟩,
      some [⟨7, by decide⟩], none⟩
  have copy := right (fun _ c => some ⟨Id.ofClient 1 c, true⟩) publish [rel] 0
    ⟨Id.ofClient 1 "c", (), forwardCopy publish rel⟩ List.mem_cons_self rel rfl
  exact absurd copy.identifiers (by decide)

end OxiMqtt.Router

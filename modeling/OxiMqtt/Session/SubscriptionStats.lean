import Mathlib.Algebra.BigOperators.Group.Finset.Basic
import OxiMqtt.Session.Subscriptions

/-!
# The statistics of the session maps

The maps of all sessions count in two statistics, `subscriptions` and `subscriptions_shared`.
`_add` and `_remove` are those of the server; here are the calls that go through a whole map:
`SessionSubs::_drain`, `_extend` and `clear` of `types.rs`.

A call takes the lock of its map several times; the calls of a run come one after the other.

* `Exact.update`: a map changes by a weight, and the counter by the same number.
* `Exact.step`: every call keeps both counters the sums over the maps.
* `extend_drain`: what is drained from one map fills an empty one with the same entries.
-/

namespace OxiMqtt.Session.Subscriptions

open Collections
open Router (TopicFilter ClientId SubscriptionOptions Counter)

/-- `SessionSubMap` -/
abbrev SessionSubMap : Type := Assoc TopicFilter SubscriptionOptions

/-- `Subscriptions` -/
abbrev SubscriptionList : Type := List (TopicFilter × SubscriptionOptions)

/-- `opts.has_shared_group()`, of an entry. -/
def isShared (e : TopicFilter × SubscriptionOptions) : Bool := e.2.sharedGroup.isSome

/-- `SessionSubs::shared_len` -/
def sharedLen (subs : SessionSubMap) : Nat := (subs.filter isShared).length

namespace State

/-- The loop of `_drain` over the keys it has read. -/
def drainKeys (c : ClientId) : State → List TopicFilter → State × SubscriptionList
  | s, [] => (s, [])
  | s, tf :: topicFilters =>
      let removed := s.removeSub c tf
      let rest := drainKeys c removed.1 topicFilters
      match removed.2 with
      | some opts => (rest.1, (tf, opts) :: rest.2)
      | none => rest

/-- `SessionSubs::_drain` -/
def drainSubs (walk : Walk TopicFilter) (s : State) (c : ClientId) : State × SubscriptionList :=
  drainKeys c s (walk.visit ((s.subs c).map Prod.fst))

/-- `SessionSubs::_extend` -/
def extendSubs (s : State) (c : ClientId) (subs : SubscriptionList) : State :=
  subs.foldl (fun s e => (s.addSub c e.1 e.2).1) s

/-- A round of the loop of `clear`. -/
def uncount (s : State) (opts : SubscriptionOptions) : State :=
  { s with
    subscriptions := s.subscriptions.dec
    subscriptionsShared :=
      if opts.sharedGroup.isSome then s.subscriptionsShared.dec else s.subscriptionsShared }

/-- `SessionSubs::clear` -/
def clearSubs (walk : Walk SubscriptionOptions) (s : State) (c : ClientId) : State :=
  let s := (walk.visit ((s.subs c).map Prod.snd)).foldl uncount s
  { s with subs := Function.update s.subs c [] }

end State

/-- A call on the map of a client. -/
inductive SubsCall : Type
  | add (c : ClientId) (topicFilter : TopicFilter) (opts : SubscriptionOptions)
  | remove (c : ClientId) (topicFilter : TopicFilter)
  | drain (c : ClientId) (walk : Walk TopicFilter)
  | extend (c : ClientId) (subs : SubscriptionList)
  | clear (c : ClientId) (walk : Walk SubscriptionOptions)

namespace SubsCall

def client : SubsCall → ClientId
  | add c _ _ => c
  | remove c _ => c
  | drain c _ => c
  | extend c _ => c
  | clear c _ => c

def step (s : State) : SubsCall → State
  | add c topicFilter opts => (s.addSub c topicFilter opts).1
  | remove c topicFilter => (s.removeSub c topicFilter).1
  | drain c walk => (s.drainSubs walk c).1
  | extend c subs => s.extendSubs c subs
  | clear c walk => s.clearSubs walk c

/-- The clients whose maps the calls are on. -/
def clients (calls : List SubsCall) : Finset ClientId := (calls.map client).toFinset

end SubsCall

/-! ## One map -/

/-- What a subscription counts in `subscriptions_shared`. -/
def sharedWeight (opts : SubscriptionOptions) : Nat := if opts.sharedGroup.isSome then 1 else 0

theorem sharedLen_eq_weight (subs : SessionSubMap) : sharedLen subs = subs.weight sharedWeight := by
  induction subs with
  | nil => rfl
  | cons e subs ih =>
      unfold sharedLen Assoc.weight at ih ⊢
      rw [List.map_cons, List.sum_cons, ← ih, sharedWeight]
      by_cases shared : e.2.sharedGroup.isSome = true
      · rw [List.filter_cons_of_pos (p := isShared) shared, List.length_cons, if_pos shared,
          Nat.add_comm]
      · rw [List.filter_cons_of_neg (p := isShared) shared, if_neg shared, Nat.zero_add]

/-- The map of one client changes, and the counters by what it weighs before and after. -/
structure Changes (s s' : State) (c : ClientId) : Prop where
  others : ∀ c', c' ≠ c → s'.subs c' = s.subs c'
  total : s'.subscriptions.count + (s.subs c).length = s.subscriptions.count + (s'.subs c).length
  shared : s'.subscriptionsShared.count + sharedLen (s.subs c) =
    s.subscriptionsShared.count + sharedLen (s'.subs c)

variable {s s' s'' : State} {c : ClientId}

theorem Changes.refl (s : State) (c : ClientId) : Changes s s c := ⟨fun _ _ => rfl, rfl, rfl⟩

theorem Changes.trans (h : Changes s s' c) (h' : Changes s' s'' c) : Changes s s'' c := by
  refine ⟨fun c' ne => (h'.others c' ne).trans (h.others c' ne), ?_, ?_⟩
  · have first := h.total
    have second := h'.total
    omega
  · have first := h.shared
    have second := h'.shared
    omega

theorem subs_addSub_eq (s : State) (c : ClientId) (f : TopicFilter) (opts : SubscriptionOptions) :
    (s.addSub c f opts).1.subs = Function.update s.subs c ((s.subs c).insert f opts) := by
  unfold State.addSub
  dsimp only
  split
  · split <;> rfl
  · rfl

theorem subs_removeSub_eq (s : State) (c : ClientId) (f : TopicFilter) :
    (s.removeSub c f).1.subs = Function.update s.subs c ((s.subs c).erase f) := by
  unfold State.removeSub
  dsimp only
  split <;> rfl

/-- What `_add` does to the counters, by what was there. -/
theorem counts_addSub (s : State) (c : ClientId) (f : TopicFilter) (opts : SubscriptionOptions) :
    (s.addSub c f opts).1.subscriptions.count +
        ((((s.subs c).lookup f).map fun _ => 1).getD 0 : Nat) = s.subscriptions.count + 1 ∧
      (s.addSub c f opts).1.subscriptionsShared.count +
        (((s.subs c).lookup f).map sharedWeight).getD 0 =
          s.subscriptionsShared.count + sharedWeight opts := by
  unfold State.addSub sharedWeight
  cases (s.subs c).lookup f with
  | none => cases opts.sharedGroup.isSome <;> simp [Counter.inc]
  | some prev =>
      cases old : prev.sharedGroup.isSome <;> cases opts.sharedGroup.isSome <;>
        simp [Counter.inc, Counter.dec, old]

/-- What `_remove` does to the counters. -/
theorem counts_removeSub (s : State) (c : ClientId) (f : TopicFilter) :
    (s.removeSub c f).1.subscriptions.count +
        ((((s.subs c).lookup f).map fun _ => 1).getD 0 : Nat) = s.subscriptions.count ∧
      (s.removeSub c f).1.subscriptionsShared.count +
        (((s.subs c).lookup f).map sharedWeight).getD 0 = s.subscriptionsShared.count := by
  unfold State.removeSub sharedWeight
  cases (s.subs c).lookup f with
  | none => simp
  | some prev => cases old : prev.sharedGroup.isSome <;> simp [Counter.dec, old]

theorem Changes.addSub (nodup : (s.subs c).NodupKeys) (f : TopicFilter)
    (opts : SubscriptionOptions) : Changes s (s.addSub c f opts).1 c := by
  have after : (s.addSub c f opts).1.subs c = (s.subs c).insert f opts := by
    rw [subs_addSub_eq, Function.update_self]
  obtain ⟨total, shared⟩ := counts_addSub s c f opts
  have length := nodup.weight_insert (fun _ => 1) f opts
  have sharedLength := nodup.weight_insert sharedWeight f opts
  refine ⟨fun c' ne => by rw [subs_addSub_eq, Function.update_of_ne ne], ?_, ?_⟩
  · rw [after, Assoc.length_eq_weight, Assoc.length_eq_weight]
    omega
  · rw [after, sharedLen_eq_weight, sharedLen_eq_weight]
    omega

theorem Changes.removeSub (nodup : (s.subs c).NodupKeys) (f : TopicFilter) :
    Changes s (s.removeSub c f).1 c := by
  have after : (s.removeSub c f).1.subs c = (s.subs c).erase f := by
    rw [subs_removeSub_eq, Function.update_self]
  obtain ⟨total, shared⟩ := counts_removeSub s c f
  have length := nodup.weight_erase (fun _ => 1) f
  have sharedLength := nodup.weight_erase sharedWeight f
  refine ⟨fun c' ne => by rw [subs_removeSub_eq, Function.update_of_ne ne], ?_, ?_⟩
  · rw [after, Assoc.length_eq_weight, Assoc.length_eq_weight]
    omega
  · rw [after, sharedLen_eq_weight, sharedLen_eq_weight]
    omega

/-! ## A whole map -/

/-- The map keeps one entry for a filter. -/
theorem nodup_addSub (nodup : (s.subs c).NodupKeys) (f : TopicFilter) (opts : SubscriptionOptions) :
    ((s.addSub c f opts).1.subs c).NodupKeys := by
  rw [subs_addSub_eq, Function.update_self]
  exact nodup.insert f opts

theorem nodup_removeSub (nodup : (s.subs c).NodupKeys) (f : TopicFilter) :
    ((s.removeSub c f).1.subs c).NodupKeys := by
  rw [subs_removeSub_eq, Function.update_self]
  exact nodup.erase f

theorem Changes.drainKeys (nodup : (s.subs c).NodupKeys) (topicFilters : List TopicFilter) :
    Changes s (s.drainKeys c topicFilters).1 c ∧
      ((s.drainKeys c topicFilters).1.subs c).NodupKeys := by
  induction topicFilters generalizing s with
  | nil => exact ⟨.refl s c, nodup⟩
  | cons f topicFilters ih =>
      obtain ⟨rest, nodup'⟩ := ih (nodup_removeSub nodup f)
      have same : (s.drainKeys c (f :: topicFilters)).1 =
          ((s.removeSub c f).1.drainKeys c topicFilters).1 := by
        rw [State.drainKeys]
        split <;> rfl
      rw [same]
      exact ⟨(Changes.removeSub nodup f).trans rest, nodup'⟩

theorem Changes.extendSubs (nodup : (s.subs c).NodupKeys) (subs : SubscriptionList) :
    Changes s (s.extendSubs c subs) c ∧ ((s.extendSubs c subs).subs c).NodupKeys := by
  induction subs generalizing s with
  | nil => exact ⟨.refl s c, nodup⟩
  | cons e subs ih =>
      obtain ⟨rest, nodup'⟩ := ih (nodup_addSub nodup e.1 e.2)
      exact ⟨(Changes.addSub nodup e.1 e.2).trans rest, nodup'⟩

/-- The loop of `clear` counts every value down. -/
theorem counts_uncount (s : State) (values : List SubscriptionOptions) :
    (values.foldl State.uncount s).subs = s.subs ∧
      (values.foldl State.uncount s).subscriptions.count + values.length =
        s.subscriptions.count ∧
      (values.foldl State.uncount s).subscriptionsShared.count + (values.map sharedWeight).sum =
        s.subscriptionsShared.count := by
  induction values generalizing s with
  | nil => exact ⟨rfl, by simp, by simp⟩
  | cons opts values ih =>
      obtain ⟨subs, total, shared⟩ := ih (s.uncount opts)
      have first : (s.uncount opts).subscriptionsShared.count + sharedWeight opts =
          s.subscriptionsShared.count := by
        unfold State.uncount sharedWeight
        cases opts.sharedGroup.isSome <;> simp [Counter.dec]
      refine ⟨subs, ?_, ?_⟩
      · rw [List.foldl_cons, List.length_cons]
        have one : (s.uncount opts).subscriptions.count + 1 = s.subscriptions.count := by
          simp [State.uncount, Counter.dec]
        omega
      · rw [List.foldl_cons, List.map_cons, List.sum_cons]
        omega

theorem Changes.clearSubs (walk : Walk SubscriptionOptions) (s : State) (c : ClientId) :
    Changes s (s.clearSubs walk c) c ∧ ((s.clearSubs walk c).subs c).NodupKeys := by
  obtain ⟨subs, total, shared⟩ := counts_uncount s (walk.visit ((s.subs c).map Prod.snd))
  have perm := walk.perm ((s.subs c).map Prod.snd)
  have after : (s.clearSubs walk c).subs = Function.update s.subs c [] := by
    rw [← subs]
    rfl
  have empty : (s.clearSubs walk c).subs c = [] := by rw [after, Function.update_self]
  rw [perm.length_eq, List.length_map] at total
  rw [(perm.map sharedWeight).sum_eq, List.map_map] at shared
  have weight : ((s.subs c).map (sharedWeight ∘ Prod.snd)).sum = sharedLen (s.subs c) :=
    (sharedLen_eq_weight _).symm
  refine ⟨⟨fun c' ne => by rw [after, Function.update_of_ne ne], ?_, ?_⟩, ?_⟩
  · rw [empty]
    exact total.trans (add_zero _).symm
  · rw [empty, ← weight]
    exact shared.trans (add_zero _).symm
  · rw [empty]
    exact Assoc.nodupKeys_nil

theorem Changes.step (call : SubsCall) (nodup : (s.subs call.client).NodupKeys) :
    Changes s (call.step s) call.client ∧ ((call.step s).subs call.client).NodupKeys := by
  cases call with
  | add c f opts => exact ⟨.addSub nodup f opts, nodup_addSub nodup f opts⟩
  | remove c f => exact ⟨.removeSub nodup f, nodup_removeSub nodup f⟩
  | drain c walk => exact Changes.drainKeys nodup _
  | extend c subs => exact Changes.extendSubs nodup subs
  | clear c walk => exact Changes.clearSubs walk s c

/-! ## The sums over all maps -/

/-- The counters are the sums over the maps of these clients, and the others have none. -/
structure Exact (clients : Finset ClientId) (s : State) : Prop where
  nodup : ∀ c, (s.subs c).NodupKeys
  others : ∀ c ∉ clients, s.subs c = []
  total : s.subscriptions.count = ∑ c ∈ clients, ((s.subs c).length : Int)
  shared : s.subscriptionsShared.count = ∑ c ∈ clients, (sharedLen (s.subs c) : Int)

theorem Exact.new (clients : Finset ClientId) : Exact clients {} where
  nodup := fun _ => Assoc.nodupKeys_nil
  others := fun _ _ => rfl
  total := (Finset.sum_const_zero).symm
  shared := (Finset.sum_const_zero).symm

/-- One summand changes. -/
theorem sum_changes {clients : Finset ClientId} (hc : c ∈ clients) {f g : ClientId → Int}
    (others : ∀ c', c' ≠ c → g c' = f c') :
    ∑ c' ∈ clients, g c' + f c = ∑ c' ∈ clients, f c' + g c := by
  have rest : ∑ c' ∈ clients.erase c, g c' = ∑ c' ∈ clients.erase c, f c' :=
    Finset.sum_congr rfl fun c' h => others c' (Finset.ne_of_mem_erase h)
  have whole := Finset.add_sum_erase clients f hc
  have whole' := Finset.add_sum_erase clients g hc
  omega

theorem Exact.of_changes {clients : Finset ClientId} (exact : Exact clients s)
    (hc : c ∈ clients) (changes : Changes s s' c) (nodup : (s'.subs c).NodupKeys) :
    Exact clients s' := by
  refine ⟨fun c' => ?_, fun c' h => ?_, ?_, ?_⟩
  · by_cases same : c' = c
    · exact same ▸ nodup
    · rw [changes.others c' same]
      exact exact.nodup c'
  · rw [changes.others c' fun same => h (same ▸ hc)]
    exact exact.others c' h
  · have sum := sum_changes hc (f := fun c' => ((s.subs c').length : Int))
      (g := fun c' => ((s'.subs c').length : Int)) fun c' ne => by rw [changes.others c' ne]
    have count := changes.total
    have before := exact.total
    omega
  · have sum := sum_changes hc (f := fun c' => (sharedLen (s.subs c') : Int))
      (g := fun c' => (sharedLen (s'.subs c') : Int)) fun c' ne => by rw [changes.others c' ne]
    have count := changes.shared
    have before := exact.shared
    omega

theorem Exact.step {clients : Finset ClientId} (exact : Exact clients s) (call : SubsCall)
    (hc : call.client ∈ clients) : Exact clients (call.step s) := by
  obtain ⟨changes, nodup⟩ := Changes.step call (exact.nodup call.client)
  exact exact.of_changes hc changes nodup

theorem Exact.run {clients : Finset ClientId} (exact : Exact clients s) (calls : List SubsCall)
    (hc : ∀ call ∈ calls, call.client ∈ clients) : Exact clients (calls.foldl SubsCall.step s) := by
  induction calls generalizing s with
  | nil => exact exact
  | cons call calls ih =>
      exact ih (exact.step call (hc call List.mem_cons_self)) fun later h =>
        hc later (List.mem_cons_of_mem _ h)

/-! ## Draining and extending -/

/-- The entries of the keys come out in their order, and are no longer in the map. -/
theorem drainKeys_spec (nodup : (s.subs c).NodupKeys) (topicFilters : List TopicFilter)
    (distinct : topicFilters.Nodup) :
    (s.drainKeys c topicFilters).2 =
        topicFilters.filterMap (fun f => ((s.subs c).lookup f).map fun opts => (f, opts)) ∧
      (s.drainKeys c topicFilters).1.subs c = (s.subs c).filter fun e => e.1 ∉ topicFilters := by
  induction topicFilters generalizing s with
  | nil => exact ⟨rfl, by simp [State.drainKeys]⟩
  | cons f topicFilters ih =>
      obtain ⟨fresh, distinct⟩ := List.nodup_cons.mp distinct
      have removed : (s.removeSub c f).1.subs c = (s.subs c).erase f := by
        rw [subs_removeSub_eq, Function.update_self]
      obtain ⟨out, left⟩ := ih (nodup_removeSub nodup f) distinct
      have answer : (s.removeSub c f).2 = (s.subs c).lookup f := rfl
      have later : topicFilters.filterMap (fun f' =>
            (((s.subs c).erase f).lookup f').map fun opts => (f', opts)) =
          topicFilters.filterMap fun f' => ((s.subs c).lookup f').map fun opts => (f', opts) := by
        refine List.filterMap_congr fun f' hf' => ?_
        have other : f' ≠ f := fun same => fresh (same ▸ hf')
        rw [Assoc.lookup_erase_of_ne _ other]
      rw [removed] at out left
      rw [later] at out
      have without : ((s.subs c).erase f).filter (fun e => e.1 ∉ topicFilters) =
          (s.subs c).filter fun e => e.1 ∉ f :: topicFilters := by
        rw [Assoc.erase, List.filter_filter]
        refine List.filter_congr fun e _ => ?_
        simp only [List.mem_cons, not_or, Bool.decide_and, Bool.and_comm]
      rw [State.drainKeys, answer]
      cases found : (s.subs c).lookup f with
      | none =>
          refine ⟨?_, left.trans without⟩
          rw [List.filterMap_cons_none (by rw [found, Option.map_none])]
          exact out
      | some opts =>
          refine ⟨?_, left.trans without⟩
          rw [List.filterMap_cons_some (by rw [found, Option.map_some])]
          exact congrArg _ out

theorem filterMap_lookup_keys {m : SessionSubMap} (nodup : m.NodupKeys) :
    (m.map Prod.fst).filterMap (fun f => (m.lookup f).map fun opts => (f, opts)) = m := by
  have entry : ∀ e ∈ m, (m.lookup e.1).map (fun opts => (e.1, opts)) = some e := by
    intro e he
    rw [nodup.mem_iff_lookup.mp he, Option.map_some]
  rw [List.filterMap_map]
  exact (List.filterMap_congr entry).trans List.filterMap_some

/-- All entries come out, and the map is empty. -/
theorem drainSubs_spec (walk : Walk TopicFilter) (nodup : (s.subs c).NodupKeys) :
    (s.drainSubs walk c).2.Perm (s.subs c) ∧ (s.drainSubs walk c).1.subs c = [] := by
  have perm := walk.perm ((s.subs c).map Prod.fst)
  obtain ⟨out, left⟩ := drainKeys_spec nodup (walk.visit ((s.subs c).map Prod.fst))
    (perm.nodup_iff.mpr nodup)
  constructor
  · have moved := perm.filterMap fun f => ((s.subs c).lookup f).map fun opts => (f, opts)
    rw [filterMap_lookup_keys nodup, ← out] at moved
    exact moved
  · refine left.trans (List.filter_eq_nil_iff.mpr fun e he => ?_)
    rw [decide_eq_true_eq, not_not]
    exact perm.mem_iff.mpr (List.mem_map_of_mem he)

/-- Entries with new keys are put in. -/
theorem extendSubs_spec (subs : SubscriptionList) (nodup : Assoc.NodupKeys (subs ++ s.subs c)) :
    ((s.extendSubs c subs).subs c).Perm (subs ++ s.subs c) := by
  induction subs generalizing s with
  | nil => exact List.Perm.refl _
  | cons e subs ih =>
      have fresh : (s.subs c).erase e.1 = s.subs c := by
        have absent := (List.nodup_cons.mp nodup).1
        refine List.filter_eq_self.mpr fun e' he' => decide_eq_true fun same => absent ?_
        exact same ▸ List.mem_map_of_mem (List.mem_append_right subs he')
      have added : (s.addSub c e.1 e.2).1.subs c = e :: s.subs c := by
        rw [subs_addSub_eq, Function.update_self, Assoc.insert, fresh]
      have moved : (subs ++ e :: s.subs c).Perm (e :: (subs ++ s.subs c)) := List.perm_middle
      have rest := @ih (s.addSub c e.1 e.2).1
      rw [added] at rest
      exact (rest (nodup.perm moved)).trans moved

/-- What is drained from a map fills an empty one with the same entries. -/
theorem extend_drain (walk : Walk TopicFilter) (nodup : (s.subs c).NodupKeys) {c' : ClientId}
    (empty : (s.drainSubs walk c).1.subs c' = []) :
    (((s.drainSubs walk c).1.extendSubs c' (s.drainSubs walk c).2).subs c').Perm (s.subs c) := by
  obtain ⟨out, -⟩ := drainSubs_spec walk nodup
  have filled := @extendSubs_spec (s.drainSubs walk c).1 c' (s.drainSubs walk c).2
  rw [empty, List.append_nil] at filled
  exact (filled (nodup.perm out)).trans out

/-- After any calls, the statistics are the sums over the maps, and draining a map into an empty one
moves its entries. -/
theorem statistics_exact (calls : List SubsCall) :
    let s := calls.foldl SubsCall.step {}
    (s.subscriptions.count = ∑ c ∈ SubsCall.clients calls, ((s.subs c).length : Int) ∧
        s.subscriptionsShared.count = ∑ c ∈ SubsCall.clients calls, (sharedLen (s.subs c) : Int) ∧
        ∀ c ∉ SubsCall.clients calls, s.subs c = []) ∧
      ∀ c c' walk, (s.drainSubs walk c).1.subs c' = [] →
        (((s.drainSubs walk c).1.extendSubs c' (s.drainSubs walk c).2).subs c').Perm
          (s.subs c) := by
  have exact : Exact (SubsCall.clients calls) (calls.foldl SubsCall.step {}) :=
    (Exact.new _).run calls fun call h => List.mem_toFinset.mpr (List.mem_map_of_mem h)
  exact ⟨⟨exact.total, exact.shared, exact.others⟩,
    fun c c' walk => extend_drain walk (exact.nodup c)⟩

end OxiMqtt.Session.Subscriptions

import OxiMqtt.Delivery.Machine
import OxiMqtt.RetainPages

/-!
# What a load finds

A load finds every retained message whose topic its filter matches, unless it has expired; and a
step of a publisher or of the purge leaves in the store what was there, or what the publisher has
stored.

* `mem_getMessage`: what is stored and lasts is found.
* `stored_of_step`: what is stored after a step.
* `Tended`, `Tended.step`: every message is stored under its own topic.
-/

namespace OxiMqtt

open Collections

namespace RetainNode

variable {V : Type}

/-- A tidy tree that only holds values under topic names. -/
theorem names_of_tidy {n : RetainNode V} (tidy : Trie.Tidy n)
    (free : ∀ path v, valueAt path n = some v → ∀ l ∈ path, l.isWildcard = false) : Names n := by
  induction tidy with
  | @intro n distinct filled below ih =>
      obtain ⟨value, bs⟩ := n
      have into : ∀ b ∈ bs, ∀ path v, valueAt path b.2 = some v →
          ∀ l ∈ b.1 :: path, l.isWildcard = false := by
        intro b member path v stored
        refine free (b.1 :: path) v ?_
        have branch : List.lookup b.1 bs = some b.2 := distinct.mem_iff_lookup.mp member
        rw [valueAt_cons, child, branches_mk, branch]
        exact stored
      refine .mk distinct (fun b member => ?_) fun b member => ?_
      · obtain ⟨path, held⟩ := (below b member).exists_payload (filled b member)
        rw [← valueAt_eq_payloadAt] at held
        obtain ⟨v, stored⟩ := Option.ne_none_iff_exists'.mp held
        exact into b member path v stored b.1 List.mem_cons_self
      · exact ih b member fun path v stored l hl =>
          into b member path v stored l (List.mem_cons_of_mem _ hl)

/-- A filter finds the topic names that it matches under the MQTT rules. -/
theorem mem_matches_of_names {n : RetainNode V} (names : Names n)
    (valid : ∀ (t : Topic) (v : V), valueAt t.levels n = some v → t.Valid) {f : Topic}
    (filter : f.Valid) {t : Topic} {v : V} :
    (t, v) ∈ n.matches f ↔ valueAt t.levels n = some v ∧ MqttMatches f t := by
  unfold RetainNode.matches
  rw [mem_matchesPath names filter.multi_last]
  constructor
  · intro found
    obtain ⟨p, ⟨levels, stored⟩, rule, -, shown⟩ := found
    obtain rfl : p = t.levels := levels.symm
    have name := valid t v stored
    exact ⟨stored, rule, fun isolated =>
      shown ((secluded_root_iff name.levels_valid f.levels).mpr isolated)⟩
  · intro h
    obtain ⟨stored, rule, shown⟩ := h
    have name := valid t v stored
    exact ⟨t.levels, ⟨rfl, stored⟩, rule, fun _ => name.nonempty, fun isolated =>
      shown ((secluded_root_iff name.levels_valid f.levels).mp isolated)⟩

end RetainNode

namespace RetainStorage

open DefaultRetainStorage
open OxiMqtt.Router (TopicName)

variable {F : Type}

/-! ## A load -/

/-- A deadline that has not passed had not passed before. -/
theorem TimedValue.isExpired_mono {V : Type} {tv : TimedValue V} {now later : Nat}
    (le : now ≤ later) (fresh : tv.isExpired later = false) : tv.isExpired now = false := by
  unfold TimedValue.isExpired at fresh ⊢
  cases deadline : tv.deadline with
  | none => rfl
  | some e =>
      rw [deadline] at fresh
      simp only [Option.map_some, Option.getD_some, decide_eq_false_iff_not] at fresh ⊢
      omega

theorem le_unexpiredMessage (env : Env) (n : Nat) (r : Topic × TimedValue (Retain F)) :
    n ≤ (unexpiredMessage env n r).2 := by
  unfold unexpiredMessage
  split <;> exact Nat.le_succ n

theorem le_readings (env : Env) (rs : List (Topic × TimedValue (Retain F))) (n : Nat) :
    n ≤ (filterMapReading (unexpiredMessage env) n rs).2 := by
  induction rs generalizing n with
  | nil => exact le_rfl
  | cons r rs ih => exact (le_unexpiredMessage env n r).trans (ih _)

/-- What has not expired by the end of a load is not left out of it. -/
theorem mem_filterMapReading {env : Env} (monotone : Monotone env.clock)
    {rs : List (Topic × TimedValue (Retain F))} {n : Nat} {r : Topic × TimedValue (Retain F)}
    (member : r ∈ rs)
    (fresh : r.2.isExpired
      (env.clock (filterMapReading (unexpiredMessage env) n rs).2) = false) :
    (r.1.toString, r.2.value) ∈ (filterMapReading (unexpiredMessage env) n rs).1 := by
  induction rs generalizing n with
  | nil => cases member
  | cons r' rs ih =>
      rw [filterMapReading] at fresh ⊢
      rcases List.mem_cons.mp member with rfl | member
      · have later : n ≤ (filterMapReading (unexpiredMessage env)
            (unexpiredMessage env n r).2 rs).2 :=
          (le_unexpiredMessage env n r).trans (le_readings env rs _)
        have now := TimedValue.isExpired_mono (monotone later) fresh
        refine List.mem_append_left _ ?_
        rw [unexpiredMessage, if_neg (by rw [now]; exact Bool.false_ne_true)]
        exact List.mem_singleton.mpr rfl
      · exact List.mem_append_right _ (ih member fresh)

/-- What a load returns is stored. -/
theorem mem_of_mem_filterMapReading {env : Env} {rs : List (Topic × TimedValue (Retain F))}
    {n : Nat}
    {e : TopicName × Retain F}
    (found : e ∈ (filterMapReading (unexpiredMessage env) n rs).1) :
    ∃ r ∈ rs, e = (r.1.toString, r.2.value) := by
  induction rs generalizing n with
  | nil => cases found
  | cons r rs ih =>
      rw [filterMapReading] at found
      rcases List.mem_append.mp found with first | rest
      · refine ⟨r, List.mem_cons_self, ?_⟩
        unfold unexpiredMessage at first
        split at first
        · cases first
        · exact List.mem_singleton.mp first
      · obtain ⟨r', member, same⟩ := ih rest
        exact ⟨r', List.mem_cons_of_mem _ member, same⟩

/-! ## A step of the store -/

namespace RamRetainer

/-- What the publisher is to store. -/
def Publisher.request? : Publisher F → Option (Request F)
  | .idle => none
  | .sized r => some r
  | .full r => some r
  | .admitted r => some r

/-- What is stored after a step was stored before, or is what the publisher has stored. -/
theorem stored_of_step {env : Env} {cfg : PluginConfig} {s s' : State F} {a : Action F}
    (inv : Inv s)
    (h : step env cfg s a = some s') {path : List Level} {tv : TimedValue (Retain F)}
    (stored : s'.inner.messages.valueAt path = some tv) :
    s.inner.messages.valueAt path = some tv ∨ ∃ p r, a = .resume p ∧ s.publishers p = .admitted r ∧
      s'.publishers p = .idle ∧ tv.value = r.retain ∧ Topic.fromStr r.topic = .ok ⟨path⟩ ∧
      ∃ readings, s.inner.setWithTimeout env s.readings r.topic r.retain
        (timeout cfg r.expiryInterval) = some (s'.inner, readings, .ok ()) := by
  obtain ⟨next, acted, rfl⟩ := Option.map_eq_some_iff.mp h
  dsimp only at stored ⊢
  cases a with
  | set p r =>
      rw [act] at acted
      split at acted
      · split at acted <;> cases acted <;> exact .inl stored
      · cases acted
  | resume p =>
      cases place : s.publishers p with
      | idle =>
          rw [act, place] at acted
          cases acted
      | sized r =>
          rw [act, place] at acted
          dsimp only at acted
          split at acted <;> cases acted <;> exact .inl stored
      | full r =>
          rw [(act_full place acted).1] at stored
          exact .inl stored
      | admitted r =>
          rw [act, place] at acted
          obtain ⟨⟨storage, readings, res⟩, done, rfl⟩ := Option.map_eq_some_iff.mp acted
          dsimp only at stored ⊢
          rcases setWithTimeout_cases done with ⟨e, -, rfl, -⟩ |
            ⟨t, parsed, rfl, ⟨-, tv', value, tree, -⟩ | ⟨-, tree, -⟩⟩
          · exact .inl stored
          · rw [tree, RetainNode.insert, RetainNode.valueAt_insertPath] at stored
            split at stored
            · rename_i same
              cases stored
              refine .inr ⟨p, r, rfl, place, Function.update_self .., value, ?_, readings, done⟩
              rw [parsed, same]
            · rw [RetainNode.remove, RetainNode.valueAt_removePath] at stored
              split at stored
              · cases stored
              · exact .inl stored
          · rw [tree, RetainNode.remove, RetainNode.valueAt_removePath] at stored
            split at stored
            · cases stored
            · exact .inl stored
  | removeExpiredMessages =>
      cases acted
      exact .inl (RetainNode.valueAt_of_retainMut (RetainNode.distinct_of_tidy inv.counted.tidy)
        stored)

/-- A publisher is to store what its `set` was called with. -/
theorem request_of_step {env : Env} {cfg : PluginConfig} {s s' : State F} {a : Action F}
    (h : step env cfg s a = some s') {p : Nat} {r : Request F}
    (at_ : (s'.publishers p).request? = some r) :
    (s.publishers p).request? = some r ∨ a = .set p r := by
  obtain ⟨next, acted, rfl⟩ := Option.map_eq_some_iff.mp h
  -- a publisher that moves keeps its request, or is idle
  have moved : ∀ (s : State F) (q : Nat) (place : Publisher F),
      ((s.moved q place).publishers p).request? = some r →
        (s.publishers p).request? = some r ∨ q = p ∧ place.request? = some r := by
    intro s q place at_
    unfold State.moved at at_
    dsimp only at at_
    rw [Function.update_apply] at at_
    split at at_
    · rename_i same
      exact .inr ⟨same.symm, at_⟩
    · exact .inl at_
  cases a with
  | set q r' =>
      rw [act] at acted
      split at acted
      · split at acted <;> cases acted
        · exact .inl at_
        · rcases moved s q _ at_ with before | ⟨rfl, same⟩
          · exact .inl before
          · cases same
            exact .inr rfl
      · cases acted
  | resume q =>
      left
      cases place : s.publishers q with
      | idle =>
          rw [act, place] at acted
          cases acted
      | sized r' =>
          rw [act, place] at acted
          dsimp only at acted
          split at acted <;> cases acted <;> rcases moved s q _ at_ with before | ⟨rfl, same⟩
          · exact before
          · rw [place]
            exact same
          · exact before
          · rw [place]
            exact same
      | full r' =>
          rw [act, place] at acted
          dsimp only at acted
          split at acted <;> cases acted
          · rcases moved _ q _ at_ with before | ⟨rfl, same⟩
            · exact before
            · cases same
          · rcases moved { s with readings := _ } q .idle at_ with before | ⟨rfl, same⟩
            · exact before
            · cases same
          · rcases moved _ q _ at_ with before | ⟨rfl, same⟩
            · exact before
            · rw [place]
              exact same
      | admitted r' =>
          rw [act, place] at acted
          obtain ⟨stored, -, rfl⟩ := Option.map_eq_some_iff.mp acted
          rcases moved s q .idle at_ with before | ⟨rfl, same⟩
          · exact before
          · cases same
  | removeExpiredMessages =>
      cases acted
      exact .inl at_

theorem readings_setWithTimeout {env : Env} {self self' : DefaultRetainStorage F}
    {readings readings' : Nat} {topic : TopicName} {retain : Retain F} {expiry : Option Nat}
    {res : Except TopicError Unit}
    (h : self.setWithTimeout env readings topic retain expiry = some (self', readings', res)) :
    readings ≤ readings' := by
  unfold setWithTimeout at h
  split at h
  · cases h
    exact le_rfl
  · dsimp only at h
    split at h
    · split at h
      · cases h
      · cases h
        exact Nat.le_succ readings
    · cases h
      exact le_rfl

theorem readings_getMessage (env : Env) (self : DefaultRetainStorage F) (readings : Nat)
    (topicFilter : TopicName) :
    readings ≤ (self.getMessage env readings topicFilter).2 := by
  unfold getMessage
  split
  · exact le_rfl
  · exact le_readings env _ readings

/-- The clock is never read again at a place before. -/
theorem readings_of_step {env : Env} {cfg : PluginConfig} {s s' : State F} {a : Action F}
    (h : step env cfg s a = some s') : s.readings ≤ s'.readings := by
  obtain ⟨next, acted, rfl⟩ := Option.map_eq_some_iff.mp h
  dsimp only
  cases a with
  | set p r =>
      rw [act] at acted
      split at acted
      · split at acted <;> cases acted <;> exact le_rfl
      · cases acted
  | resume p =>
      cases place : s.publishers p with
      | idle =>
          rw [act, place] at acted
          cases acted
      | sized r =>
          rw [act, place] at acted
          dsimp only at acted
          split at acted <;> cases acted <;> exact le_rfl
      | full r =>
          rw [act, place] at acted
          dsimp only at acted
          have later := readings_getMessage env s.inner s.readings r.topic
          split at acted <;> cases acted <;> exact later
      | admitted r =>
          rw [act, place] at acted
          obtain ⟨⟨storage, readings, res⟩, done, rfl⟩ := Option.map_eq_some_iff.mp acted
          exact readings_setWithTimeout done
  | removeExpiredMessages =>
      cases acted
      refine RetainNode.retainMut_invariant (S := Nat × Router.Counter)
        (P := fun _ c => s.readings ≤ c.1) ?_ _ _ le_rfl
      intro removed c tv le
      unfold keepUnexpired
      split <;> exact le.trans (Nat.le_succ _)

theorem idle_of_set {env : Env} {cfg : PluginConfig} {s s' : State F} {p : Nat} {r : Request F}
    (h : step env cfg s (.set p r) = some s') : s.publishers p = .idle := by
  obtain ⟨next, acted, -⟩ := Option.map_eq_some_iff.mp h
  cases place : s.publishers p with
  | idle => rfl
  | sized r' | full r' | admitted r' =>
      rw [act, place] at acted
      cases acted

end RamRetainer

end RetainStorage

/-! ## The store and the tasks -/

namespace Delivery

open OxiMqtt.Router
open OxiMqtt.RetainStorage (Retain TimedValue)

/-- The topic of the message is a topic name, if it is a topic. -/
def Message.Named (m : Message) : Prop :=
  ∀ t, Topic.fromStr m.publish.inner.topic = .ok t → t.WildcardFree

/-- What is published has a topic name. -/
def Action.Named : Action → Prop
  | .publish m => m.Named
  | _ => True

instance (m : Message) : Decidable m.Named :=
  match read : Topic.fromStr m.publish.inner.topic with
  | .error e => .isTrue fun t ok => by rw [read] at ok; cases ok
  | .ok t => decidable_of_iff t.WildcardFree
      ⟨fun free t' ok => by rw [read] at ok; cases ok; exact free, fun named => named t read⟩

instance (a : Action) : Decidable a.Named :=
  match a with
  | .publish m => inferInstanceAs (Decidable m.Named)
  | .subscribe _ | .proceed .. | .router _ | .removeExpiredMessages | .peer .. => .isTrue trivial

/-- The message is stored at the path. -/
def Stores (s : State) (path : List Level) (tv : TimedValue (Retain From)) : Prop :=
  s.retainer.inner.messages.valueAt path = some tv

/-- Every message is stored under its own topic, which is a topic name; and a publisher that is in
`set` is there with the message of its task. -/
structure Tended (s : State) : Prop where
  store : RetainStorage.RamRetainer.Inv s.retainer
  named : ∀ path tv, Stores s path tv →
    Topic.fromStr tv.value.publish.inner.topic = .ok ⟨path⟩ ∧ (⟨path⟩ : Topic).WildcardFree
  requests : ∀ k m, s.tasks[k]? = some (.storing m) → m.Named ∧
    ∀ r, (s.retainer.publishers k).request? = some r → r = m.request

theorem tended_init : Tended {} where
  store := ⟨RetainStorage.DefaultRetainStorage.counted_new, le_rfl⟩
  named path tv stored := by
    have absent : RetainNode.valueAt path
        (RetainNode.default : RetainTree (TimedValue (Retain From))) = none :=
      RetainNode.valueAt_default path
    cases absent.symm.trans stored
  requests k m at_ := by cases at_

variable {node : Node} {s s' : State}

/-- A task that does not touch the store goes on to a place outside of `set`. -/
theorem Tended.become (tended : Tended s) {k : Nat} {task : Task}
    (inner : s'.retainer.inner = s.retainer.inner) (peak : s'.retainer.peak = s.retainer.peak)
    (publishers : s'.retainer.publishers = s.retainer.publishers)
    (tasks : s'.tasks = s.tasks.set k task) (outside : ∀ m, task ≠ .storing m) : Tended s' where
  store := ⟨inner ▸ tended.store.counted, inner ▸ peak ▸ tended.store.size_le⟩
  named path tv stored := tended.named path tv (by rw [Stores, ← inner]; exact stored)
  requests j m at_ := by
    rw [tasks, List.getElem?_set] at at_
    rw [publishers]
    split at at_
    · split at at_
      · exact absurd (Option.some.inj at_) (outside m)
      · cases at_
    · exact tended.requests j m at_

/-- A step of the store for the task `k`, which goes on. -/
theorem Tended.resume (tended : Tended s) {k : Nat} {m : Message} {task : Task}
    {retainer : RetainStorage.RamRetainer.State From} (at_ : s.tasks[k]? = some (.storing m))
    (stepped : RetainStorage.RamRetainer.step node.env node.cfg s.retainer (.resume k) =
      some retainer) (same : ∀ m', task = .storing m' → m' = m) :
    Tended ({ s with retainer }.become k task) where
  store := tended.store.step stepped
  named path tv stored := by
    rcases RetainStorage.RamRetainer.stored_of_step tended.store stepped stored with
      before | ⟨p, r, hp, place, -, value, parsed, -⟩
    · exact tended.named path tv before
    · cases hp
      obtain ⟨named, request⟩ := tended.requests k m at_
      obtain rfl := request r (by rw [place]; rfl)
      rw [value]
      exact ⟨parsed, named _ parsed⟩
  requests j m' there := by
    have kept : ∀ j r, (retainer.publishers j).request? = some r →
        (s.retainer.publishers j).request? = some r := fun j r h =>
      (RetainStorage.RamRetainer.request_of_step stepped h).resolve_right (by simp)
    change (s.tasks.set k task)[j]? = _ at there
    rw [List.getElem?_set] at there
    split at there
    · rename_i here
      subst here
      split at there
      · obtain rfl := same m' (Option.some.inj there)
        obtain ⟨named, request⟩ := tended.requests k m' at_
        exact ⟨named, fun r h => request r (kept k r h)⟩
      · cases there
    · obtain ⟨named, request⟩ := tended.requests j m' there
      exact ⟨named, fun r h => request r (kept j r h)⟩

theorem storing_of_afterSet {retainer : RetainStorage.RamRetainer.State From} {k : Nat}
    {m m' : Message} (h : afterSet retainer k m = .storing m') : m' = m := by
  unfold afterSet at h
  split at h
  · cases h
  · cases h
    rfl

theorem Tended.advance (tended : Tended s) {env : MatchEnv} {now : Int} {k : Nat} {task : Task}
    (at_ : s.tasks[k]? = some task) (advanced : Advanced node env now k s task s') : Tended s' := by
  cases advanced with
  | refused e stepped result => exact tended.resume at_ stepped (by simp)
  | stored stepped result => exact tended.resume at_ stepped fun _ => storing_of_afterSet
  | @forwarded m st =>
      obtain ⟨dropped, nonsubscribed, same⟩ := forwarded_eq k m st s
      rw [same]
      exact tended.become rfl rfl rfl rfl (by simp)
  | _ => exact tended.become rfl rfl rfl rfl (by simp)

/-- A publish begins. -/
theorem Tended.publish (tended : Tended s) {m : Message} (named : m.Named)
    (h : publish node m s = some s') : Tended s' := by
  rw [Delivery.publish] at h
  split at h
  · obtain ⟨retainer, stepped, rfl⟩ := Option.map_eq_some_iff.mp h
    have idle := RetainStorage.RamRetainer.idle_of_set stepped
    refine ⟨tended.store.step stepped, fun path tv stored => ?_, fun k m' at_ => ?_⟩
    · rcases RetainStorage.RamRetainer.stored_of_step tended.store stepped stored with
        before | ⟨p, r, hp, -⟩
      · exact tended.named path tv before
      · cases hp
    · dsimp only at at_ ⊢
      rw [List.getElem?_append] at at_
      split at at_
      · rename_i within
        obtain ⟨named', request⟩ := tended.requests k m' at_
        refine ⟨named', fun r now => ?_⟩
        rcases RetainStorage.RamRetainer.request_of_step stepped now with before | here
        · exact request r before
        · cases here
          exact absurd within (Nat.lt_irrefl _)
      · rename_i beyond
        obtain ⟨rfl, rfl⟩ : k = s.tasks.length ∧ m' = m := by
          cases rest : k - s.tasks.length with
          | zero =>
              rw [rest] at at_
              exact ⟨by omega, storing_of_afterSet (Option.some.inj at_)⟩
          | succ n =>
              rw [rest] at at_
              cases at_
        refine ⟨named, fun r now => ?_⟩
        rcases RetainStorage.RamRetainer.request_of_step stepped now with before | here
        · rw [idle] at before
          cases before
        · cases here
          rfl
  · cases h
    refine ⟨tended.store, tended.named, fun k m' at_ => ?_⟩
    dsimp only at at_
    rw [List.getElem?_append] at at_
    split at at_
    · exact tended.requests k m' at_
    · cases rest : k - s.tasks.length <;> rw [rest] at at_ <;> cases at_

/-- A step of the store that is not one of a task in `set`. -/
theorem stores_of_step (tended : Tended s) {retainer : RetainStorage.RamRetainer.State From}
    {a : RetainStorage.RamRetainer.Action From}
    (stepped : RetainStorage.RamRetainer.step node.env node.cfg s.retainer a = some retainer)
    (other : ∀ k, a ≠ .resume k) {path : List Level} {tv : TimedValue (Retain From)}
    (stored : retainer.inner.messages.valueAt path = some tv) : Stores s path tv := by
  rcases RetainStorage.RamRetainer.stored_of_step tended.store stepped stored with
    before | ⟨p, r, resumed, -⟩
  · exact before
  · exact absurd resumed (other p)

/-- A step keeps the messages under their topics. -/
theorem Tended.step (tended : Tended s) {a : Action} (named : a.Named)
    (h : step node s a = some s') : Tended s' := by
  cases a with
  | publish m => exact tended.publish named h
  | subscribe l =>
      rw [Delivery.step, subscribe] at h
      split at h
      · cases h
        exact tended
      · split at h
        · split at h
          · cases h
            exact tended
          · obtain ⟨routes, -, rfl⟩ := Option.map_eq_some_iff.mp h
            refine ⟨tended.store, tended.named, fun k m' at_ => ?_⟩
            dsimp only at at_
            rw [List.getElem?_append] at at_
            split at at_
            · exact tended.requests k m' at_
            · cases rest : k - s.tasks.length <;> rw [rest] at at_ <;> cases at_
        · cases h
  | proceed k env now =>
      obtain ⟨task, at_, advanced⟩ := Option.bind_eq_some_iff.mp h
      exact tended.advance at_ (advance_cases advanced)
  | router action =>
      obtain ⟨routes, -, rfl⟩ := Option.map_eq_some_iff.mp h
      exact ⟨tended.store, tended.named, tended.requests⟩
  | removeExpiredMessages =>
      rw [Delivery.step] at h
      obtain ⟨retainer, stepped, rfl⟩ := Option.map_eq_some_iff.mp h
      refine ⟨tended.store.step stepped, fun path tv stored => ?_, fun k m at_ => ?_⟩
      · rcases RetainStorage.RamRetainer.stored_of_step tended.store stepped stored with
          before | ⟨p, r, hp, -⟩
        · exact tended.named path tv before
        · cases hp
      · obtain ⟨named', request⟩ := tended.requests k m at_
        exact ⟨named', fun r now => request r
          ((RetainStorage.RamRetainer.request_of_step stepped now).resolve_right (by simp))⟩
  | peer clientId peer =>
      cases h
      exact ⟨tended.store, tended.named, tended.requests⟩

end Delivery

end OxiMqtt

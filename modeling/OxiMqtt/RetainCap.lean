import Mathlib.Logic.Function.Basic
import OxiMqtt.RetainPages

/-!
# The cap on retained messages

`RamRetainer` of `builtins/retainer.rs`.  `set` reads the counter, looks for the topic where the
limit is reached, and stores; other publishers and the purge can run between any two of these.  The
configuration is not written after the start.

A count that is read while a purge lowers it is on the same side of the limit as the count before
the purge or the one after it.

* `admitted_room`: the check lets a publisher through only where there is room for its topic, but for
  topics with wildcards.
* `Roomy.step`: there is room until another publisher stores a new topic.
* `capped_iff_guarded`: over a run, the limit holds and no stored topic is refused exactly where no
  lookup comes to a value that has expired, and a publisher that was overtaken since its check finds
  room all the same.
-/

namespace OxiMqtt

open Collections
open OxiMqtt.Router (TopicName TopicFilter)

/-! ## A topic as a filter -/

namespace RetainNode

variable {V : Type}

/-- A topic without wildcards finds its own value and nothing else. -/
theorem matchesPath_of_free {path : List Level} (free : ∀ l ∈ path, l.isWildcard = false)
    (n : RetainNode V) (subPath : List Level) :
    matchesPath n path subPath = itemOf (subPath ++ path) (valueAt path n) := by
  induction path generalizing n subPath with
  | nil =>
      obtain ⟨value, bs⟩ := n
      rw [matchesPath, List.append_nil]
      rfl
  | cons l path ih =>
      have plain := free l List.mem_cons_self
      have rest : ∀ l ∈ path, l.isWildcard = false :=
        fun l' hl => free l' (List.mem_cons_of_mem l hl)
      obtain ⟨value, bs⟩ := n
      rw [matchesPath_cons, valueAt_cons, child, branches_mk]
      cases List.lookup l bs with
      | none => cases l <;> first | rfl | cases plain
      | some r =>
          have alone : parentItem path (subPath ++ [l]) r.value = [] := by
            rw [parentItem, if_neg]
            intro multi
            have wild := rest _ (List.mem_of_mem_head? multi)
            cases wild
          change parentItem path (subPath ++ [l]) r.value ++ matchesPath r path (subPath ++ [l]) = _
          rw [alone, List.nil_append, ih rest, ← List.append_cons]
          rfl

end RetainNode

namespace RetainStorage

namespace RamRetainer

/-- `PluginConfig` -/
structure PluginConfig : Type where
  maxRetainedMessages : Int := 10000
  maxPayloadSize : Nat := 1024 * 1024
  retainedMessageTtl : Option Nat := none
  deriving DecidableEq, Repr

/-- The arguments of a call of `set`. -/
structure Request (F : Type) : Type where
  topic : TopicName
  retain : Retain F
  expiryInterval : Option Nat
  deriving DecidableEq, Repr

/-- Where the `set` of a publisher is. -/
inductive Publisher (F : Type) : Type
  | idle
  /-- The payload is small enough, and the messages are to be counted. -/
  | sized (r : Request F)
  /-- The limit is reached, and the topic is to be looked up. -/
  | full (r : Request F)
  /-- The message is to be stored. -/
  | admitted (r : Request F)
  deriving DecidableEq, Repr

/-- The storage and the publishers; the largest number of topics stored so far, the topics refused
while they were stored, and the publishers that have looked at the storage since a new topic was
stored last. -/
structure State (F : Type) : Type where
  inner : DefaultRetainStorage F := {}
  readings : Nat := 0
  publishers : Nat → Publisher F := fun _ => .idle
  peak : Nat := 0
  frozen : List TopicName := []
  inTime : List Nat := []

inductive Action (F : Type) : Type
  | set (publisher : Nat) (r : Request F)
  /-- The next part of the `set` of a publisher. -/
  | resume (publisher : Nat)
  | removeExpiredMessages

variable {F : Type}

/-- A value is stored for the topic. -/
def Holds (storage : DefaultRetainStorage F) (topic : TopicName) : Prop :=
  ∃ t, Topic.fromStr topic = .ok t ∧ (storage.messages.valueAt t.levels).isSome

instance (storage : DefaultRetainStorage F) (topic : TopicName) :
    Decidable (Holds storage topic) :=
  match parsed : Topic.fromStr topic with
  | .error _ => .isFalse fun h => by
      obtain ⟨t, ok, -⟩ := h
      rw [parsed] at ok
      cases ok
  | .ok t =>
      decidable_of_iff ((storage.messages.valueAt t.levels).isSome = true)
        ⟨fun h => ⟨t, parsed, h⟩, fun h => by
          obtain ⟨t', ok, h⟩ := h
          rw [parsed] at ok
          cases ok
          exact h⟩

/-- `retained_message_ttl.map(..).unwrap_or(expiry_interval)` -/
def timeout (cfg : PluginConfig) (expiryInterval : Option Nat) : Option Nat :=
  (cfg.retainedMessageTtl.map fun ttl => if ttl = 0 then none else some ttl).getD expiryInterval

def State.moved (s : State F) (p : Nat) (publisher : Publisher F) : State F :=
  { s with publishers := Function.update s.publishers p publisher }

/-- What `set` does up to its next access of the storage, which other calls may precede. -/
def act (env : Env) (cfg : PluginConfig) (s : State F) : Action F → Option (State F)
  | .set p r =>
      match s.publishers p with
      | .idle =>
          if r.retain.publish.inner.payload.length > cfg.maxPayloadSize then some s
          else some (s.moved p (.sized r))
      | _ => none
  | .resume p =>
      match s.publishers p with
      | .idle => none
      | .sized r =>
          if cfg.maxRetainedMessages > 0 ∧ s.inner.retaineds.count ≥ cfg.maxRetainedMessages then
            some (s.moved p (.full r))
          else some (s.moved p (.admitted r))
      | .full r =>
          let found := s.inner.getMessage env s.readings r.topic
          let s' := { s with readings := found.2 }
          match found.1 with
          | .error _ => some (s'.moved p .idle)
          | .ok [] =>
              some { s'.moved p .idle with
                frozen := s.frozen ++ if Holds s.inner r.topic then [r.topic] else [] }
          | .ok (_ :: _) => some (s'.moved p (.admitted r))
      | .admitted r =>
          (s.inner.setWithTimeout env s.readings r.topic r.retain
            (timeout cfg r.expiryInterval)).map fun stored =>
              { s.moved p .idle with inner := stored.1, readings := stored.2.1 }
  | .removeExpiredMessages =>
      let r := s.inner.removeExpiredMessages env s.readings
      some { s with inner := r.1, readings := r.2.1 }

/-- The publisher whose `set` goes on. -/
def Action.resumed : Action F → Option Nat
  | .resume p => some p
  | _ => none

/-- One step of a publisher or of the purge. -/
def step (env : Env) (cfg : PluginConfig) (s : State F) (a : Action F) : Option (State F) :=
  (act env cfg s a).map fun s' =>
    { s' with
      peak := max s.peak s'.inner.messages.valuesSize
      inTime :=
        if s.inner.messages.valuesSize < s'.inner.messages.valuesSize then []
        else a.resumed.toList ++ s.inTime }

/-! ## The lookup -/

/-- Something that the filter finds has not expired when the lookup comes to it. -/
def Unexpired (env : Env) (storage : DefaultRetainStorage F) (readings : Nat)
    (topicFilter : TopicFilter) : Prop :=
  ∃ t, Topic.fromStr topicFilter = .ok t ∧
    ∃ (i : Nat) (r : Topic × TimedValue (Retain F)), (storage.messages.matches t)[i]? = some r ∧
      r.2.isExpired (env.clock (readings + i)) = false

theorem getMessage_eq_nil_iff {env : Env} {storage : DefaultRetainStorage F} {readings : Nat}
    {topic : TopicName} (holds : Holds storage topic) :
    (storage.getMessage env readings topic).1 = .ok [] ↔ ¬Unexpired env storage readings topic := by
  obtain ⟨t, parsed, -⟩ := holds
  rw [DefaultRetainStorage.getMessage, parsed]
  dsimp only
  rw [Except.ok.injEq, DefaultRetainStorage.filterMapReading_unexpiredMessage_eq_nil]
  constructor
  · intro expired h
    obtain ⟨t', ok, i, r, at_, fresh⟩ := h
    rw [parsed] at ok
    cases ok
    rw [expired i r at_] at fresh
    cases fresh
  · intro none i r at_
    by_contra fresh
    exact none ⟨t, parsed, i, r, at_, by simpa using fresh⟩

/-- The topic has no wildcards. -/
def Literal (topic : TopicName) : Prop := ∀ t, Topic.fromStr topic = .ok t → t.WildcardFree

/-- What a topic without wildcards finds is its own value. -/
theorem holds_of_getMessage {env : Env} {storage : DefaultRetainStorage F} {readings : Nat}
    {topic : TopicName} (literal : Literal topic)
    {m : TopicName × Retain F} {ms : List (TopicName × Retain F)}
    (found : (storage.getMessage env readings topic).1 = .ok (m :: ms)) :
    Holds storage topic := by
  unfold DefaultRetainStorage.getMessage at found
  cases parsed : Topic.fromStr topic with
  | error e =>
      rw [parsed] at found
      cases found
  | ok t =>
      rw [parsed] at found
      dsimp only at found
      unfold RetainNode.matches at found
      rw [RetainNode.matchesPath_of_free (literal t parsed)] at found
      cases stored : RetainNode.valueAt t.levels storage.messages with
      | none =>
          rw [stored] at found
          cases found
      | some tv => exact ⟨t, parsed, by rw [stored]; rfl⟩

/-- It has not expired when the lookup comes to it. -/
theorem unexpired_iff {env : Env} {storage : DefaultRetainStorage F} {readings : Nat}
    {topic : TopicName} {t : Topic} {tv : TimedValue (Retain F)}
    (parsed : Topic.fromStr topic = .ok t) (free : t.WildcardFree)
    (stored : storage.messages.valueAt t.levels = some tv) :
    Unexpired env storage readings topic ↔ tv.isExpired (env.clock readings) = false := by
  have one : storage.messages.matches t = [(⟨t.levels⟩, tv)] := by
    unfold RetainNode.matches
    rw [RetainNode.matchesPath_of_free free, stored]
    rfl
  constructor
  · intro h
    obtain ⟨t', ok, i, r, at_, fresh⟩ := h
    rw [parsed] at ok
    cases ok
    rw [one] at at_
    cases i with
    | zero =>
        cases at_
        exact fresh
    | succ i => cases at_
  · intro fresh
    exact ⟨t, parsed, 0, (⟨t.levels⟩, tv), by rw [one]; rfl, fresh⟩

/-- The value of the topic, where one is stored, has not expired; a topic with wildcards finds
something else that has not. -/
def Lasts (env : Env) (storage : DefaultRetainStorage F) (readings : Nat) (topic : TopicName) :
    Prop :=
  ∀ t tv, Topic.fromStr topic = .ok t → storage.messages.valueAt t.levels = some tv →
    (t.WildcardFree → tv.isExpired (env.clock readings) = false) ∧
      (¬t.WildcardFree → Unexpired env storage readings topic)

theorem lasts_iff {env : Env} {storage : DefaultRetainStorage F} {readings : Nat}
    {topic : TopicName} :
    Lasts env storage readings topic ↔
      (Holds storage topic → Unexpired env storage readings topic) := by
  constructor
  · intro lasts holds
    obtain ⟨t, parsed, isSome⟩ := holds
    obtain ⟨tv, stored⟩ := Option.isSome_iff_exists.mp isSome
    obtain ⟨literal, wild⟩ := lasts t tv parsed stored
    by_cases free : t.WildcardFree
    · exact (unexpired_iff parsed free stored).mpr (literal free)
    · exact wild free
  · intro found t tv parsed stored
    have unexpired := found ⟨t, parsed, by rw [stored]; rfl⟩
    exact ⟨fun free => (unexpired_iff parsed free stored).mp unexpired, fun _ => unexpired⟩

/-! ## What is stored -/

/-- The call stores a message for a topic that has none. -/
def StoresNew (storage : DefaultRetainStorage F) (r : Request F) : Prop :=
  r.retain.publish.inner.payload ≠ [] ∧ (∃ t, Topic.fromStr r.topic = .ok t) ∧
    ¬Holds storage r.topic

theorem size_setWithTimeout {env : Env} {storage storage' : DefaultRetainStorage F}
    (counted : storage.Counted) {readings readings' : Nat} {r : Request F} {timeout : Option Nat}
    {res : Except TopicError Unit}
    (h : storage.setWithTimeout env readings r.topic r.retain timeout =
      some (storage', readings', res)) :
    (StoresNew storage r → storage'.messages.valuesSize = storage.messages.valuesSize + 1) ∧
      (¬StoresNew storage r → storage'.messages.valuesSize ≤ storage.messages.valuesSize) := by
  rcases DefaultRetainStorage.setWithTimeout_cases h with
    ⟨e, refused, rfl, -⟩ | ⟨t, parsed, -, ⟨filled, tv, -, tree, -⟩ | ⟨empty, tree, -⟩⟩
  · refine ⟨?_, fun _ => le_rfl⟩
    intro new
    obtain ⟨t, parsed⟩ := new.2.1
    rw [refused] at parsed
    cases parsed
  · have size := DefaultRetainStorage.size_replace counted.tidy t tv
    rw [← tree] at size
    have holds : Holds storage r.topic ↔ (storage.messages.valueAt t.levels).isSome = true := by
      constructor
      · intro h
        obtain ⟨t', ok, isSome⟩ := h
        rw [parsed] at ok
        cases ok
        exact isSome
      · exact fun isSome => ⟨t, parsed, isSome⟩
    by_cases isSome : (storage.messages.valueAt t.levels).isSome = true
    · rw [if_pos isSome] at size
      refine ⟨fun new => absurd (holds.mpr isSome) new.2.2, fun _ => ?_⟩
      omega
    · rw [if_neg isSome] at size
      exact ⟨fun _ => size, fun old => absurd ⟨filled, ⟨t, parsed⟩, mt holds.mp isSome⟩ old⟩
  · have size := DefaultRetainStorage.size_remove counted.tidy t
    rw [← tree] at size
    exact ⟨fun new => absurd empty new.1, fun _ => by omega⟩

/-- What is stored for a topic stays, unless the step makes room. -/
theorem holds_setWithTimeout {env : Env} {storage storage' : DefaultRetainStorage F}
    (counted : storage.Counted) {readings readings' : Nat} {r : Request F} {timeout : Option Nat}
    {res : Except TopicError Unit}
    (h : storage.setWithTimeout env readings r.topic r.retain timeout =
      some (storage', readings', res)) {topic : TopicName} (holds : Holds storage topic) :
    Holds storage' topic ∨ storage'.messages.valuesSize < storage.messages.valuesSize := by
  obtain ⟨own, parsed, stored⟩ := holds
  rcases DefaultRetainStorage.setWithTimeout_cases h with
    ⟨e, -, rfl, -⟩ | ⟨t, -, -, ⟨-, tv, -, tree, -⟩ | ⟨-, tree, -⟩⟩
  · exact .inl ⟨own, parsed, stored⟩
  · refine .inl ⟨own, parsed, ?_⟩
    rw [tree, RetainNode.insert, RetainNode.valueAt_insertPath]
    split
    · rfl
    · rename_i other
      rw [RetainNode.remove, RetainNode.valueAt_removePath, if_neg other]
      exact stored
  · by_cases same : own.levels = t.levels
    · have size := DefaultRetainStorage.size_remove counted.tidy t
      rw [← tree, ← same, if_pos stored] at size
      exact .inr (by omega)
    · refine .inl ⟨own, parsed, ?_⟩
      rw [tree, RetainNode.remove, RetainNode.valueAt_removePath, if_neg same]
      exact stored

/-! ## Steps -/

/-- A lookup comes to no value that has expired; and a publisher that was overtaken since its check,
or whose topic has wildcards, stores a new topic while there is room for it. -/
def Sound (env : Env) (cfg : PluginConfig) (s : State F) : Action F → Prop
  | .resume p =>
      match s.publishers p with
      | .full r => Lasts env s.inner s.readings r.topic
      | .admitted r =>
          p ∉ s.inTime ∨ ¬Literal r.topic → StoresNew s.inner r →
            (s.inner.messages.valuesSize : Int) < cfg.maxRetainedMessages
      | _ => True
  | _ => True

/-- The number of topics was within the limit, and no stored topic was refused. -/
def Capped (cfg : PluginConfig) (s : State F) : Prop :=
  (s.peak : Int) ≤ cfg.maxRetainedMessages ∧ s.frozen = []

instance (cfg : PluginConfig) (s : State F) : Decidable (Capped cfg s) :=
  inferInstanceAs (Decidable ((s.peak : Int) ≤ cfg.maxRetainedMessages ∧ s.frozen = []))

structure Inv (s : State F) : Prop where
  counted : s.inner.Counted
  size_le : s.inner.messages.valuesSize ≤ s.peak

/-- While the limit holds, a publisher that passed its check and was not overtaken since has room: for
another topic, or that of its own topic. -/
def Roomy (cfg : PluginConfig) (s : State F) : Prop :=
  (s.peak : Int) ≤ cfg.maxRetainedMessages → ∀ p r, s.publishers p = .admitted r →
    p ∈ s.inTime → Literal r.topic →
      (s.inner.messages.valuesSize : Int) < cfg.maxRetainedMessages ∨ Holds s.inner r.topic

/-- The step of a publisher that has found the storage full: it goes on if its topic is still there,
and leaves a topic behind whose value has expired. -/
theorem act_full {env : Env} {cfg : PluginConfig} {s s' : State F} {p : Nat} {r : Request F}
    (place : s.publishers p = .full r) (h : act env cfg s (.resume p) = some s') :
    s'.inner = s.inner ∧ s'.peak = s.peak ∧
      (s'.frozen = s.frozen ∧ Sound env cfg s (.resume p) ∨
        s'.frozen ≠ [] ∧ ¬Sound env cfg s (.resume p)) := by
  have sound : Sound env cfg s (.resume p) ↔
      (Holds s.inner r.topic → Unexpired env s.inner s.readings r.topic) := by
    rw [Sound, place]
    exact lasts_iff
  rw [act, place] at h
  dsimp only at h
  split at h <;> rename_i found
  · cases h
    refine ⟨rfl, rfl, .inl ⟨rfl, sound.mpr ?_⟩⟩
    intro holds
    obtain ⟨t, parsed, -⟩ := holds
    rw [DefaultRetainStorage.getMessage, parsed] at found
    cases found
  · cases h
    by_cases holds : Holds s.inner r.topic
    · refine ⟨rfl, rfl, .inr ⟨?_, ?_⟩⟩
      · dsimp only
        rw [if_pos holds]
        exact List.append_ne_nil_of_right_ne_nil _ (List.cons_ne_nil _ _)
      · rw [sound]
        exact fun h => (getMessage_eq_nil_iff holds).mp found (h holds)
    · refine ⟨rfl, rfl, .inl ⟨?_, sound.mpr fun h => absurd h holds⟩⟩
      dsimp only
      rw [if_neg holds, List.append_nil]
  · cases h
    refine ⟨rfl, rfl, .inl ⟨rfl, sound.mpr ?_⟩⟩
    intro holds
    by_contra expired
    rw [(getMessage_eq_nil_iff holds).mpr expired] at found
    cases found

/-- What a step does to the number of topics and to the refused ones. -/
theorem act_cases {env : Env} {cfg : PluginConfig} {s s' : State F} (inv : Inv s) {a : Action F}
    (h : act env cfg s a = some s') :
    s'.inner.Counted ∧ s'.peak = s.peak ∧
      ((s'.inner.messages.valuesSize ≤ s.inner.messages.valuesSize ∧ s'.frozen = s.frozen ∧
          Sound env cfg s a) ∨
        (s'.inner.messages.valuesSize ≤ s.inner.messages.valuesSize ∧ s'.frozen ≠ [] ∧
          ¬Sound env cfg s a) ∨
        (s'.inner.messages.valuesSize = s.inner.messages.valuesSize + 1 ∧ s'.frozen = s.frozen ∧
          ∃ p r, a = .resume p ∧ s.publishers p = .admitted r ∧ StoresNew s.inner r)) := by
  cases a with
  | set p r =>
      rw [act] at h
      split at h
      · split at h <;> cases h <;> exact ⟨inv.counted, rfl, .inl ⟨le_rfl, rfl, trivial⟩⟩
      · cases h
  | resume p =>
      cases place : s.publishers p with
      | idle =>
          rw [act, place] at h
          cases h
      | sized r =>
          have sound : Sound env cfg s (.resume p) := by
            rw [Sound, place]
            trivial
          rw [act, place] at h
          dsimp only at h
          split at h <;> cases h <;> exact ⟨inv.counted, rfl, .inl ⟨le_rfl, rfl, sound⟩⟩
      | full r =>
          obtain ⟨same, peak, changed⟩ := act_full place h
          refine ⟨same ▸ inv.counted, peak, ?_⟩
          rw [same]
          rcases changed with ⟨frozen, sound⟩ | ⟨frozen, unsound⟩
          · exact .inl ⟨le_rfl, frozen, sound⟩
          · exact .inr (.inl ⟨le_rfl, frozen, unsound⟩)
      | admitted r =>
          rw [act, place] at h
          obtain ⟨⟨storage, readings, res⟩, stored, rfl⟩ := Option.map_eq_some_iff.mp h
          obtain ⟨grows, keeps⟩ := size_setWithTimeout inv.counted stored
          refine ⟨(inv.counted.setWithTimeout stored).1, rfl, ?_⟩
          by_cases new : StoresNew s.inner r
          · exact .inr (.inr ⟨grows new, rfl, p, r, rfl, place, new⟩)
          · refine .inl ⟨keeps new, rfl, ?_⟩
            rw [Sound, place]
            exact fun _ stores => absurd stores new
  | removeExpiredMessages =>
      cases h
      have size := (s.inner.removeExpiredMessages_spec env s.readings).1
      refine ⟨inv.counted.removeExpiredMessages, rfl, .inl ⟨?_, rfl, trivial⟩⟩
      dsimp only
      omega

theorem Inv.step {env : Env} {cfg : PluginConfig} {s s' : State F} (inv : Inv s) {a : Action F}
    (h : step env cfg s a = some s') : Inv s' := by
  obtain ⟨next, acted, rfl⟩ := Option.map_eq_some_iff.mp h
  exact ⟨(act_cases inv acted).1, le_max_right _ _⟩

/-- A step takes a topic out only where it makes room. -/
theorem holds_act {env : Env} {cfg : PluginConfig} {s s' : State F} (inv : Inv s) {a : Action F}
    (h : act env cfg s a = some s') {topic : TopicName} (holds : Holds s.inner topic) :
    Holds s'.inner topic ∨ s'.inner.messages.valuesSize < s.inner.messages.valuesSize := by
  cases a with
  | set p r =>
      rw [act] at h
      split at h
      · split at h <;> cases h <;> exact .inl holds
      · cases h
  | resume p =>
      cases place : s.publishers p with
      | idle =>
          rw [act, place] at h
          cases h
      | sized r =>
          rw [act, place] at h
          dsimp only at h
          split at h <;> cases h <;> exact .inl holds
      | full r =>
          rw [(act_full place h).1]
          exact .inl holds
      | admitted r =>
          rw [act, place] at h
          obtain ⟨⟨storage, readings, res⟩, stored, rfl⟩ := Option.map_eq_some_iff.mp h
          exact holds_setWithTimeout inv.counted stored holds
  | removeExpiredMessages =>
      cases h
      obtain ⟨t, parsed, isSome⟩ := holds
      obtain ⟨tv, stored⟩ := Option.isSome_iff_exists.mp isSome
      have purged := (s.inner.removeExpiredMessages_spec env s.readings).1
      by_cases size : s.inner.messages.valuesSize ≤
          (s.inner.removeExpiredMessages env s.readings).1.messages.valuesSize
      · have kept := RetainNode.valueAt_retainMut_of_size
          (RetainNode.distinct_of_tidy inv.counted.tidy) size stored
        refine .inl ⟨t, parsed, ?_⟩
        change (RetainNode.valueAt t.levels
          (s.inner.removeExpiredMessages env s.readings).1.messages).isSome = true
        unfold DefaultRetainStorage.removeExpiredMessages
        dsimp only
        rw [kept]
        rfl
      · exact .inr (by dsimp only; omega)

/-! ## The check -/

theorem publishers_moved (s : State F) (p : Nat) (place : Publisher F) :
    (s.moved p place).publishers p = place :=
  Function.update_self ..

/-- A step of others leaves a publisher that has been let through where it is. -/
theorem admitted_of_act {env : Env} {cfg : PluginConfig} {s s' : State F} {a : Action F}
    (h : act env cfg s a = some s') {p : Nat} (others : a.resumed ≠ some p) {r : Request F}
    (admitted : s'.publishers p = .admitted r) : s.publishers p = .admitted r := by
  have elsewhere : ∀ (s : State F) (q : Nat) (place : Publisher F), q ≠ p →
      (s.moved q place).publishers p = s.publishers p :=
    fun s q place ne => Function.update_of_ne ne.symm ..
  cases a with
  | set q r' =>
      rw [act] at h
      split at h
      · split at h <;> cases h
        · exact admitted
        · by_cases same : q = p
          · subst same
            rw [publishers_moved] at admitted
            cases admitted
          · rw [elsewhere s q _ same] at admitted
            exact admitted
      · cases h
  | resume q =>
      have ne : q ≠ p := fun same => others (congrArg some same)
      rw [act] at h
      split at h
      · cases h
      · split at h <;> cases h <;> rw [elsewhere s q _ ne] at admitted <;> exact admitted
      · dsimp only at h
        split at h <;> cases h
        · rw [elsewhere _ q _ ne] at admitted
          exact admitted
        · change (State.moved { s with readings := _ } q .idle).publishers p = _ at admitted
          rw [elsewhere _ q _ ne] at admitted
          exact admitted
        · rw [elsewhere _ q _ ne] at admitted
          exact admitted
      · obtain ⟨stored, -, rfl⟩ := Option.map_eq_some_iff.mp h
        change (s.moved q .idle).publishers p = _ at admitted
        rw [elsewhere s q _ ne] at admitted
        exact admitted
  | removeExpiredMessages =>
      cases h
      exact admitted

/-- The check lets a publisher through where there is room: fewer topics than the limit, or one of
them its own, unless its topic has wildcards. -/
theorem admitted_room {env : Env} {cfg : PluginConfig} (limited : 0 < cfg.maxRetainedMessages)
    {s s' : State F} (inv : Inv s) {p : Nat} {r : Request F} (literal : Literal r.topic)
    (h : act env cfg s (.resume p) = some s') (admitted : s'.publishers p = .admitted r) :
    (s'.inner.messages.valuesSize : Int) < cfg.maxRetainedMessages ∨ Holds s'.inner r.topic := by
  have count := inv.counted.count
  cases place : s.publishers p with
  | idle =>
      rw [act, place] at h
      cases h
  | sized r' =>
      rw [act, place] at h
      dsimp only at h
      split at h <;> rename_i full <;> cases h
      · rw [publishers_moved] at admitted
        cases admitted
      · left
        change (s.inner.messages.valuesSize : Int) < cfg.maxRetainedMessages
        omega
  | full r' =>
      rw [act, place] at h
      dsimp only at h
      split at h <;> rename_i found <;> cases h
      · rw [publishers_moved] at admitted
        cases admitted
      · change (s.moved p .idle).publishers p = _ at admitted
        rw [publishers_moved] at admitted
        cases admitted
      · rw [publishers_moved] at admitted
        cases admitted
        exact .inr (holds_of_getMessage literal found)
  | admitted r' =>
      rw [act, place] at h
      obtain ⟨stored, -, rfl⟩ := Option.map_eq_some_iff.mp h
      change (s.moved p .idle).publishers p = _ at admitted
      rw [publishers_moved] at admitted
      cases admitted

/-- Until another publisher stores a new topic, there is room for a publisher that passed its
check. -/
theorem Roomy.step {env : Env} {cfg : PluginConfig} (limited : 0 < cfg.maxRetainedMessages)
    {s s' : State F} (inv : Inv s) (roomy : Roomy cfg s) {a : Action F}
    (h : step env cfg s a = some s') : Roomy cfg s' := by
  obtain ⟨next, acted, rfl⟩ := Option.map_eq_some_iff.mp h
  intro within p r admitted inTime literal
  have size_le := inv.size_le
  dsimp only at within admitted inTime ⊢
  split at inTime
  · cases inTime
  · rename_i grown
    by_cases own : a.resumed = some p
    · cases a with
      | resume q =>
          cases own
          exact admitted_room limited inv literal acted admitted
      | set q r' => cases own
      | removeExpiredMessages => cases own
    · have earlier : p ∈ s.inTime := by
        rcases List.mem_append.mp inTime with now | before
        · exact absurd (Option.mem_toList.mp now) own
        · exact before
      rcases roomy (by omega) p r (admitted_of_act acted own admitted) earlier literal with
        room | holds
      · exact .inl (by omega)
      · rcases holds_act inv acted holds with kept | fewer
        · exact .inr kept
        · exact .inl (by omega)

/-- A step keeps the promises exactly where it is sound. -/
theorem capped_step_iff {env : Env} {cfg : PluginConfig} {s s' : State F} (inv : Inv s)
    (roomy : Roomy cfg s) {a : Action F} (h : step env cfg s a = some s') :
    Capped cfg s' ↔ Capped cfg s ∧ Sound env cfg s a := by
  obtain ⟨next, acted, rfl⟩ := Option.map_eq_some_iff.mp h
  have size_le := inv.size_le
  obtain ⟨-, -, ⟨size, frozen, sound⟩ | ⟨size, frozen, sound⟩ |
    ⟨size, frozen, p, r, rfl, place, new⟩⟩ := act_cases inv acted
  · unfold Capped
    dsimp only
    rw [frozen, max_eq_left (size.trans size_le)]
    exact (and_iff_left sound).symm
  · constructor
    · exact fun capped => absurd capped.2 frozen
    · exact fun both => absurd both.2 sound
  · unfold Capped
    dsimp only
    rw [frozen, size, Sound, place]
    dsimp only
    constructor
    · intro capped
      exact ⟨⟨by omega, capped.2⟩, fun _ _ => by omega⟩
    · intro both
      have room : (s.inner.messages.valuesSize : Int) < cfg.maxRetainedMessages := by
        by_cases late : p ∉ s.inTime ∨ ¬Literal r.topic
        · exact both.2 late new
        · rw [not_or, not_not, not_not] at late
          exact (roomy both.1.1 p r place late.1 late.2).resolve_right new.2.2
      exact ⟨by omega, both.1.2⟩

/-- Over a run from the empty storage, the limit holds and no stored topic is refused exactly where
every step is sound. -/
theorem capped_iff_guarded {env : Env} {cfg : PluginConfig} (limited : 0 < cfg.maxRetainedMessages)
    {s : State F} {actions : List (Action F)}
    (ran : Machine.run (step env cfg) {} actions = some s) :
    Capped cfg s ↔ Machine.Guarded (step env cfg) (Sound env cfg) {} actions := by
  have init : Inv ({} : State F) := ⟨DefaultRetainStorage.counted_new, le_rfl⟩
  have roomy : Roomy cfg ({} : State F) := by
    intro _ p r admitted
    cases admitted
  have capped : Capped cfg ({} : State F) := ⟨limited.le, rfl⟩
  have keep : ∀ (s : State F) a s', Inv s ∧ Roomy cfg s → step env cfg s a = some s' →
      Inv s' ∧ Roomy cfg s' :=
    fun s a s' inv h => ⟨inv.1.step h, inv.2.step limited inv.1 h⟩
  rw [Machine.iff_guarded (P := Capped cfg) keep
    (fun _ _ _ inv h => capped_step_iff inv.1 inv.2 h) ran ⟨init, roomy⟩]
  exact and_iff_right capped

/-- A message of the topic with one byte, which expires after `timeout`. -/
def request (topic : TopicName) (timeout : Option Nat) : Request Unit :=
  { topic, retain := message [1], expiryInterval := timeout }

/-- A run with a limit of one message, a clock that runs and a last instant. -/
def runOfOne (actions : List (Action Unit)) : Option (State Unit) :=
  Machine.run (step ⟨id, 100, 2 ^ 64 - 1⟩ { maxRetainedMessages := 1 }) {} actions

/-- The topic that is retained is replaced, and another one is refused. -/
def replaced : List (Action Unit) :=
  [.set 0 (request "a" (some 9)), .resume 0, .resume 0, .set 1 (request "a" none),
    .set 2 (request "b" none), .resume 1, .resume 1, .resume 1, .resume 2, .resume 2]

theorem capped_iff_guarded_replaced :
    ∃ s, runOfOne replaced = some s ∧ Capped { maxRetainedMessages := 1 } s ∧
      Machine.Guarded (step ⟨id, 100, 2 ^ 64 - 1⟩ { maxRetainedMessages := 1 })
        (Sound ⟨id, 100, 2 ^ 64 - 1⟩ { maxRetainedMessages := 1 }) {} replaced := by
  obtain ⟨s, ran, kept⟩ := (Option.any_eq_true _ _).mp
    (by decide +kernel : (runOfOne replaced).any
      (fun s => decide (Capped { maxRetainedMessages := 1 } s)) = true)
  have capped : Capped { maxRetainedMessages := 1 } s := of_decide_eq_true kept
  exact ⟨s, ran, capped, (capped_iff_guarded (by decide) ran).mp capped⟩

/-- Two publishers count before either stores; a message that has expired and is not purged keeps
its topic from being replaced. -/
theorem cap_passed_and_topic_frozen :
    (∃ s, runOfOne [.set 0 (request "a" none), .set 1 (request "b" none), .resume 0, .resume 1,
        .resume 0, .resume 1] = some s ∧ 1 < s.inner.messages.valuesSize) ∧
      ∃ s, runOfOne [.set 0 (request "a" (some 1)), .resume 0, .resume 0,
        .set 1 (request "a" none), .resume 1, .resume 1] = some s ∧
        Holds s.inner "a" ∧ s.frozen = ["a"] := by
  constructor
  · obtain ⟨s, ran, two⟩ := (Option.any_eq_true _ _).mp
      (by decide +kernel : (runOfOne [.set 0 (request "a" none), .set 1 (request "b" none),
        .resume 0, .resume 1, .resume 0, .resume 1]).any
          (fun s => decide (1 < s.inner.messages.valuesSize)) = true)
    exact ⟨s, ran, of_decide_eq_true two⟩
  · obtain ⟨s, ran, both⟩ := (Option.any_eq_true _ _).mp
      (by decide +kernel : (runOfOne [.set 0 (request "a" (some 1)), .resume 0, .resume 0,
        .set 1 (request "a" none), .resume 1, .resume 1]).any
          (fun s => decide (Holds s.inner "a" ∧ s.frozen = ["a"])) = true)
    exact ⟨s, ran, of_decide_eq_true both⟩

end RamRetainer

end RetainStorage

end OxiMqtt

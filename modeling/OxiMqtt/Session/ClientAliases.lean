import OxiMqtt.Lib.Machine
import OxiMqtt.Session.PublishPath

/-!
# Client topic aliases over a session

`ClientTopicAliases::set_and_get` for all the publishes of a session.  The table is compared with
what the calls and their answers say: an alias stands for the topic that the last successful call
with a topic gave it.  The negotiated maximum bounds how many aliases are mapped, not their numbers.

* `Agrees.step`, `Agrees.respond`: the table holds the mappings of the history.
* `aliases_exact`: which call succeeds, what it returns, and what a failing one leaves.
* `alias_above_maximum`: alias 5 is taken at a maximum of 1.
-/

namespace OxiMqtt.Session.ClientAliases

open Collections
open OxiMqtt.Codec (NonZeroU16)
open Inbound (Reason)
open PublishPath (ClientTopicAliases)
open TopicAliases (TopicName)

/-- The arguments of a call of `set_and_get`. -/
abbrev Call : Type := Option NonZeroU16 × TopicName

/-- Calls with their answers. -/
abbrev History : Type := List (Call × Except Reason TopicName)

/-- A call of `set_and_get`: an error leaves the table as it is. -/
def call (t : ClientTopicAliases) (c : Call) : ClientTopicAliases × Except Reason TopicName :=
  match t.setAndGet c.1 c.2 with
  | .ok (t', topic) => (t', .ok topic)
  | .error e => (t, .error e)

/-- `ClientTopicAliases::new` -/
def new (maxTopicAliases : Nat) : ClientTopicAliases where
  maxTopicAliases := maxTopicAliases

/-! ## What a history says -/

/-- The mapping a call has made: it had an alias and a topic, and succeeded. -/
def mapping : Call × Except Reason TopicName → Option (UInt16 × TopicName)
  | ((some a, topic), .ok _) => if topic = "" then none else some (a.val, topic)
  | _ => none

/-- The topic of the last mapping of the alias. -/
def lastMapped (history : History) (a : UInt16) : Option TopicName :=
  (history.filterMap mapping).reverse.lookup a

/-- The aliases that were mapped. -/
def mappedAliases (history : History) : Finset UInt16 :=
  ((history.filterMap mapping).map Prod.fst).toFinset

/-- The call has a topic, and no alias or one that is mapped or finds room; or it has no topic, and
an alias that is mapped. -/
def Accepted (m : Nat) (history : History) (c : Call) : Prop :=
  (c.2 ≠ "" ∧ ∀ a ∈ c.1, (lastMapped history a.val).isSome ∨ (mappedAliases history).card < m) ∨
    (c.2 = "" ∧ ∃ a ∈ c.1, (lastMapped history a.val).isSome)

theorem lastMapped_append_none {history : History} {e : Call × Except Reason TopicName}
    (h : mapping e = none) (a : UInt16) : lastMapped (history ++ [e]) a = lastMapped history a := by
  rw [lastMapped, List.filterMap_append, List.filterMap_cons_none h, List.filterMap_nil,
    List.append_nil, lastMapped]

theorem lastMapped_append_some {history : History} {e : Call × Except Reason TopicName}
    {a' : UInt16} {topic : TopicName} (h : mapping e = some (a', topic)) (a : UInt16) :
    lastMapped (history ++ [e]) a = if a = a' then some topic else lastMapped history a := by
  rw [lastMapped, List.filterMap_append, List.filterMap_cons_some h, List.filterMap_nil,
    List.reverse_append, List.reverse_singleton, List.singleton_append, List.lookup_cons,
    lastMapped]
  by_cases same : a = a'
  · rw [if_pos same, same, beq_self_eq_true]
  · rw [if_neg same, beq_eq_false_iff_ne.mpr same]

theorem mem_mappedAliases {history : History} {a : UInt16} :
    a ∈ mappedAliases history ↔ (lastMapped history a).isSome := by
  rw [mappedAliases, List.mem_toFinset, lastMapped, Assoc.isSome_lookup, List.map_reverse,
    List.mem_reverse]

/-! ## The table -/

/-- The table holds what the history says. -/
structure Agrees (m : Nat) (history : History) (t : ClientTopicAliases) : Prop where
  max_eq : t.maxTopicAliases = m
  nodup : t.aliases.NodupKeys
  lookup_eq : ∀ a, t.aliases.lookup a = lastMapped history a

theorem Agrees.new (m : Nat) : Agrees m [] (new m) := ⟨rfl, Assoc.nodupKeys_nil, fun _ => rfl⟩

variable {m : Nat} {history : History} {t : ClientTopicAliases}

/-- The table has an entry for every alias that was mapped. -/
theorem Agrees.length_eq (agrees : Agrees m history t) :
    t.aliases.length = (mappedAliases history).card := by
  have keys : (t.aliases.map Prod.fst).toFinset = mappedAliases history := by
    ext a
    rw [mem_mappedAliases, ← agrees.lookup_eq, List.mem_toFinset, Assoc.isSome_lookup]
  rw [← keys, List.toFinset_card_of_nodup agrees.nodup, List.length_map]

/-- A call that maps nothing. -/
theorem Agrees.keep (agrees : Agrees m history t) {e : Call × Except Reason TopicName}
    (h : mapping e = none) : Agrees m (history ++ [e]) t :=
  ⟨agrees.max_eq, agrees.nodup, fun a => by rw [lastMapped_append_none h, agrees.lookup_eq]⟩

/-- A call that maps an alias. -/
theorem Agrees.insert (agrees : Agrees m history t) {e : Call × Except Reason TopicName}
    {a : UInt16} {topic : TopicName} (h : mapping e = some (a, topic)) :
    Agrees m (history ++ [e]) { t with aliases := t.aliases.insert a topic } := by
  refine ⟨agrees.max_eq, agrees.nodup.insert a topic, fun a' => ?_⟩
  rw [lastMapped_append_some h]
  by_cases same : a' = a
  · rw [if_pos same, same]
    exact Assoc.lookup_insert_self _ _ _
  · rw [if_neg same, ← agrees.lookup_eq]
    exact Assoc.lookup_insert_of_ne _ _ same

/-! ## One call -/

/-- What a call is to do after this history. -/
structure Resolves (m : Nat) (history : History) (t : ClientTopicAliases) (c : Call) : Prop where
  succeeds : (∃ topic, (call t c).2 = .ok topic) ↔ Accepted m history c
  given : c.2 ≠ "" → ∀ topic, (call t c).2 = .ok topic → topic = c.2
  mapped : c.2 = "" → ∀ topic, (call t c).2 = .ok topic →
    ∃ a ∈ c.1, lastMapped history a.val = some topic
  unchanged : ∀ e, (call t c).2 = .error e → (call t c).1 = t

theorem call_plain {topic : TopicName} (h : topic ≠ "") :
    call t (none, topic) = (t, .ok topic) := by
  simp [call, ClientTopicAliases.setAndGet, h]

theorem call_empty :
    call t (none, "") =
      (t, .error (PublishPath.aliasError "‘alias’ and ‘topic’ are both empty")) := by
  simp [call, ClientTopicAliases.setAndGet]

theorem call_known {a : NonZeroU16} {topic : TopicName} (h : t.aliases.lookup a.val = some topic) :
    call t (some a, "") = (t, .ok topic) := by
  simp [call, ClientTopicAliases.setAndGet, h]

theorem call_unknown {a : NonZeroU16} (h : t.aliases.lookup a.val = none) :
    ∃ e, call t (some a, "") = (t, .error e) := by
  simp [call, ClientTopicAliases.setAndGet, h]

/-- An alias is given a topic if it is mapped or the table has room. -/
def HasRoom (t : ClientTopicAliases) (a : NonZeroU16) : Prop :=
  (t.aliases.lookup a.val).isSome ∨ t.aliases.length < t.maxTopicAliases

theorem hasRoom_iff {a : NonZeroU16} : HasRoom t a ↔
    ((t.aliases.lookup a.val).isSome || decide (t.aliases.length < t.maxTopicAliases)) = true := by
  rw [HasRoom, Bool.or_eq_true, decide_eq_true_eq]

theorem call_room {a : NonZeroU16} {topic : TopicName} (h : topic ≠ "")
    (room : HasRoom t a) :
    call t (some a, topic) = ({ t with aliases := t.aliases.insert a.val topic }, .ok topic) := by
  rw [call, ClientTopicAliases.setAndGet]
  simp only [if_neg h, if_pos (hasRoom_iff.mp room)]

theorem call_full {a : NonZeroU16} {topic : TopicName} (h : topic ≠ "")
    (full : ¬ HasRoom t a) :
    ∃ e, call t (some a, topic) = (t, .error e) := by
  rw [call, ClientTopicAliases.setAndGet]
  simp only [if_neg h, if_neg (mt hasRoom_iff.mpr full)]
  exact ⟨_, rfl⟩

theorem Resolves.of_ok {c : Call} {t' : ClientTopicAliases} {topic : TopicName}
    (h : call t c = (t', .ok topic)) (accepted : Accepted m history c)
    (given : c.2 ≠ "" → topic = c.2)
    (mapped : c.2 = "" → ∃ a ∈ c.1, lastMapped history a.val = some topic) :
    Resolves m history t c := by
  have answer : (call t c).2 = .ok topic := by rw [h]
  refine ⟨⟨fun _ => accepted, fun _ => ⟨topic, answer⟩⟩, fun hc topic' ok => ?_,
    fun hc topic' ok => ?_, fun e error => ?_⟩
  · rw [answer] at ok
    exact Except.ok.inj ok ▸ given hc
  · rw [answer] at ok
    exact Except.ok.inj ok ▸ mapped hc
  · rw [answer] at error
    cases error

theorem Resolves.of_error {c : Call} {e : Reason} (h : call t c = (t, .error e))
    (refused : ¬ Accepted m history c) : Resolves m history t c := by
  have answer : (call t c).2 = .error e := by rw [h]
  refine ⟨⟨fun ⟨topic, ok⟩ => ?_, fun accepted => absurd accepted refused⟩, fun _ topic ok => ?_,
    fun _ topic ok => ?_, fun _ _ => by rw [h]⟩
  all_goals
    rw [answer] at ok
    cases ok

/-- A call does what it is to do, and the table goes on holding what the history says. -/
theorem Agrees.step (agrees : Agrees m history t) (c : Call) :
    Resolves m history t c ∧ Agrees m (history ++ [(c, (call t c).2)]) (call t c).1 := by
  obtain ⟨aliasId, topic⟩ := c
  by_cases empty : topic = ""
  · subst empty
    cases aliasId with
    | none =>
        refine ⟨.of_error call_empty ?_, ?_⟩
        · rintro (⟨nonempty, -⟩ | ⟨-, a, ha, -⟩)
          · exact nonempty rfl
          · cases ha
        · rw [call_empty]
          exact agrees.keep rfl
    | some a =>
        cases known : t.aliases.lookup a.val with
        | none =>
            obtain ⟨e, failed⟩ := call_unknown known
            refine ⟨.of_error failed ?_, ?_⟩
            · rintro (⟨nonempty, -⟩ | ⟨-, a', ha, mapped⟩)
              · exact nonempty rfl
              · cases ha
                rw [← agrees.lookup_eq, known] at mapped
                cases mapped
            · rw [failed]
              exact agrees.keep rfl
        | some topic =>
            have mapped : lastMapped history a.val = some topic := by rw [← agrees.lookup_eq, known]
            refine ⟨.of_ok (call_known known) (.inr ⟨rfl, a, rfl, by rw [mapped]; rfl⟩)
              (fun nonempty => absurd rfl nonempty) fun _ => ⟨a, rfl, mapped⟩, ?_⟩
            rw [call_known known]
            exact agrees.keep (by simp [mapping])
  · cases aliasId with
    | none =>
        refine ⟨.of_ok (call_plain empty) (.inl ⟨empty, fun a ha => nomatch ha⟩) (fun _ => rfl)
          fun h => absurd h empty, ?_⟩
        rw [call_plain empty]
        exact agrees.keep rfl
    | some a =>
        have room_iff : HasRoom t a ↔
            (lastMapped history a.val).isSome ∨ (mappedAliases history).card < m := by
          rw [HasRoom, agrees.lookup_eq, agrees.length_eq, agrees.max_eq]
        by_cases room : HasRoom t a
        · refine ⟨.of_ok (call_room empty room) (.inl ⟨empty, ?_⟩) (fun _ => rfl)
            fun h => absurd h empty, ?_⟩
          · rintro a' ha
            cases ha
            exact room_iff.mp room
          · rw [call_room empty room]
            exact agrees.insert (by simp [mapping, empty])
        · obtain ⟨e, failed⟩ := call_full empty room
          refine ⟨.of_error failed ?_, ?_⟩
          · rintro (⟨-, fits⟩ | ⟨h, -⟩)
            · exact room (room_iff.mpr (fits a rfl))
            · exact empty h
          · rw [failed]
            exact agrees.keep rfl

/-! ## All calls -/

theorem Agrees.respond (agrees : Agrees m history t) (calls : List Call) :
    Agrees m (history ++ calls.zip (Machine.respond call t calls).2)
      (Machine.respond call t calls).1 := by
  induction calls generalizing history t with
  | nil =>
      rw [List.zip_nil_left, List.append_nil]
      exact agrees
  | cons c calls ih =>
      have rest := ih (agrees.step c).2
      rw [List.append_assoc] at rest
      exact rest

/-- After any calls, the next one succeeds exactly when it is to, and resolves as the last
mappings say. -/
theorem aliases_exact (m : Nat) (calls : List Call) (c : Call) :
    Resolves m (calls.zip (Machine.respond call (new m) calls).2)
      (Machine.respond call (new m) calls).1 c :=
  (((Agrees.new m).respond calls).step c).1

/-- At a maximum of 1, alias 5 is taken. -/
theorem alias_above_maximum :
    ¬ ∀ (m : Nat) (calls : List Call) (c : Call),
        (∃ topic, (call (Machine.respond call (new m) calls).1 c).2 = .ok topic) ↔
          (c.2 ≠ "" ∧ ∀ a ∈ c.1, a.val.toNat ≤ m) ∨
            (c.2 = "" ∧ ∃ a ∈ c.1,
              (lastMapped (calls.zip (Machine.respond call (new m) calls).2) a.val).isSome) := by
  intro claimed
  have fifth : (⟨5, by decide⟩ : NonZeroU16).val.toNat = 5 := rfl
  rcases (claimed 1 [] (some ⟨5, by decide⟩, "t")).mp ⟨"t", rfl⟩ with ⟨-, bound⟩ | ⟨empty, -⟩
  · have below := bound _ rfl
    omega
  · exact absurd empty (by decide)

end OxiMqtt.Session.ClientAliases

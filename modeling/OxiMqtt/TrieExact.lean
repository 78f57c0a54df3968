import Mathlib.Data.Finset.Card
import OxiMqtt.Lib.Machine
import OxiMqtt.RetainLimit

/-!
# The trees hold what a plain map holds

Both trees are run beside a plain container that has no nodes: the subscription tree beside the set
of the stored pairs, the tree of retained messages beside a map from topics to values.  Every
operation answers the same on both sides, and what is left of the tree has no node without use.

* `TreeExact`, `RetainExact`: how a tree is related to its plain container.
* `tries_exact`: the relation holds after any operations, with the same answers.
-/

namespace OxiMqtt

open Collections

/-! ## The subscription tree -/

section Tree

variable {V : Type} [LinearOrder V]

/-- An update of the tree and its answer. -/
def TreeOp.perform (n : TopicTree V) : TreeOp V → TopicTree V × Bool
  | insert filter value => n.insert filter value
  | remove filter value => n.remove filter value

/-- The update of the set of the stored pairs; the answer says whether a pair came or went. -/
def TreeOp.performPlain (s : Finset (Topic × V)) : TreeOp V → Finset (Topic × V) × Bool
  | insert filter value => (Insert.insert (filter, value) s, (filter, value) ∉ s)
  | remove filter value => (s.erase (filter, value), (filter, value) ∈ s)

/-- The tree holds these pairs and nothing else, and counts them. -/
structure TreeExact (n : TopicTree V) (s : Finset (Topic × V)) : Prop where
  tidy : Trie.Tidy n
  stored : ∀ filter value, value ∈ n.valuesAt filter.levels ↔ (filter, value) ∈ s
  size : n.valuesSize = s.card

theorem treeExact_default : TreeExact (Node.default : TopicTree V) ∅ where
  tidy := Trie.tidy_empty
  stored filter value := by simp
  size := rfl

/-- One insertion: what it does to the shape, the size and the answer. -/
theorem Node.insert_spec {n : TopicTree V} (tidy : Trie.Tidy n) (filter : Topic) (value : V) :
    Trie.Tidy (n.insert filter value).1 ∧
      (n.insert filter value).1.valuesSize =
        n.valuesSize + (if value ∈ n.valuesAt filter.levels then 0 else 1) ∧
      (n.insert filter value).2 = decide (value ∉ n.valuesAt filter.levels) := by
  have size := Trie.size_alter (fun vs => (OrdSet.insert vs value).1) filter.levels tidy
  have grown := OrdSet.length_insert (n.valuesAt filter.levels) value
  rw [← Node.valuesAt_eq_payloadAt] at size
  rw [Node.insert, Node.insertPath_eq_alter]
  refine ⟨tidy.alter _ _, ?_, OrdSet.insert_snd _ _⟩
  change Node.valuesSize _ + (n.valuesAt filter.levels).toList.length =
    n.valuesSize + ((n.valuesAt filter.levels).insert value).1.toList.length at size
  dsimp only
  omega

/-- One removal. -/
theorem Node.remove_spec {n : TopicTree V} (tidy : Trie.Tidy n) (filter : Topic) (value : V) :
    Trie.Tidy (n.remove filter value).1 ∧
      (n.remove filter value).1.valuesSize +
        (if value ∈ n.valuesAt filter.levels then 1 else 0) = n.valuesSize ∧
      (n.remove filter value).2 = decide (value ∈ n.valuesAt filter.levels) := by
  have size := Trie.size_alter (fun vs => (OrdSet.remove vs value).1) filter.levels tidy
  have shrunk := OrdSet.length_remove (n.valuesAt filter.levels) value
  rw [← Node.valuesAt_eq_payloadAt] at size
  rw [Node.remove, Node.removePath_eq_alter]
  refine ⟨tidy.alter _ _, ?_, rfl⟩
  change Node.valuesSize _ + (n.valuesAt filter.levels).toList.length =
    n.valuesSize + ((n.valuesAt filter.levels).remove value).1.toList.length at size
  dsimp only
  omega

/-- One update keeps tree and set together and answers the same. -/
theorem TreeExact.perform {n : TopicTree V} {s : Finset (Topic × V)} (exact : TreeExact n s)
    (op : TreeOp V) : TreeExact (op.perform n).1 (op.performPlain s).1 ∧
      (op.perform n).2 = (op.performPlain s).2 := by
  cases op with
  | insert filter value =>
      obtain ⟨tidy, size, answer⟩ := Node.insert_spec exact.tidy filter value
      simp only [exact.stored] at size answer
      refine ⟨⟨tidy, ?_, ?_⟩, answer⟩
      · intro f v
        change v ∈ (n.insert filter value).1.valuesAt f.levels ↔ _
        rw [Node.mem_valuesAt_insert, exact.stored]
        simp [TreeOp.performPlain]
      · change (n.insert filter value).1.valuesSize = (Insert.insert (filter, value) s).card
        rw [size, exact.size, Finset.card_insert_eq_ite]
        split <;> rfl
  | remove filter value =>
      obtain ⟨tidy, size, answer⟩ := Node.remove_spec exact.tidy filter value
      simp only [exact.stored] at size answer
      refine ⟨⟨tidy, ?_, ?_⟩, answer⟩
      · intro f v
        change v ∈ (n.remove filter value).1.valuesAt f.levels ↔ _
        rw [Node.mem_valuesAt_remove, exact.stored]
        simp [TreeOp.performPlain]
      · change (n.remove filter value).1.valuesSize = (s.erase (filter, value)).card
        rw [Finset.card_erase_eq_ite, ← exact.size]
        split <;> rename_i h <;> simp only [h, if_true, if_false] at size <;> omega

/-- Removing what has just been added gives the same tree. -/
theorem TreeExact.restored {n : TopicTree V} {s : Finset (Topic × V)} (exact : TreeExact n s)
    {filter : Topic} {value : V} (fresh : (filter, value) ∉ s) :
    Trie.Same ((n.insert filter value).1.remove filter value).1 n := by
  have there := (exact.perform (.insert filter value)).1
  have back := (there.perform (.remove filter value)).1
  refine back.tidy.same exact.tidy ?_
  intro path
  rw [← Node.valuesAt_eq_payloadAt, ← Node.valuesAt_eq_payloadAt]
  refine OrdSet.ext_mem ?_
  intro v
  have after := back.stored ⟨path⟩ v
  have before := exact.stored ⟨path⟩ v
  change v ∈ Node.valuesAt path _ ↔ v ∈ Node.valuesAt path n
  rw [after, before]
  change _ ∈ (Insert.insert (filter, value) s).erase (filter, value) ↔ _
  rw [Finset.erase_insert fresh]

end Tree

/-! ## The tree of retained messages -/

section RetainTree

variable {V : Type}

/-- An update of the tree of retained messages: `retain` is called without a limit. -/
inductive RetainUpdate (V : Type) : Type
  | insert (topic : Topic) (value : V)
  | remove (topic : Topic)
  | retain (f : V → Bool)

/-- What an update answers. -/
inductive RetainAnswer (V : Type) : Type
  | done
  | old (value : Option V)
  | removed (count : Nat)
  deriving DecidableEq

namespace RetainUpdate

/-- The update of the tree, where `usize::MAX` stands for no limit. -/
def perform (usizeMax : Nat) (n : RetainTree V) : RetainUpdate V → RetainTree V × RetainAnswer V
  | insert topic value => (n.insert topic value, .done)
  | remove topic => ((n.remove topic).1, .old (n.remove topic).2)
  | retain f => ((n.retain usizeMax f).1, .removed (n.retain usizeMax f).2)

/-- The update of the map. -/
def performPlain (m : Assoc Topic V) : RetainUpdate V → Assoc Topic V × RetainAnswer V
  | insert topic value => (m.insert topic value, .done)
  | remove topic => (m.erase topic, .old (m.lookup topic))
  | retain f => (m.filter fun e => f e.2, .removed (m.filter fun e => !f e.2).length)

/-- A topic has a level, as the parser makes it, and the number of values is a `usize`. -/
def Fits (usizeMax : Nat) (m : Assoc Topic V) : RetainUpdate V → Prop
  | insert topic _ => topic.levels ≠ []
  | .remove _ => True
  | retain _ => m.length ≤ usizeMax

instance (usizeMax : Nat) (m : Assoc Topic V) (update : RetainUpdate V) :
    Decidable (update.Fits usizeMax m) :=
  match update with
  | insert topic _ => inferInstanceAs (Decidable (topic.levels ≠ []))
  | .remove _ => inferInstanceAs (Decidable True)
  | retain _ => inferInstanceAs (Decidable (m.length ≤ usizeMax))

end RetainUpdate

/-- The tree holds these values and nothing else, and counts them. -/
structure RetainExact (n : RetainTree V) (m : Assoc Topic V) : Prop where
  keys : m.NodupKeys
  tidy : Trie.Tidy n
  stored : ∀ topic, n.valueAt topic.levels = m.lookup topic
  size : n.valuesSize = m.length
  root : n.value = none

theorem retainExact_default : RetainExact (RetainNode.default : RetainTree V) [] where
  keys := Assoc.nodupKeys_nil
  tidy := Trie.tidy_empty
  stored topic := RetainNode.valueAt_default topic.levels
  size := rfl
  root := rfl

/-- The rejected values of the map are those of the tree. -/
theorem RetainExact.length_rejects {n : RetainTree V} {m : Assoc Topic V} (exact : RetainExact n m)
    (f : V → Bool) :
    (RetainNode.rejects f n.branches).length = (m.filter fun e => !f e.2).length := by
  have same : ((RetainNode.walked n.branches).map fun e => ((⟨e.1⟩ : Topic), e.2)).Perm m := by
    rw [List.perm_ext_iff_of_nodup _ (List.Nodup.of_map _ exact.keys)]
    · intro e
      obtain ⟨⟨path⟩, v⟩ := e
      have stored : m.lookup ⟨path⟩ = n.valueAt path := (exact.stored ⟨path⟩).symm
      have walk : (path, v) ∈ RetainNode.walked n.branches ↔
          path ≠ [] ∧ n.valueAt path = some v :=
        RetainNode.mem_walked_branches (RetainNode.distinct_of_tidy exact.tidy)
      have below : n.valueAt path = some v → path ≠ [] := by
        intro held root
        rw [root, show n.valueAt [] = none from exact.root] at held
        cases held
      rw [exact.keys.mem_iff_lookup, stored]
      constructor
      · intro h
        obtain ⟨e, he, found⟩ := List.mem_map.mp h
        cases found
        exact (walk.mp he).2
      · intro held
        exact List.mem_map.mpr ⟨(path, v), walk.mpr ⟨below held, held⟩, rfl⟩
    · refine List.Nodup.map ?_ (List.Nodup.of_map Prod.fst ?_)
      · intro e e' h
        obtain ⟨path, v⟩ := e
        obtain ⟨path', v'⟩ := e'
        cases h
        rfl
      · exact RetainNode.nodup_walked_branches (RetainNode.distinct_of_tidy exact.tidy)
  rw [RetainNode.rejects, List.length_map, ← (same.filter fun e => !f e.2).length_eq,
    List.filter_map, List.length_map]
  rfl

/-- A value for a name. -/
theorem RetainExact.insert {n : RetainTree V} {m : Assoc Topic V} (exact : RetainExact n m)
    {topic : Topic} (named : topic.levels ≠ []) (value : V) :
    RetainExact (n.insert topic value) (m.insert topic value) where
  keys := exact.keys.insert _ _
  tidy := by
    rw [RetainNode.insert, RetainNode.insertPath_eq_alter]
    exact exact.tidy.alter _ _
  stored := by
    intro t
    rw [RetainNode.insert, RetainNode.valueAt_insertPath]
    simp only [Topic.levels_inj]
    split
    · rename_i here
      rw [here, Assoc.lookup_insert_self]
    · rename_i other
      rw [Assoc.lookup_insert_of_ne _ _ other, exact.stored]
  size := by
    have size := RetainNode.size_alter exact.tidy (fun _ => some value) topic.levels
    have grown := exact.keys.length_insert topic value
    have before := exact.size
    rw [exact.stored] at size
    rw [RetainNode.insert, RetainNode.insertPath_eq_alter]
    simp only [Option.isSome_some, if_true] at size
    omega
  root := by
    have root := RetainNode.valueAt_insertPath topic.levels value n []
    rw [if_neg (Ne.symm named)] at root
    exact root.trans exact.root

/-- The end of a name. -/
theorem RetainExact.remove {n : RetainTree V} {m : Assoc Topic V} (exact : RetainExact n m)
    (topic : Topic) :
    RetainExact (n.remove topic).1 (m.erase topic) ∧ (n.remove topic).2 = m.lookup topic := by
  refine ⟨⟨exact.keys.erase _, ?_, ?_, ?_, ?_⟩, ?_⟩
  · rw [RetainNode.remove, RetainNode.removePath_eq_alter]
    exact exact.tidy.alter _ _
  · intro t
    rw [RetainNode.remove, RetainNode.valueAt_removePath]
    simp only [Topic.levels_inj]
    split
    · rename_i here
      rw [here, Assoc.lookup_erase_self]
    · rename_i other
      rw [Assoc.lookup_erase_of_ne _ other, exact.stored]
  · have size := RetainNode.size_alter exact.tidy (fun _ => none) topic.levels
    have shrunk := exact.keys.length_erase topic
    have before := exact.size
    rw [exact.stored] at size
    rw [RetainNode.remove, RetainNode.removePath_eq_alter]
    simp only [Option.isSome_none, Bool.false_eq_true, if_false] at size
    dsimp only
    omega
  · have root := RetainNode.valueAt_removePath topic.levels n []
    refine root.trans ?_
    split
    · rfl
    · exact exact.root
  · rw [RetainNode.remove, RetainNode.removePath_eq_alter, exact.stored]

/-- A purge without a limit. -/
theorem RetainExact.retain {usizeMax : Nat} {n : RetainTree V} {m : Assoc Topic V}
    (exact : RetainExact n m) {f : V → Bool} (fits : m.length ≤ usizeMax) :
    RetainExact (n.retain usizeMax f).1 (m.filter fun e => f e.2) ∧
      (n.retain usizeMax f).2 = (m.filter fun e => !f e.2).length := by
  have distinct := RetainNode.distinct_of_tidy exact.tidy
  have rejects := exact.length_rejects f
  have short : (m.filter fun e => !f e.2).length ≤ usizeMax :=
    (List.length_filter_le _ _).trans fits
  obtain ⟨count, kept⟩ := RetainNode.retain_all distinct (rejects.trans_le short)
  have law := RetainNode.purgesBelow_retain distinct usizeMax f
  refine ⟨⟨exact.keys.filter _, RetainNode.tidy_retain exact.tidy usizeMax f, ?_, ?_,
    law.root.trans exact.root⟩, count.trans rejects⟩
  · intro t
    have filtered : (n.retain usizeMax f).1.valueAt t.levels = (n.valueAt t.levels).filter f := by
      by_cases nowhere : t.levels = []
      · rw [nowhere, show RetainNode.valueAt [] n = none from exact.root]
        exact law.root.trans exact.root
      · exact kept t.levels nowhere
    rw [exact.stored, ← exact.keys.lookup_filter] at filtered
    exact filtered
  · have parts := List.length_eq_length_filter_add (l := m) fun e => f e.2
    have total := law.count
    have before := exact.size
    omega

/-- One update keeps tree and map together and answers the same. -/
theorem RetainExact.perform {usizeMax : Nat} {n : RetainTree V} {m : Assoc Topic V}
    (exact : RetainExact n m) {op : RetainUpdate V} (fits : op.Fits usizeMax m) :
    RetainExact (op.perform usizeMax n).1 (op.performPlain m).1 ∧
      (op.perform usizeMax n).2 = (op.performPlain m).2 := by
  cases op with
  | insert topic value => exact ⟨exact.insert fits value, rfl⟩
  | remove topic => exact ⟨(exact.remove topic).1, congrArg RetainAnswer.old (exact.remove topic).2⟩
  | retain f =>
      have purged := exact.retain (f := f) fits
      exact ⟨purged.1, congrArg RetainAnswer.removed purged.2⟩

/-- Removing what has just been added where there was nothing gives the same tree. -/
theorem RetainExact.restored {n : RetainTree V} {m : Assoc Topic V} (exact : RetainExact n m)
    {topic : Topic} (fresh : m.lookup topic = none) (value : V) :
    Trie.Same ((n.insert topic value).remove topic).1 n := by
  rw [RetainNode.remove, RetainNode.removePath_eq_alter, RetainNode.insert,
    RetainNode.insertPath_eq_alter]
  refine ((exact.tidy.alter _ _).alter _ _).same exact.tidy ?_
  intro path
  rw [Trie.payloadAt_alter, Trie.payloadAt_alter]
  split
  · rename_i here
    rw [here, ← RetainNode.valueAt_eq_payloadAt, exact.stored, fresh]
  · rfl

end RetainTree

/-! ## Whole histories -/

section Histories

variable {V W : Type} [LinearOrder V]

/-- The subscription tree after a list of updates, and the answers. -/
def treeRun (ops : List (TreeOp V)) : TopicTree V × List Bool :=
  Machine.respond TreeOp.perform Node.default ops

/-- The set of the stored pairs after the same updates. -/
def plainRun (ops : List (TreeOp V)) : Finset (Topic × V) × List Bool :=
  Machine.respond TreeOp.performPlain ∅ ops

/-- The tree of retained messages after a list of updates, and the answers. -/
def retainRun (usizeMax : Nat) (updates : List (RetainUpdate W)) :
    RetainTree W × List (RetainAnswer W) :=
  Machine.respond (RetainUpdate.perform usizeMax) RetainNode.default updates

/-- The map after the same updates. -/
def retainPlainRun (updates : List (RetainUpdate W)) : Assoc Topic W × List (RetainAnswer W) :=
  Machine.respond RetainUpdate.performPlain [] updates

/-- Every topic that is inserted has a level, and a purge never finds more values than a `usize`
counts. -/
def AllFit (usizeMax : Nat) (updates : List (RetainUpdate W)) : Prop :=
  Machine.Guarded (fun m update => some (RetainUpdate.performPlain m update).1)
    (RetainUpdate.Fits usizeMax) [] updates

instance (usizeMax : Nat) (updates : List (RetainUpdate W)) : Decidable (AllFit usizeMax updates) :=
  inferInstanceAs (Decidable (Machine.Guarded
    (fun m update => some (RetainUpdate.performPlain m update).1)
    (RetainUpdate.Fits usizeMax) [] updates))

theorem treeRun_exact (ops : List (TreeOp V)) :
    TreeExact (treeRun ops).1 (plainRun ops).1 ∧ (treeRun ops).2 = (plainRun ops).2 := by
  have any : ∀ (s : Finset (Topic × V)), Machine.Guarded
      (fun s op => some (TreeOp.performPlain s op).1) (fun _ _ => True) s ops := by
    induction ops with
    | nil => exact fun _ => trivial
    | cons op ops ih => exact fun s => ⟨trivial, fun s' _ => ih s'⟩
  exact Machine.respond_related (fun _ _ op exact _ => exact.perform op) treeExact_default (any ∅)

theorem retainRun_exact {usizeMax : Nat} {updates : List (RetainUpdate W)}
    (fit : AllFit usizeMax updates) :
    RetainExact (retainRun usizeMax updates).1 (retainPlainRun updates).1 ∧
      (retainRun usizeMax updates).2 = (retainPlainRun updates).2 := by
  have keep : ∀ (n : RetainTree W) (m : Assoc Topic W) (update : RetainUpdate W),
      RetainExact n m → update.Fits usizeMax m →
        RetainExact (RetainUpdate.perform usizeMax n update).1 (update.performPlain m).1 ∧
          (RetainUpdate.perform usizeMax n update).2 = (update.performPlain m).2 :=
    fun _ _ _ exact fits => exact.perform fits
  exact Machine.respond_related keep retainExact_default fit

/-- After any updates, both trees are tidy, hold what the plain containers hold and count it, have
answered as these do, and take back what is added where nothing was. -/
theorem tries_exact (ops : List (TreeOp V)) (usizeMax : Nat) (updates : List (RetainUpdate W))
    (fit : AllFit usizeMax updates) :
    (TreeExact (treeRun ops).1 (plainRun ops).1 ∧ (treeRun ops).2 = (plainRun ops).2 ∧
      ∀ filter value, (filter, value) ∉ (plainRun ops).1 →
        Trie.Same (((treeRun ops).1.insert filter value).1.remove filter value).1
          (treeRun ops).1) ∧
    (RetainExact (retainRun usizeMax updates).1 (retainPlainRun updates).1 ∧
      (retainRun usizeMax updates).2 = (retainPlainRun updates).2 ∧
      ∀ topic value, (retainPlainRun updates).1.lookup topic = none →
        Trie.Same (((retainRun usizeMax updates).1.insert topic value).remove topic).1
          (retainRun usizeMax updates).1) := by
  obtain ⟨exact, answers⟩ := treeRun_exact ops
  obtain ⟨retained, answers'⟩ := retainRun_exact fit
  exact ⟨⟨exact, answers, fun _ _ fresh => exact.restored fresh⟩,
    ⟨retained, answers', fun _ value fresh => retained.restored fresh value⟩⟩

/-- A retained message is set and another one purged. -/
theorem tries_exact_purge :
    RetainExact
      (retainRun (2 ^ 64 - 1) [.insert ⟨[.normal "a"]⟩ 4, .insert ⟨[.normal "b"]⟩ 5,
        .retain fun v => v = 4]).1
      (retainPlainRun [.insert ⟨[.normal "a"]⟩ 4, .insert ⟨[.normal "b"]⟩ 5,
        .retain fun v => v = 4]).1 := by
  have fit : AllFit (2 ^ 64 - 1) [.insert ⟨[.normal "a"]⟩ 4, .insert ⟨[.normal "b"]⟩ 5,
      .retain fun v => v = 4] := by decide
  exact (tries_exact ([] : List (TreeOp Nat)) _ _ fit).2.1

/-- A pair that replaces another one does not give it back when it is removed, and the value at a
topic without levels is passed by. -/
theorem replaced_not_restored :
    (RetainNode.valueAt [.normal "a"]
        (RetainNode.insert RetainNode.default ⟨[.normal "a"]⟩ 4) ≠ some 5 ∧
      ¬Trie.Same
        ((((RetainNode.default : RetainTree Nat).insert ⟨[.normal "a"]⟩ 4).insert
          ⟨[.normal "a"]⟩ 5).remove ⟨[.normal "a"]⟩).1
        ((RetainNode.default : RetainTree Nat).insert ⟨[.normal "a"]⟩ 4)) ∧
    (retainRun (2 ^ 64 - 1) [.insert ⟨[]⟩ 4, .retain fun _ => false]).2 ≠
      (retainPlainRun [.insert ⟨[]⟩ 4, .retain fun _ => false]).2 := by
  refine ⟨⟨by decide, ?_⟩, by decide⟩
  intro same
  have leaf := same [.normal "a"]
  cases leaf

end Histories

end OxiMqtt

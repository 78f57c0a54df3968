import OxiMqtt.TrieMatch

/-!
# The tree of retained messages

The tree of `retain.rs`.  A node holds the value retained at its path and its branches by level;
`insert` and `remove` walk the levels of a topic name.  `matches` walks the levels of a topic
filter, and where the filter has a wildcard it looks at all branches.  The walks over the branches
of a node are functions of their own, which recurse into the tree.

* `mem_matchesPath`, `nodup_matchesPath`: what a walk finds, by the rules for a filter and a topic
  name; each topic once.
* `matches_dual_to_subscriptions`: after any updates, the topics a filter finds are the topics that
  the filter would receive as a subscription.
-/

namespace OxiMqtt

open Collections

/-- `Node<V>` of the retained messages. -/
inductive RetainNode (V : Type) : Type
  | mk (value : Option V) (branches : List (Level × RetainNode V))

/-- `RetainTree<V>`, an alias for its root node. -/
abbrev RetainTree (V : Type) : Type := RetainNode V

namespace RetainNode

variable {V : Type}

def value : RetainNode V → Option V
  | mk value _ => value

def branches : RetainNode V → Assoc Level (RetainNode V)
  | mk _ branches => branches

/-- `Default for Node` -/
def default : RetainNode V := mk none []

@[simp] theorem value_mk (v : Option V) (bs : Assoc Level (RetainNode V)) :
    (mk v bs).value = v := rfl
@[simp] theorem branches_mk (v : Option V) (bs : Assoc Level (RetainNode V)) :
    (mk v bs).branches = bs := rfl

/-- `self.branches.get(l)` -/
def child (n : RetainNode V) (l : Level) : Option (RetainNode V) := n.branches.lookup l

/-- `Node::_insert`.  The source reverses the level vector and pops from its back, which takes the
levels from the front. -/
def insertPath : List Level → V → RetainNode V → RetainNode V
  | [], v, n => mk (some v) n.branches
  | first :: path, v, n =>
      mk n.value (Assoc.insert n.branches first (insertPath path v ((n.child first).getD default)))

/-- `Node::insert` -/
def insert (n : RetainNode V) (topic : Topic) (v : V) : RetainNode V := insertPath topic.levels v n

/-- `x.value.is_none() && x.branches.is_empty()` -/
def isBare (n : RetainNode V) : Bool := n.value.isNone && n.branches.isEmpty

/-- `Node::_remove` -/
def removePath : List Level → RetainNode V → RetainNode V × Option V
  | [], n => (mk none n.branches, n.value)
  | t :: path, n =>
      match n.child t with
      | some x =>
          let r := removePath path x
          if r.1.isBare then (mk n.value (Assoc.erase n.branches t), r.2)
          else (mk n.value (Assoc.insert n.branches t r.1), r.2)
      | none => (n, none)

/-- `Node::remove` -/
def remove (n : RetainNode V) (topic : Topic) : RetainNode V × Option V :=
  removePath topic.levels n

mutual

/-- `Node::values_size` -/
def valuesSize : RetainNode V → Nat
  | mk value branches =>
      let len := branchesSize branches
      if value.isSome then len + 1 else len

/-- `self.branches.values().map(|n| n.values_size()).sum()` -/
def branchesSize : List (Level × RetainNode V) → Nat
  | [] => 0
  | (_, n) :: branches => valuesSize n + branchesSize branches

end

/-! ## Matching -/

/-- `add_to_out`, for a value that may be absent. -/
def itemOf (levels : List Level) (v : Option V) : List (Topic × V) :=
  (v.map fun v => (⟨levels⟩, v)).toList

/-- A `#` behind the level that has just been walked matches the parent. -/
def parentItem (path levels : List Level) (v : Option V) : List (Topic × V) :=
  if path.head? = some .multiWildcard then itemOf levels v else []

/-- Topic names that start with `$` are not matched by a leading wildcard. -/
def secluded (subPath : List Level) (k : Level) : Bool :=
  subPath.isEmpty && k != .blank && k.isMetadata

mutual

/-- `Node::_matches`, with the pairs in the order in which they are pushed to `out`. -/
def matchesPath : RetainNode V → List Level → List Level → List (Topic × V)
  | mk value _, [], subPath => itemOf subPath value
  | mk _ branches, first :: path, subPath =>
      if branches.isEmpty then []
      else if (branches.lookup first).isSome then matchPrecise branches first path subPath
      else if first = .singleWildcard then matchSingle branches path subPath
      else if first = .multiWildcard then matchMulti branches (first :: path) subPath
      else []

/-- Precise matching: the branch `first`. -/
def matchPrecise : List (Level × RetainNode V) → Level → List Level → List Level → List (Topic × V)
  | [], _, _, _ => []
  | (k, r) :: branches, first, path, subPath =>
      if first = k then
        parentItem path (subPath ++ [k]) r.value ++ matchesPath r path (subPath ++ [k])
      else matchPrecise branches first path subPath

/-- Single layer matching: every branch. -/
def matchSingle : List (Level × RetainNode V) → List Level → List Level → List (Topic × V)
  | [], _, _ => []
  | (k, v) :: branches, path, subPath =>
      (if secluded subPath k then []
      else parentItem path (subPath ++ [k]) v.value ++ matchesPath v path (subPath ++ [k])) ++
        matchSingle branches path subPath

/-- Multilayer matching: every branch, and with the same filter everything below it. -/
def matchMulti : List (Level × RetainNode V) → List Level → List Level → List (Topic × V)
  | [], _, _ => []
  | (k, v) :: branches, path, subPath =>
      (if secluded subPath k then []
      else if v.branches.isEmpty then itemOf (subPath ++ [k]) v.value
      else itemOf (subPath ++ [k]) v.value ++ matchesPath v path (subPath ++ [k])) ++
        matchMulti branches path subPath

end

/-- `Node::matches` -/
def «matches» (n : RetainNode V) (topicFilter : Topic) : List (Topic × V) :=
  matchesPath n topicFilter.levels []

/-! ## What is stored where -/

/-- The value stored at a path. -/
def valueAt : List Level → RetainNode V → Option V
  | [], n => n.value
  | l :: path, n => (n.child l).bind (valueAt path)

theorem valueAt_cons (l : Level) (path : List Level) (n : RetainNode V) :
    valueAt (l :: path) n = (n.child l).bind (valueAt path) := rfl

theorem branchesSize_eq (branches : List (Level × RetainNode V)) :
    branchesSize branches = Assoc.weight valuesSize branches := by
  induction branches with
  | nil => rfl
  | cons b branches ih =>
      rw [branchesSize, ih, Assoc.weight, Assoc.weight, List.map_cons, List.sum_cons]

instance : Trie (RetainNode V) Level (Option V) where
  node := mk
  payload := value
  branches := branches
  vacant := none
  weight o := o.toList.length
  size := valuesSize
  payload_node _ _ := rfl
  branches_node _ _ := rfl
  node_eta n := by cases n; rfl
  weight_eq_zero o := by cases o <;> simp
  size_node o bs := by
    rw [valuesSize, branchesSize_eq]
    cases o <;> simp [Nat.add_comm]

theorem isBare_eq_bare (n : RetainNode V) : n.isBare = Trie.bare n := by
  rw [Bool.eq_iff_iff, Trie.bare_iff, isBare, Bool.and_eq_true, Option.isNone_iff_eq_none,
    List.isEmpty_iff]
  rfl

theorem valueAt_eq_payloadAt (path : List Level) (n : RetainNode V) :
    valueAt path n = Trie.payloadAt path n := by
  induction path generalizing n with
  | nil => rfl
  | cons l path ih =>
      rw [valueAt_cons, Trie.payloadAt_cons, funext ih]
      change (List.lookup l n.branches).bind _ = _
      cases List.lookup l n.branches <;> rfl

theorem getD_lookup_branches (l : Level) (n : RetainNode V) :
    ((Trie.branches n).lookup l).getD Trie.empty = (n.child l).getD default := rfl

theorem insertPath_not_bare (path : List Level) (v : V) (n : RetainNode V) :
    (insertPath path v n).isBare = false := by
  cases path with
  | nil => rfl
  | cons first path => simp [insertPath, isBare, Assoc.insert]

theorem insertPath_eq_alter (path : List Level) (v : V) (n : RetainNode V) :
    insertPath path v n = Trie.alter (fun _ => some v) path n := by
  induction path generalizing n with
  | nil => rfl
  | cons first path ih =>
      have busy := insertPath_not_bare path v ((n.child first).getD default)
      rw [isBare_eq_bare, ih] at busy
      rw [insertPath, ih, Trie.alter_cons, Trie.settle, getD_lookup_branches,
        if_neg (by rw [busy]; exact Bool.false_ne_true)]
      rfl

theorem removePath_eq_alter (path : List Level) (n : RetainNode V) :
    removePath path n = (Trie.alter (fun _ => none) path n, valueAt path n) := by
  induction path generalizing n with
  | nil => rfl
  | cons t path ih =>
      rw [Trie.alter_cons, Trie.settle, getD_lookup_branches, removePath, valueAt_cons]
      cases hx : n.child t with
      | none =>
          have bare : Trie.bare (Trie.alter (fun _ => none) path (default : RetainNode V)) = true :=
            Trie.bare_alter_empty rfl path
          have absent : Assoc.erase (Trie.branches n) t = Trie.branches n :=
            Assoc.erase_of_lookup_eq_none hx
          rw [Option.getD_none, if_pos bare, Assoc.put, absent, Trie.node_eta]
          rfl
      | some x =>
          dsimp only
          rw [Option.getD_some, ih x, ← isBare_eq_bare]
          split <;> rfl

theorem valueAt_default (path : List Level) : valueAt path (default : RetainNode V) = none := by
  rw [valueAt_eq_payloadAt]
  exact Trie.payloadAt_of_bare Trie.bare_empty path

theorem valueAt_insertPath (path : List Level) (v : V) (n : RetainNode V) (p : List Level) :
    valueAt p (insertPath path v n) = if p = path then some v else valueAt p n := by
  rw [insertPath_eq_alter, valueAt_eq_payloadAt, Trie.payloadAt_alter, ← valueAt_eq_payloadAt]

theorem valueAt_removePath (path : List Level) (n : RetainNode V) (p : List Level) :
    valueAt p (removePath path n).1 = if p = path then none else valueAt p n := by
  rw [removePath_eq_alter, valueAt_eq_payloadAt, Trie.payloadAt_alter, ← valueAt_eq_payloadAt]

/-! ## Trees of topic names -/

/-- Every branch has a level of its own, which is not a wildcard. -/
inductive Names : RetainNode V → Prop
  | mk {value : Option V} {branches : List (Level × RetainNode V)} :
      (branches.map Prod.fst).Nodup → (∀ b ∈ branches, b.1.isWildcard = false) →
      (∀ b ∈ branches, Names b.2) → Names (mk value branches)

theorem names_default : Names (default : RetainNode V) :=
  .mk List.nodup_nil (by simp) (by simp)

section Branches

variable {bs : Assoc Level (RetainNode V)} (distinct : (bs.map Prod.fst).Nodup)
  (literal : ∀ b ∈ bs, b.1.isWildcard = false) (below : ∀ b ∈ bs, Names b.2)

include distinct literal below

theorem names_erase (v : Option V) (l : Level) : Names (mk v (Assoc.erase bs l)) := by
  have sub : (Assoc.erase bs l).Sublist bs := List.filter_sublist
  exact .mk (distinct.sublist (sub.map Prod.fst)) (fun b hb => literal b (sub.subset hb))
    fun b hb => below b (sub.subset hb)

theorem names_insert (v : Option V) {l : Level} {n : RetainNode V} (hl : l.isWildcard = false)
    (hn : Names n) : Names (mk v (Assoc.insert bs l n)) := by
  have sub : (Assoc.erase bs l).Sublist bs := List.filter_sublist
  refine .mk (List.nodup_cons.mpr ⟨?_, distinct.sublist (sub.map Prod.fst)⟩) ?_ ?_
  · intro h
    rcases List.mem_map.mp h with ⟨b, hb, same⟩
    have other := (List.mem_filter.mp hb).2
    simp [same] at other
  · intro b hb
    rcases List.mem_cons.mp hb with rfl | hb
    · exact hl
    · exact literal b (sub.subset hb)
  · intro b hb
    rcases List.mem_cons.mp hb with rfl | hb
    · exact hn
    · exact below b (sub.subset hb)

end Branches

theorem Names.insertPath {path : List Level} (free : ∀ l ∈ path, l.isWildcard = false) (v : V)
    {n : RetainNode V} (names : Names n) : Names (insertPath path v n) := by
  induction path generalizing n with
  | nil =>
      cases names with
      | mk distinct literal below => exact .mk distinct literal below
  | cons first path ih =>
      cases names with
      | mk distinct literal below =>
          refine names_insert distinct literal below _ (free first List.mem_cons_self) ?_
          refine ih (fun l hl => free l (List.mem_cons_of_mem _ hl)) ?_
          rw [child, branches_mk]
          cases found : List.lookup first _ with
          | none => exact names_default
          | some r => exact below _ (Assoc.mem_of_lookup found)

theorem Names.removePath (path : List Level) {n : RetainNode V} (names : Names n) :
    Names (removePath path n).1 := by
  induction path generalizing n with
  | nil =>
      cases names with
      | mk distinct literal below => exact .mk distinct literal below
  | cons t path ih =>
      unfold RetainNode.removePath
      cases names with
      | mk distinct literal below =>
          rw [child, branches_mk]
          cases found : List.lookup t _ with
          | none => exact .mk distinct literal below
          | some x =>
              have member := Assoc.mem_of_lookup found
              dsimp only
              split
              · exact names_erase distinct literal below _ t
              · exact names_insert distinct literal below _ (literal _ member)
                  (ih (below _ member))

/-! ## The walks over the branches -/

/-- What is found in one branch: its own value if `#` follows, and what is below it. -/
def itemsBelow (path subPath : List Level) (b : Level × RetainNode V) : List (Topic × V) :=
  parentItem path (subPath ++ [b.1]) b.2.value ++ matchesPath b.2 path (subPath ++ [b.1])

/-- The same in every branch that a wildcard may look at. -/
def itemsInAll (bs : List (Level × RetainNode V)) (path subPath : List Level) : List (Topic × V) :=
  bs.flatMap fun b => if secluded subPath b.1 then [] else itemsBelow path subPath b

theorem matchPrecise_eq (bs : List (Level × RetainNode V)) (first : Level)
    (path subPath : List Level) : matchPrecise bs first path subPath =
      ((bs.lookup first).map fun r => itemsBelow path subPath (first, r)).getD [] := by
  induction bs with
  | nil => rfl
  | cons b bs ih =>
      rcases b with ⟨k, r⟩
      rw [matchPrecise, List.lookup_cons]
      by_cases same : first = k
      · subst same
        rw [if_pos rfl, beq_self_eq_true]
        rfl
      · rw [if_neg same, beq_eq_false_iff_ne.mpr same, ih]

theorem matchSingle_eq (bs : List (Level × RetainNode V)) (path subPath : List Level) :
    matchSingle bs path subPath = itemsInAll bs path subPath := by
  induction bs with
  | nil => rfl
  | cons b bs ih =>
      rcases b with ⟨k, v⟩
      rw [matchSingle, ih]
      rfl

/-- Everything below a branch is what `#` finds there. -/
theorem matchMulti_eq (bs : List (Level × RetainNode V)) (subPath : List Level) :
    matchMulti bs [.multiWildcard] subPath = itemsInAll bs [.multiWildcard] subPath := by
  induction bs with
  | nil => rfl
  | cons b bs ih =>
      rcases b with ⟨k, v⟩
      have below : (if v.branches.isEmpty then itemOf (subPath ++ [k]) v.value
          else itemOf (subPath ++ [k]) v.value ++
            matchesPath v [.multiWildcard] (subPath ++ [k])) =
          itemsBelow [.multiWildcard] subPath (k, v) := by
        rcases v with ⟨value, branches⟩
        change _ = itemOf (subPath ++ [k]) value ++ matchesPath _ _ _
        by_cases leaf : branches.isEmpty = true
        · rw [branches_mk, if_pos leaf, matchesPath, if_pos leaf, List.append_nil]
          rfl
        · rw [branches_mk, if_neg leaf]
          rfl
      rw [matchMulti, ih, below]
      rfl

/-! ## What a walk finds -/

theorem mem_itemOf {levels : List Level} {o : Option V} {t : Topic} {v : V} :
    (t, v) ∈ itemOf levels o ↔ t.levels = levels ∧ o = some v := by
  rcases t with ⟨ls⟩
  cases o with
  | none => simp [itemOf]
  | some w => simp [itemOf, eq_comm]

/-- The topic `t` is at the path `p` below `subPath`, with the value `v`. -/
def StoredAt (n : RetainNode V) (subPath p : List Level) (t : Topic) (v : V) : Prop :=
  t.levels = subPath ++ p ∧ valueAt p n = some v

/-- What a walk from `n` finds: the topics of `n` that match, but for the parent of a `#`, which is
found one level above, and the system topics under a leading wildcard. -/
def Found (n : RetainNode V) (path subPath : List Level) (t : Topic) (v : V) : Prop :=
  ∃ p, StoredAt n subPath p t v ∧ Matches path p ∧ (path = [.multiWildcard] → p ≠ []) ∧
    ¬(subPath = [] ∧ LeadingWildcard path ∧ ∃ l, p.head? = some l ∧ l.isMetadata = true)

theorem found_of_subPath {n : RetainNode V} {path subPath : List Level} {k : Level} {t : Topic}
    {v : V} : Found n path (subPath ++ [k]) t v ↔
      ∃ p, StoredAt n (subPath ++ [k]) p t v ∧ Matches path p ∧
        (path = [.multiWildcard] → p ≠ []) := by
  simp [Found]

/-- Below a branch, nothing but the rule for the rest of the filter counts. -/
theorem mem_itemsBelow {path subPath : List Level} {b : Level × RetainNode V} {t : Topic} {v : V}
    (last : MultiLast path)
    (ih : (t, v) ∈ matchesPath b.2 path (subPath ++ [b.1]) ↔
      Found b.2 path (subPath ++ [b.1]) t v) :
    (t, v) ∈ itemsBelow path subPath b ↔
      ∃ p, t.levels = subPath ++ b.1 :: p ∧ valueAt p b.2 = some v ∧ Matches path p := by
  have levels : ∀ p, subPath ++ [b.1] ++ p = subPath ++ b.1 :: p := by simp
  rw [itemsBelow, List.mem_append, ih, found_of_subPath]
  unfold StoredAt
  simp only [levels]
  by_cases multi : path.head? = some .multiWildcard
  · obtain rfl : path = [.multiWildcard] := by
      rcases List.head?_eq_some_iff.mp multi with ⟨rest, rfl⟩
      rw [last.nil_of_multi]
    rw [parentItem, if_pos multi, mem_itemOf]
    constructor
    · intro h
      rcases h with ⟨at_, some⟩ | ⟨p, stored, rule, -⟩
      · exact ⟨[], at_, some, .multi⟩
      · exact ⟨p, stored.1, stored.2, rule⟩
    · intro h
      rcases h with ⟨p, at_, some, rule⟩
      cases p with
      | nil => exact .inl ⟨at_, some⟩
      | cons l p => exact .inr ⟨l :: p, ⟨at_, some⟩, rule, fun _ => List.cons_ne_nil l p⟩
  · rw [parentItem, if_neg multi]
    constructor
    · intro h
      rcases h with h | ⟨p, stored, rule, -⟩
      · cases h
      · exact ⟨p, stored.1, stored.2, rule⟩
    · intro h
      rcases h with ⟨p, at_, some, rule⟩
      refine .inr ⟨p, ⟨at_, some⟩, rule, fun whole => ?_⟩
      rw [whole] at multi
      exact absurd rfl multi

theorem mem_itemsInAll {bs : List (Level × RetainNode V)} {path subPath : List Level} {t : Topic}
    {v : V} : (t, v) ∈ itemsInAll bs path subPath ↔
      ∃ b ∈ bs, secluded subPath b.1 = false ∧ (t, v) ∈ itemsBelow path subPath b := by
  rw [itemsInAll, List.mem_flatMap]
  refine exists_congr fun b => and_congr_right fun _ => ?_
  cases secluded subPath b.1 <;> simp

/-- At the root, the branches that a wildcard does not look at are those of the system topics. -/
theorem secluded_eq_false_iff {subPath p : List Level} {k : Level} {f : List Level}
    (wild : LeadingWildcard f) :
    secluded subPath k = false ↔
      ¬(subPath = [] ∧ LeadingWildcard f ∧ ∃ l, (k :: p).head? = some l ∧ l.isMetadata = true) := by
  cases subPath <;> cases k <;> simp [secluded, wild, Level.isMetadata]

/-- The topics below a node are those of its branches. -/
theorem storedAt_cons {n : RetainNode V} (distinct : (n.branches.map Prod.fst).Nodup)
    {subPath p : List Level} {k : Level} {t : Topic} {v : V} :
    StoredAt n subPath (k :: p) t v ↔
      ∃ r, (k, r) ∈ n.branches ∧ t.levels = subPath ++ k :: p ∧ valueAt p r = some v := by
  unfold StoredAt
  rw [valueAt_cons, Option.bind_eq_some_iff]
  constructor
  · intro h
    rcases h with ⟨levels, r, found, stored⟩
    exact ⟨r, Assoc.mem_of_lookup found, levels, stored⟩
  · intro h
    rcases h with ⟨r, member, levels, stored⟩
    exact ⟨levels, r, (Assoc.lookup_eq_some_iff_mem distinct).mpr member, stored⟩

/-- The branches under a wildcard, given that a wildcard and the rest of the filter match a level
and what the rest matches. -/
theorem found_in_all {n : RetainNode V} (distinct : (n.branches.map Prod.fst).Nodup)
    {f path subPath : List Level} {t : Topic} {v : V} (wild : LeadingWildcard f)
    (rule : ∀ p, Matches f p ∧ (f = [.multiWildcard] → p ≠ []) ↔
      ∃ k p', p = k :: p' ∧ Matches path p')
    (below : ∀ b ∈ n.branches, (t, v) ∈ itemsBelow path subPath b ↔
      ∃ p, t.levels = subPath ++ b.1 :: p ∧ valueAt p b.2 = some v ∧ Matches path p) :
    (t, v) ∈ itemsInAll n.branches path subPath ↔ Found n f subPath t v := by
  rw [mem_itemsInAll]
  constructor
  · intro h
    rcases h with ⟨⟨k, r⟩, member, shown, item⟩
    rcases (below _ member).mp item with ⟨p, levels, stored, rest⟩
    have whole := (rule (k :: p)).mpr ⟨k, p, rfl, rest⟩
    exact ⟨k :: p, (storedAt_cons distinct).mpr ⟨r, member, levels, stored⟩, whole.1, whole.2,
      (secluded_eq_false_iff wild).mp shown⟩
  · intro h
    rcases h with ⟨p, stored, hit, nonempty, shown⟩
    rcases (rule p).mp ⟨hit, nonempty⟩ with ⟨k, p', rfl, rest⟩
    rcases (storedAt_cons distinct).mp stored with ⟨r, member, levels, some⟩
    exact ⟨(k, r), member, (secluded_eq_false_iff wild).mpr shown,
      (below _ member).mpr ⟨p', levels, some, rest⟩⟩

theorem matches_single_iff {f p : List Level} :
    Matches (.singleWildcard :: f) p ∧ (Level.singleWildcard :: f = [.multiWildcard] → p ≠ []) ↔
      ∃ k p', p = k :: p' ∧ Matches f p' := by
  constructor
  · intro h
    cases h.1 with
    | single rest => exact ⟨_, _, rfl, rest⟩
    | literal literal _ => cases literal
  · intro h
    rcases h with ⟨k, p', rfl, rest⟩
    exact ⟨.single rest, fun _ => List.cons_ne_nil k p'⟩

theorem matches_multi_iff {p : List Level} :
    Matches [.multiWildcard] p ∧ ([Level.multiWildcard] = [.multiWildcard] → p ≠ []) ↔
      ∃ k p', p = k :: p' ∧ Matches [.multiWildcard] p' := by
  constructor
  · intro h
    cases p with
    | nil => exact absurd rfl (h.2 rfl)
    | cons k p' => exact ⟨k, p', rfl, .multi⟩
  · intro h
    rcases h with ⟨k, p', rfl, -⟩
    exact ⟨.multi, fun _ => List.cons_ne_nil k p'⟩

/-- A literal level of the filter leads into one branch. -/
theorem found_literal {value : Option V} {bs : List (Level × RetainNode V)} {first : Level}
    {path subPath : List Level} {t : Topic} {v : V} {r : RetainNode V}
    (literal : first.isWildcard = false) (found : bs.lookup first = some r) :
    Found (mk value bs) (first :: path) subPath t v ↔
      ∃ p, t.levels = subPath ++ first :: p ∧ valueAt p r = some v ∧ Matches path p := by
  have into : ∀ p, valueAt (first :: p) (mk value bs) = valueAt p r := by
    intro p
    rw [valueAt_cons, child, branches_mk, found]
    rfl
  constructor
  · intro h
    rcases h with ⟨p, stored, rule, -⟩
    rcases (matches_literal_iff literal).mp rule with ⟨p', rfl, rest⟩
    exact ⟨p', stored.1, (into p').symm.trans stored.2, rest⟩
  · intro h
    rcases h with ⟨p, levels, stored, rest⟩
    refine ⟨first :: p, ⟨levels, (into p).trans stored⟩, .literal literal rest, by simp, ?_⟩
    intro isolated
    have wild := leadingWildcard_cons.mp isolated.2.1
    rw [literal] at wild
    cases wild

/-- The three walks; the test for an empty branch map changes nothing. -/
theorem matchesPath_cons (value : Option V) (bs : List (Level × RetainNode V)) (first : Level)
    (path subPath : List Level) : matchesPath (mk value bs) (first :: path) subPath =
      match bs.lookup first with
      | some r => itemsBelow path subPath (first, r)
      | none =>
          if first = .singleWildcard then itemsInAll bs path subPath
          else if first = .multiWildcard then matchMulti bs (first :: path) subPath
          else [] := by
  rw [matchesPath, matchPrecise_eq, matchSingle_eq]
  cases bs with
  | nil =>
      change [] = if _ then _ else _
      split_ifs <;> rfl
  | cons b bs =>
      rw [if_neg (by simp)]
      cases List.lookup first (b :: bs) <;> rfl

/-- On a tree of topic names, a walk finds the topics that match. -/
theorem mem_matchesPath {n : RetainNode V} (names : Names n) {path : List Level}
    (last : MultiLast path) {subPath : List Level} {t : Topic} {v : V} :
    (t, v) ∈ matchesPath n path subPath ↔ Found n path subPath t v := by
  induction names generalizing path subPath with
  | @mk value bs distinct literal below ih =>
      cases path with
      | nil =>
          rw [matchesPath, mem_itemOf]
          constructor
          · intro h
            exact ⟨[], ⟨by rw [List.append_nil, h.1], h.2⟩, .nil, by simp, by simp⟩
          · intro h
            rcases h with ⟨p, stored, rule, -⟩
            cases rule
            exact ⟨by rw [stored.1, List.append_nil], stored.2⟩
      | cons first path =>
          have items : ∀ b ∈ bs, (t, v) ∈ itemsBelow path subPath b ↔
              ∃ p, t.levels = subPath ++ b.1 :: p ∧ valueAt p b.2 = some v ∧ Matches path p :=
            fun b hb => mem_itemsBelow last.tail (ih b hb last.tail)
          rw [matchesPath_cons]
          cases found : bs.lookup first with
          | some r =>
              have member := Assoc.mem_of_lookup found
              exact (items _ member).trans
                (found_literal (literal _ member) found).symm
          | none =>
              by_cases single : first = .singleWildcard
              · subst single
                rw [if_pos rfl]
                exact found_in_all (n := .mk value bs) distinct ⟨_, rfl, rfl⟩
                  (fun p => matches_single_iff) items
              · rw [if_neg single]
                by_cases multi : first = .multiWildcard
                · subst multi
                  obtain rfl := last.nil_of_multi
                  rw [if_pos rfl, matchMulti_eq]
                  exact found_in_all (n := .mk value bs) distinct ⟨_, rfl, rfl⟩
                    (fun p => matches_multi_iff) fun b hb => mem_itemsBelow last (ih b hb last)
                · rw [if_neg multi]
                  have plain : first.isWildcard = false := by
                    cases first <;> first | rfl | exact absurd rfl single | exact absurd rfl multi
                  refine iff_of_false (List.not_mem_nil) fun h => ?_
                  rcases h with ⟨p, stored, rule, -⟩
                  rcases (matches_literal_iff plain).mp rule with ⟨p', rfl, -⟩
                  have missing := stored.2
                  rw [valueAt_cons, child, branches_mk, found] at missing
                  cases missing

/-! ## Each topic once -/

theorem nodup_itemOf (levels : List Level) (o : Option V) :
    ((itemOf levels o).map Prod.fst).Nodup := by
  cases o <;> simp [itemOf]

/-- The branches are told apart by their level in the topics that are found below them. -/
theorem levels_of_mem_itemsBelow {path subPath : List Level} {b : Level × RetainNode V} {t : Topic}
    (names : Names b.2) (last : MultiLast path) (h : t ∈ (itemsBelow path subPath b).map Prod.fst) :
    ∃ p, t.levels = subPath ++ b.1 :: p := by
  rcases List.mem_map.mp h with ⟨⟨t', v⟩, item, rfl⟩
  rcases (mem_itemsBelow last (mem_matchesPath names last)).mp item with ⟨p, levels, -⟩
  exact ⟨p, levels⟩

theorem nodup_itemsBelow {path subPath : List Level} {b : Level × RetainNode V} (names : Names b.2)
    (last : MultiLast path)
    (ih : ((matchesPath b.2 path (subPath ++ [b.1])).map Prod.fst).Nodup) :
    ((itemsBelow path subPath b).map Prod.fst).Nodup := by
  rw [itemsBelow, List.map_append, List.nodup_append]
  refine ⟨?_, ih, ?_⟩
  · unfold parentItem
    split
    · exact nodup_itemOf _ _
    · exact List.nodup_nil
  · intro t parent t' below same
    subst same
    unfold parentItem at parent
    split at parent
    · -- the parent of a `#` is one level above what `#` finds
      rename_i multi
      obtain rfl : path = [.multiWildcard] := by
        rcases List.head?_eq_some_iff.mp multi with ⟨rest, rfl⟩
        rw [last.nil_of_multi]
      rcases List.mem_map.mp parent with ⟨⟨u, v⟩, item, rfl⟩
      rcases List.mem_map.mp below with ⟨⟨u', v'⟩, item', same⟩
      have atParent := (mem_itemOf.mp item).1
      rcases found_of_subPath.mp ((mem_matchesPath names last).mp item') with ⟨p, stored, -, deep⟩
      have levels := stored.1
      rw [show u' = u from same, atParent] at levels
      exact deep rfl (List.append_right_eq_self.mp levels.symm)
    · cases parent

theorem nodup_itemsInAll {bs : List (Level × RetainNode V)} {path subPath : List Level}
    (distinct : (bs.map Prod.fst).Nodup) (names : ∀ b ∈ bs, Names b.2) (last : MultiLast path)
    (ih : ∀ b ∈ bs, ((matchesPath b.2 path (subPath ++ [b.1])).map Prod.fst).Nodup) :
    ((itemsInAll bs path subPath).map Prod.fst).Nodup := by
  induction bs with
  | nil => exact List.nodup_nil
  | cons b bs rest =>
      rw [List.map_cons, List.nodup_cons] at distinct
      have tail := rest distinct.2 (fun b' hb => names b' (List.mem_cons_of_mem b hb))
        fun b' hb => ih b' (List.mem_cons_of_mem b hb)
      have head := nodup_itemsBelow (names b List.mem_cons_self) last (ih b List.mem_cons_self)
      rw [itemsInAll, List.flatMap_cons, List.map_append, List.nodup_append]
      refine ⟨?_, tail, ?_⟩
      · split
        · exact List.nodup_nil
        · exact head
      · intro t here t' there same
        subst same
        split at here
        · cases here
        · rcases List.mem_map.mp there with ⟨⟨u, v⟩, item, rfl⟩
          rcases mem_itemsInAll.mp item with ⟨b', member, -, below⟩
          rcases levels_of_mem_itemsBelow (names b List.mem_cons_self) last here with ⟨p, levels⟩
          rcases levels_of_mem_itemsBelow (names b' (List.mem_cons_of_mem b member)) last
            (List.mem_map_of_mem below) with ⟨p', levels'⟩
          have parts := List.append_cancel_left (levels.symm.trans levels')
          have key : b.1 = b'.1 := (List.cons.inj parts).1
          exact distinct.1 (key ▸ List.mem_map_of_mem member)

/-- A walk finds each topic once. -/
theorem nodup_matchesPath {n : RetainNode V} (names : Names n) {path : List Level}
    (last : MultiLast path) (subPath : List Level) :
    ((matchesPath n path subPath).map Prod.fst).Nodup := by
  induction names generalizing path subPath with
  | @mk value bs distinct literal below ih =>
      cases path with
      | nil =>
          rw [matchesPath]
          exact nodup_itemOf _ _
      | cons first path =>
          rw [matchesPath_cons]
          cases found : bs.lookup first with
          | some r =>
              have member := Assoc.mem_of_lookup found
              exact nodup_itemsBelow (below _ member) last.tail (ih _ member last.tail _)
          | none =>
              change ((if _ then _ else _ : List (Topic × V)).map Prod.fst).Nodup
              split_ifs with single multi
              · exact nodup_itemsInAll distinct below last.tail fun b hb => ih b hb last.tail _
              · subst multi
                obtain rfl := last.nil_of_multi
                rw [matchMulti_eq]
                exact nodup_itemsInAll distinct below last fun b hb => ih b hb last _
              · exact List.nodup_nil

end RetainNode

/-! ## The history of a tree -/

/-- A topic name: what the parser accepts, without wildcards. -/
def Topic.IsName (t : Topic) : Prop := t.Valid ∧ t.WildcardFree

variable {V : Type}

/-- An update of the tree. -/
inductive RetainOp (V : Type) : Type
  | insert (topic : Topic) (value : V)
  | remove (topic : Topic)
  deriving DecidableEq, Repr

namespace RetainOp

def topic : RetainOp V → Topic
  | insert topic _ => topic
  | remove topic => topic

def apply : RetainOp V → RetainTree V → RetainTree V
  | insert topic value, n => n.insert topic value
  | remove topic, n => (n.remove topic).1

/-- The update on a table of the retained values. -/
def record : RetainOp V → (Topic → Option V) → Topic → Option V
  | insert topic value, s => Function.update s topic (some value)
  | remove topic, s => Function.update s topic none

end RetainOp

/-- The tree after a sequence of updates of the empty tree. -/
def retainTreeOf (ops : List (RetainOp V)) : RetainTree V :=
  ops.foldl (fun n op => op.apply n) RetainNode.default

/-- The values retained for every topic after a sequence of updates. -/
def retainedBy (ops : List (RetainOp V)) : Topic → Option V :=
  ops.foldl (fun s op => op.record s) fun _ => none

/-- The tree is one of topic names and holds the values of the table. -/
structure Retains (n : RetainTree V) (s : Topic → Option V) : Prop where
  names : n.Names
  stored : ∀ topic : Topic, n.valueAt topic.levels = s topic
  isName : ∀ topic v, s topic = some v → topic.IsName

theorem retains_default : Retains (RetainNode.default : RetainTree V) fun _ => none where
  names := RetainNode.names_default
  stored topic := RetainNode.valueAt_default topic.levels
  isName _ _ h := by cases h

/-- One update on a topic name keeps tree and table together. -/
theorem Retains.apply {n : RetainTree V} {s : Topic → Option V} (h : Retains n s) {op : RetainOp V}
    (name : op.topic.IsName) : Retains (op.apply n) (op.record s) := by
  cases op with
  | insert topic value =>
      change Retains (RetainNode.insertPath topic.levels value n)
        (Function.update s topic (some value))
      refine ⟨h.names.insertPath name.2 value, fun t => ?_, fun t v stored => ?_⟩
      · rw [RetainNode.valueAt_insertPath, h.stored, Function.update_apply]
        simp only [Topic.levels_inj]
      · rw [Function.update_apply] at stored
        split at stored
        · rename_i same
          exact same ▸ name
        · exact h.isName t v stored
  | remove topic =>
      change Retains (RetainNode.removePath topic.levels n).1 (Function.update s topic none)
      refine ⟨h.names.removePath topic.levels, fun t => ?_, fun t v stored => ?_⟩
      · rw [RetainNode.valueAt_removePath, h.stored, Function.update_apply]
        simp only [Topic.levels_inj]
      · rw [Function.update_apply] at stored
        split at stored
        · cases stored
        · exact h.isName t v stored

/-- The tree of a history of topic names holds the table of the history. -/
theorem retains_retainTreeOf {ops : List (RetainOp V)} (names : ∀ op ∈ ops, op.topic.IsName) :
    Retains (retainTreeOf ops) (retainedBy ops) := by
  have run : ∀ (ops : List (RetainOp V)) (n : RetainTree V) (s : Topic → Option V), Retains n s →
      (∀ op ∈ ops, op.topic.IsName) →
      Retains (ops.foldl (fun n op => op.apply n) n) (ops.foldl (fun s op => op.record s) s) := by
    intro ops
    induction ops with
    | nil => exact fun n s h _ => h
    | cons op ops ih =>
        intro n s h names
        exact ih _ _ (h.apply (names op List.mem_cons_self))
          fun op' hop => names op' (List.mem_cons_of_mem _ hop)
  exact run ops _ _ retains_default names

/-! ## Duality -/

/-- A filter finds the retained topics that it matches under the MQTT rules. -/
theorem mem_matches_iff {ops : List (RetainOp V)}
    (names : ∀ op ∈ ops, op.topic.IsName) {f : Topic} (valid : f.Valid)
    (t : Topic) (v : V) :
    (t, v) ∈ (retainTreeOf ops).matches f ↔ retainedBy ops t = some v ∧ MqttMatches f t := by
  have holds := retains_retainTreeOf names
  unfold RetainNode.matches
  rw [RetainNode.mem_matchesPath holds.names valid.multi_last]
  have isolation : t.Valid → ((LeadingWildcard f.levels ∧
      ∃ l, t.levels.head? = some l ∧ l.isMetadata = true) ↔
        LeadingWildcard f.levels ∧ LeadingDollar t.levels) := by
    intro topicValid
    have root := secluded_root_iff topicValid.levels_valid f.levels
    simpa [Secluded] using root
  constructor
  · intro found
    rcases found with ⟨p, ⟨levels, stored⟩, rule, -, shown⟩
    obtain rfl : p = t.levels := levels.symm
    rw [holds.stored] at stored
    have topicValid := (holds.isName t v stored).1
    exact ⟨stored, rule, fun isolated => shown ⟨rfl, (isolation topicValid).mpr isolated⟩⟩
  · intro h
    rcases h with ⟨stored, rule, shown⟩
    have topicValid := (holds.isName t v stored).1
    refine ⟨t.levels, ⟨rfl, ?_⟩, rule, fun _ => topicValid.nonempty, fun isolated => ?_⟩
    · rw [holds.stored, stored]
    · exact shown ((isolation topicValid).mp isolated.2)

/-- After any updates on topic names, a valid filter finds exactly once each retained topic that it
matches under the MQTT rules, with its value, and nothing else: the retained topics that a
subscription tree with this filter alone reports as a match. -/
theorem matches_dual_to_subscriptions {W : Type} [LinearOrder W] (w : W) (ops : List (RetainOp V))
    (names : ∀ op ∈ ops, op.topic.IsName) {f : Topic} (valid : f.Valid) :
    (((retainTreeOf ops).matches f).map Prod.fst).Nodup ∧
      (∀ t v, (t, v) ∈ (retainTreeOf ops).matches f ↔
        retainedBy ops t = some v ∧ MqttMatches f t) ∧
      ∀ t v, (t, v) ∈ (retainTreeOf ops).matches f ↔
        retainedBy ops t = some v ∧ (treeOf [.insert f w]).isMatch t = true := by
  have holds := retains_retainTreeOf names
  refine ⟨RetainNode.nodup_matchesPath holds.names valid.multi_last [],
    mem_matches_iff names valid, fun t v => ?_⟩
  rw [mem_matches_iff names valid]
  refine and_congr_right fun stored => ?_
  have topic := holds.isName t v stored
  exact (isMatch_single_iff topic.1.levels_valid topic.2 f w).symm

/-- The values of two sensors, one of which is cleared again. -/
def sensorUpdates : List (RetainOp Nat) :=
  [.insert ⟨[.normal "a"]⟩ 1, .insert ⟨[.normal "a", .blank]⟩ 2, .remove ⟨[.normal "a"]⟩]

/-- The filter `+/#` finds the other one, as a subscription with that filter would. -/
theorem matches_dual_to_subscriptions_sensors :
    (⟨[.normal "a", .blank]⟩, 2) ∈
        (retainTreeOf sensorUpdates).matches ⟨[.singleWildcard, .multiWildcard]⟩ ∧
      (treeOf [.insert ⟨[.singleWildcard, .multiWildcard]⟩ 0]).isMatch
        ⟨[.normal "a", .blank]⟩ = true := by
  have name : ∀ s t, Topic.fromStr s = .ok t → t.WildcardFree → t.IsName := fun s t parsed free =>
    ⟨Topic.valid_of_fromStr parsed, free⟩
  have names : ∀ op ∈ sensorUpdates, op.topic.IsName := by
    intro op hop
    simp only [sensorUpdates, List.mem_cons, List.not_mem_nil, or_false] at hop
    rcases hop with rfl | rfl | rfl
    · exact name "a" _ (by decide) (by decide)
    · exact name "a/" _ (by decide) (by decide)
    · exact name "a" _ (by decide) (by decide)
  have valid : Topic.Valid ⟨[.singleWildcard, .multiWildcard]⟩ :=
    Topic.valid_of_fromStr (s := "+/#") (by decide)
  have found : (⟨[.normal "a", .blank]⟩, 2) ∈
      (retainTreeOf sensorUpdates).matches ⟨[.singleWildcard, .multiWildcard]⟩ := by decide
  have dual :=
    (matches_dual_to_subscriptions 0 sensorUpdates names valid).2.2 ⟨[.normal "a", .blank]⟩ 2
  exact ⟨found, (dual.mp found).2⟩

end OxiMqtt

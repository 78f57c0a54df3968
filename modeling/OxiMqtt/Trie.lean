import OxiMqtt.Lib.Trie
import OxiMqtt.Topic

/-!
# The subscription trie

The tree of `trie.rs`.  A node holds the values stored at its path and its
branches by level; `Node.insert` and `Node.remove` walk a filter's levels, and
`remove` drops a branch that it leaves without values and branches.

Matching is the source's lazy iterator.  A `MatchedIter` carries the items it has
ready (`currItems`, taken from the back), the sub-iterators it still has to run
(`subIters`, run from the front), and the path walked so far (`subPath`), which
`prepare` takes: an iterator whose `subPath` is gone is past `prepare`.
`Exhausts it items` is calling `next` until it returns `none`.

The functions of the source that recurse through the tree recurse here on the
level list that drives them; `MatchedIter.next` recurses on the number of levels
below, which every sub-iterator has one fewer of.
-/

namespace OxiMqtt

open Collections

/-- `Node<V>`: the values at this path and the branches below it. -/
inductive Node (V : Type) [LinearOrder V] : Type
  | mk (values : OrdSet V) (branches : List (Level × Node V))

/-- A topic trie, an alias for its root node. -/
abbrev TopicTree (V : Type) [LinearOrder V] : Type := Node V

namespace Node

variable {V : Type} [LinearOrder V]

def values : Node V → OrdSet V
  | mk values _ => values

def branches : Node V → Assoc Level (Node V)
  | mk _ branches => branches

/-- `Default for Node` -/
def default : Node V := mk ∅ []

instance : Inhabited (Node V) := ⟨default⟩

@[simp] theorem values_mk (vs : OrdSet V) (bs : Assoc Level (Node V)) :
    (mk vs bs).values = vs := rfl
@[simp] theorem branches_mk (vs : OrdSet V) (bs : Assoc Level (Node V)) :
    (mk vs bs).branches = bs := rfl

/-- `self.branches.get(l)` -/
def child (n : Node V) (l : Level) : Option (Node V) := n.branches.lookup l

/-- `Node::_insert`.  The source reverses the level vector and pops from its
back, which takes the levels from the front. -/
def insertPath : List Level → V → Node V → Node V × Bool
  | [], value, n =>
      let r := n.values.insert value
      (mk r.1 n.branches, r.2)
  | first :: path, value, n =>
      let r := insertPath path value ((n.child first).getD default)
      (mk n.values (Assoc.insert n.branches first r.1), r.2)

/-- `Node::insert` -/
def insert (n : Node V) (topicFilter : Topic) (value : V) : Node V × Bool :=
  insertPath topicFilter.levels value n

/-- `x.values.is_empty() && x.branches.is_empty()` -/
def isBare (n : Node V) : Bool := n.values.isEmpty && n.branches.isEmpty

/-- `Node::_remove` -/
def removePath : List Level → V → Node V → Node V × Bool
  | [], value, n =>
      let r := n.values.remove value
      (mk r.1 n.branches, r.2)
  | t :: path, value, n =>
      match n.child t with
      | some x =>
          let r := removePath path value x
          if r.1.isBare then (mk n.values (Assoc.erase n.branches t), r.2)
          else (mk n.values (Assoc.insert n.branches t r.1), r.2)
      | none => (n, false)

/-- `Node::remove` -/
def remove (n : Node V) (topicFilter : Topic) (value : V) : Node V × Bool :=
  removePath topicFilter.levels value n

mutual

/-- `Node::values_size` -/
def valuesSize : Node V → Nat
  | mk values branches => values.toList.length + branchesSize branches

/-- `self.branches.values().map(|n| n.values_size()).sum()` -/
def branchesSize : List (Level × Node V) → Nat
  | [] => 0
  | (_, n) :: branches => valuesSize n + branchesSize branches

end

end Node

/-- A match: the levels of the matching filter and its values in order. -/
abbrev Item (V : Type) : Type := List Level × List V

/-- `MatchedIter<V>` -/
inductive MatchedIter (V : Type) [LinearOrder V] : Type
  | mk (node : Node V) (path : List Level) (subPath : Option (List Level))
      (currItems : List (Item V)) (subIters : List (MatchedIter V))

namespace MatchedIter

variable {V : Type} [LinearOrder V]

def path : MatchedIter V → List Level
  | mk _ path _ _ _ => path

/-- `MatchedIter::new` -/
def new (node : Node V) (path subPath : List Level) : MatchedIter V :=
  mk node path (some subPath) [] []

/-- `MatchedIter::add_to_items`, on the item list alone. -/
def addToItems (items : List (Item V)) (levels : List Level) (vSet : OrdSet V) : List (Item V) :=
  if vSet.isEmpty then items else items ++ [(levels, vSet.toList)]

/-- The item of the `#` branch, when the node has one. -/
def multiItems (node : Node V) (subPath : List Level) (items : List (Item V)) : List (Item V) :=
  match node.child .multiWildcard with
  | some b => addToItems items (subPath ++ [.multiWildcard]) b.values
  | none => items

/-- The sub-iterator of the branch `l`, when the node has one. -/
def branchIters (node : Node V) (l : Level) (path subPath : List Level) : List (MatchedIter V) :=
  match node.child l with
  | some b => [new b path (subPath ++ [l])]
  | none => []

/-- Topic names that start with `$` are not matched by a leading wildcard. -/
def isolated (node : Node V) (first : Level) (subPath : List Level) : Bool :=
  subPath.isEmpty && first != .blank && first.isMetadata &&
    ((node.child .multiWildcard).isSome || (node.child .singleWildcard).isSome)

/-- `MatchedIter::prepare`; `none` is its early return on a missing `sub_path`. -/
def prepare : MatchedIter V → Option (MatchedIter V)
  | mk _ _ none _ _ => none
  | mk node [] (some subPath) items iters =>
      some (mk node [] none
        (addToItems (multiItems node subPath items) subPath node.values) iters)
  | mk node (first :: path) (some subPath) items iters =>
      let wild := !isolated node first subPath
      let items := if wild then multiItems node subPath items else items
      let single := if wild then branchIters node .singleWildcard path subPath else []
      let precise := branchIters node first path subPath
      some (mk node (first :: path) none items (iters ++ single ++ precise))

/-- The loop of `MatchedIter::next_item` over the sub-iterators: run the first
one, and drop it once it has nothing more. -/
def nextOfSubs (next : MatchedIter V → Option (Item V) × MatchedIter V) :
    List (MatchedIter V) → Option (Item V) × List (MatchedIter V)
  | [] => (none, [])
  | s :: rest =>
      match next s with
      | (some item, s') => (some item, s' :: rest)
      | (none, _) => nextOfSubs next rest

/-- `MatchedIter::next_item`, given `next` for the sub-iterators. -/
def nextItem (next : MatchedIter V → Option (Item V) × MatchedIter V) :
    MatchedIter V → Option (Item V) × MatchedIter V
  | mk node path subPath items iters =>
      match items.getLast? with
      | some item => (some item, mk node path subPath items.dropLast iters)
      | none =>
          let r := nextOfSubs next iters
          (r.1, mk node path subPath items r.2)

/-- `Iterator::next` of an iterator with at most `depth` levels below it. -/
def nextAt : Nat → MatchedIter V → Option (Item V) × MatchedIter V
  | 0, it => (none, it)
  | depth + 1, it =>
      match nextItem (nextAt depth) it with
      | (some item, it') => (some item, it')
      | (none, it') =>
          match it'.prepare with
          | none => (none, it')
          | some it'' => nextItem (nextAt depth) it''

/-- `Iterator::next` -/
def next (it : MatchedIter V) : Option (Item V) × MatchedIter V := nextAt (it.path.length + 1) it

/-- Calling `next` until it returns `none` yields `items`. -/
inductive Exhausts : MatchedIter V → List (Item V) → Prop
  | done {it it' : MatchedIter V} : it.next = (none, it') → Exhausts it []
  | item {it it' : MatchedIter V} {item : Item V} {items : List (Item V)} :
      it.next = (some item, it') → Exhausts it' items → Exhausts it (item :: items)

end MatchedIter

namespace Node

variable {V : Type} [LinearOrder V]

/-- `Node::matches(topic).iter()` -/
def matchesIter (n : Node V) (topic : Topic) : MatchedIter V := .new n topic.levels []

/-- `Node::is_match` -/
def isMatch (n : Node V) (topic : Topic) : Bool := (n.matchesIter topic).next.1.isSome

/-! ## The values stored at a path -/

/-- The values the tree holds at a path. -/
def valuesAt : List Level → Node V → OrdSet V
  | [], n => n.values
  | l :: path, n =>
      match n.child l with
      | some b => valuesAt path b
      | none => ∅

@[simp] theorem valuesAt_nil (n : Node V) : valuesAt [] n = n.values := rfl

theorem valuesAt_cons (l : Level) (path : List Level) (n : Node V) :
    valuesAt (l :: path) n = ((n.child l).map (valuesAt path)).getD ∅ := by
  rw [valuesAt]
  cases n.child l <;> rfl

@[simp] theorem valuesAt_default (path : List Level) : valuesAt path (default : Node V) = ∅ := by
  cases path <;> rfl

/-! ## The trie behind the tree -/

theorem branchesSize_eq (branches : List (Level × Node V)) :
    branchesSize branches = Assoc.weight valuesSize branches := by
  induction branches with
  | nil => rfl
  | cons b branches ih =>
      rw [branchesSize, ih, Assoc.weight, Assoc.weight, List.map_cons, List.sum_cons]

instance : Trie (Node V) Level (OrdSet V) where
  node := mk
  payload := values
  branches := branches
  vacant := ∅
  weight s := s.toList.length
  size := valuesSize
  payload_node _ _ := rfl
  branches_node _ _ := rfl
  node_eta n := by cases n; rfl
  weight_eq_zero s := by rw [← OrdSet.isEmpty_iff, OrdSet.isEmpty, List.isEmpty_iff_length_eq_zero]
  size_node s bs := by rw [valuesSize, branchesSize_eq]

theorem isBare_eq_bare (n : Node V) : n.isBare = Trie.bare n := by
  rw [Bool.eq_iff_iff, Trie.bare_iff, isBare, Bool.and_eq_true, OrdSet.isEmpty_iff,
    List.isEmpty_iff]
  rfl

theorem valuesAt_eq_payloadAt (path : List Level) (n : Node V) :
    valuesAt path n = Trie.payloadAt path n := by
  induction path generalizing n with
  | nil => rfl
  | cons l path ih =>
      rw [valuesAt_cons, Trie.payloadAt_cons, funext ih]
      rfl

theorem valuesAt_getD_default (l : Level) (path : List Level) (n : Node V) :
    valuesAt path ((n.child l).getD default) = valuesAt (l :: path) n := by
  rw [valuesAt_cons]
  cases n.child l <;> simp

theorem getD_lookup_branches (l : Level) (n : Node V) :
    ((Trie.branches n).lookup l).getD Trie.empty = (n.child l).getD default := rfl

theorem insertPath_not_bare (path : List Level) (value : V) (n : Node V) :
    (insertPath path value n).1.isBare = false := by
  cases path with
  | nil =>
      have held : value ∈ (n.values.insert value).1 := OrdSet.mem_insert.mpr (.inl rfl)
      have nonempty := OrdSet.ne_empty_iff.mpr ⟨value, held⟩
      rw [Ne, ← OrdSet.isEmpty_iff, Bool.not_eq_true] at nonempty
      rw [insertPath, isBare, values_mk, nonempty]
      rfl
  | cons first path => simp [insertPath, isBare, Assoc.insert]

/-- Inserting adds to the values at the path, and says what the set there says. -/
theorem insertPath_eq_alter (path : List Level) (value : V) (n : Node V) :
    insertPath path value n =
      (Trie.alter (fun s => (s.insert value).1) path n, ((valuesAt path n).insert value).2) := by
  induction path generalizing n with
  | nil => rfl
  | cons first path ih =>
      have busy := insertPath_not_bare path value ((n.child first).getD default)
      rw [isBare_eq_bare, ih] at busy
      rw [insertPath, ih, Trie.alter_cons, Trie.settle, getD_lookup_branches,
        if_neg (by rw [busy]; exact Bool.false_ne_true), valuesAt_getD_default]
      rfl

/-- Removing takes from the values at the path, and says what the set there says. -/
theorem removePath_eq_alter (path : List Level) (value : V) (n : Node V) :
    removePath path value n =
      (Trie.alter (fun s => (s.remove value).1) path n, ((valuesAt path n).remove value).2) := by
  induction path generalizing n with
  | nil => rfl
  | cons t path ih =>
      rw [Trie.alter_cons, Trie.settle, getD_lookup_branches, ← valuesAt_getD_default, removePath]
      cases hx : n.child t with
      | none =>
          have bare : Trie.bare (Trie.alter (fun s => (s.remove value).1) path
              (default : Node V)) = true := Trie.bare_alter_empty rfl path
          have absent : Assoc.erase (Trie.branches n) t = Trie.branches n :=
            Assoc.erase_of_lookup_eq_none hx
          rw [Option.getD_none, if_pos bare, Assoc.put, absent, Trie.node_eta, valuesAt_default]
          rfl
      | some x =>
          dsimp only
          rw [Option.getD_some, ih x, ← isBare_eq_bare]
          split <;> rfl

/-- Inserting changes the values at the inserted path only. -/
theorem valuesAt_insertPath (path : List Level) (value : V) (n : Node V) (p : List Level) :
    valuesAt p (insertPath path value n).1 =
      if p = path then ((valuesAt path n).insert value).1 else valuesAt p n := by
  rw [insertPath_eq_alter, valuesAt_eq_payloadAt, Trie.payloadAt_alter, ← valuesAt_eq_payloadAt,
    ← valuesAt_eq_payloadAt]

/-- Removing changes the values at the removed path only. -/
theorem valuesAt_removePath (path : List Level) (value : V) (n : Node V) (p : List Level) :
    valuesAt p (removePath path value n).1 =
      if p = path then ((valuesAt path n).remove value).1 else valuesAt p n := by
  rw [removePath_eq_alter, valuesAt_eq_payloadAt, Trie.payloadAt_alter, ← valuesAt_eq_payloadAt,
    ← valuesAt_eq_payloadAt]

end Node

end OxiMqtt

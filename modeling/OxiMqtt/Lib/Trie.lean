import OxiMqtt.Lib.Gather

/-!
# Tries

A trie is a tree whose nodes hold a payload and their branches by key.  `Trie` names what a type of
nodes has to offer; the functions on tries recurse along a path of keys.

* `alter` changes the payload at a path, makes the nodes it needs on the way down and drops on the
  way back what it leaves without payload and branches.
* `Tidy`: below the root no node is bare.  `Tidy.alter` keeps it, and `Tidy.same` says that tidy
  tries with the same payloads have the same nodes, so that nothing else is left in them.
* `size_alter`: the number of values changes with the payload at the path alone.
-/

namespace Collections

namespace Assoc

variable {κ α : Type} [DecidableEq κ]

theorem erase_of_lookup_eq_none {m : Assoc κ α} {k : κ} (h : m.lookup k = none) :
    m.erase k = m := by
  rw [List.lookup_eq_none_iff] at h
  refine List.filter_eq_self.mpr ?_
  intro e he
  have other : k ≠ e.1 := by simpa using h e he
  simpa using other.symm

end Assoc

/-- Nodes with a payload and branches by key.  `weight` counts the values of a payload and `size`
those of the whole tree. -/
class Trie (N : Type) (κ σ : outParam Type) where
  node : σ → Assoc κ N → N
  payload : N → σ
  branches : N → Assoc κ N
  vacant : σ
  weight : σ → Nat
  size : N → Nat
  payload_node : ∀ s bs, payload (node s bs) = s
  branches_node : ∀ s bs, branches (node s bs) = bs
  node_eta : ∀ n, node (payload n) (branches n) = n
  weight_eq_zero : ∀ s, weight s = 0 ↔ s = vacant
  size_node : ∀ s bs, size (node s bs) = weight s + Assoc.weight size bs

namespace Trie

attribute [simp] payload_node branches_node

variable {N κ σ : Type} [Trie N κ σ]

/-- The node holds nothing and leads nowhere. -/
def bare (n : N) : Bool := weight N (payload n) == 0 && (branches n).isEmpty

theorem bare_iff {n : N} : bare n = true ↔ payload n = vacant N ∧ branches n = [] := by
  simp [bare, weight_eq_zero]

/-- The empty trie. -/
def empty : N := node (vacant N) []

theorem bare_empty : bare (empty : N) = true := bare_iff.mpr ⟨payload_node _ _, branches_node _ _⟩

theorem size_empty : size (empty : N) = 0 := by
  rw [empty, size_node, (weight_eq_zero _).mpr rfl]
  rfl

theorem size_eq (n : N) :
    size n = weight N (payload n) + Assoc.weight size (branches n) := by
  rw [← size_node, node_eta]

theorem size_of_bare {n : N} (h : bare n = true) : size n = 0 := by
  obtain ⟨nothing, leaf⟩ := bare_iff.mp h
  rw [size_eq, nothing, leaf, (weight_eq_zero _).mpr rfl]
  rfl

/-- Every branch has a key of its own and holds or leads to something. -/
inductive Tidy : N → Prop
  | intro {n : N} : (branches n).NodupKeys → (∀ b ∈ branches n, bare b.2 = false) →
      (∀ b ∈ branches n, Tidy b.2) → Tidy n

theorem tidy_empty : Tidy (empty : N) := by
  have leaf : branches (empty : N) = [] := branches_node _ _
  refine .intro ?_ ?_ ?_
  · rw [leaf]
    exact Assoc.nodupKeys_nil
  · simp [leaf]
  · simp [leaf]

theorem Tidy.nodupKeys {n : N} (tidy : Tidy n) : (branches n).NodupKeys := by
  cases tidy with
  | intro distinct _ _ => exact distinct

variable [DecidableEq κ]

/-- The node at the end of a path. -/
def nodeAt : List κ → N → Option N
  | [], n => some n
  | k :: path, n => ((branches n).lookup k).bind (nodeAt path)

/-- The payload at the end of a path; where there is no node, nothing is held. -/
def payloadAt (path : List κ) (n : N) : σ := ((nodeAt path n).map payload).getD (vacant N)

/-- The branches of a node after the child at a key has been replaced, or dropped where it is
bare. -/
def settle (bs : Assoc κ N) (k : κ) (c : N) : Assoc κ N :=
  bs.put k (if bare c then none else some c)

/-- Change the payload at the end of a path. -/
def alter (g : σ → σ) : List κ → N → N
  | [], n => node (g (payload n)) (branches n)
  | k :: path, n =>
      node (payload n)
        (settle (branches n) k (alter g path (((branches n).lookup k).getD empty)))

theorem payloadAt_cons (k : κ) (path : List κ) (n : N) :
    payloadAt (k :: path) n = (((branches n).lookup k).map (payloadAt path)).getD (vacant N) := by
  rw [payloadAt, nodeAt]
  cases (branches n).lookup k <;> rfl

theorem payloadAt_of_bare {n : N} (h : bare n = true) (path : List κ) :
    payloadAt path n = vacant N := by
  obtain ⟨nothing, leaf⟩ := bare_iff.mp h
  cases path with
  | nil => exact nothing
  | cons k path =>
      rw [payloadAt_cons, leaf]
      rfl

theorem payloadAt_getD_empty (path : List κ) (c : Option N) :
    payloadAt path (c.getD empty) = (c.map (payloadAt path)).getD (vacant N) := by
  cases c with
  | none => exact payloadAt_of_bare bare_empty path
  | some n => rfl

/-! ## Changing one payload -/

theorem alter_cons (g : σ → σ) (k : κ) (path : List κ) (n : N) :
    alter g (k :: path) n = node (payload n)
      (settle (branches n) k (alter g path (((branches n).lookup k).getD empty))) := rfl

/-- A change that leaves an absent payload absent makes no nodes. -/
theorem bare_alter_empty {g : σ → σ} (h : g (vacant N) = vacant N) (path : List κ) :
    bare (alter g path (empty : N)) = true := by
  have leaf : branches (empty : N) = [] := branches_node _ _
  have nothing : payload (empty : N) = vacant N := payload_node _ _
  induction path with
  | nil =>
      rw [alter, bare_iff, payload_node, branches_node, nothing, leaf]
      exact ⟨h, rfl⟩
  | cons k path ih =>
      rw [alter_cons, leaf, nothing, bare_iff, payload_node, branches_node]
      refine ⟨rfl, ?_⟩
      rw [settle, if_pos]
      · rfl
      · exact ih

theorem payloadAt_settle (s : σ) (bs : Assoc κ N) (k l : κ) (c : N) (path : List κ) :
    payloadAt (l :: path) (node s (settle bs k c)) =
      if l = k then payloadAt path c
      else ((bs.lookup l).map (payloadAt path)).getD (vacant N) := by
  rw [payloadAt_cons, branches_node, settle, Assoc.lookup_put]
  by_cases same : l = k
  · rw [if_pos same, if_pos same]
    split
    · rename_i dropped
      exact (payloadAt_of_bare dropped path).symm
    · rfl
  · rw [if_neg same, if_neg same]

/-- Only the payload at the path changes. -/
theorem payloadAt_alter (g : σ → σ) (path : List κ) (n : N) (p : List κ) :
    payloadAt p (alter g path n) = if p = path then g (payloadAt path n) else payloadAt p n := by
  induction path generalizing n p with
  | nil =>
      cases p with
      | nil => exact payload_node _ _
      | cons l p =>
          rw [if_neg (List.cons_ne_nil l p), payloadAt_cons, payloadAt_cons, alter, branches_node]
  | cons k path ih =>
      rw [alter_cons]
      cases p with
      | nil =>
          rw [if_neg (List.cons_ne_nil k path).symm]
          exact payload_node _ _
      | cons l p =>
          rw [payloadAt_settle, ih, payloadAt_getD_empty, payloadAt_getD_empty, payloadAt_cons k,
            payloadAt_cons l]
          by_cases same : l = k
          · subst same
            simp only [List.cons.injEq, true_and, if_true]
          · rw [if_neg same, if_neg (by simp [same])]

/-! ## Tidy tries -/

theorem Tidy.branch {n c : N} (tidy : Tidy n) {k : κ} (h : (branches n).lookup k = some c) :
    bare c = false ∧ Tidy c := by
  cases tidy with
  | intro _ busy below =>
      have member := Assoc.mem_of_lookup h
      exact ⟨busy _ member, below _ member⟩

theorem Tidy.child {n : N} (tidy : Tidy n) (k : κ) :
    Tidy (((branches n).lookup k).getD empty) := by
  cases h : (branches n).lookup k with
  | none => exact tidy_empty
  | some c => exact (tidy.branch h).2

theorem Tidy.settle {n c : N} (tidy : Tidy n) (s : σ) (k : κ) (fresh : Tidy c) :
    Tidy (node s (settle (branches n) k c)) := by
  cases tidy with
  | intro distinct busy below =>
      -- a branch is one of the earlier branches or the new child
      have each : ∀ b ∈ Trie.settle (branches n) k c,
          b ∈ branches n ∨ b.2 = c ∧ bare c = false := by
        intro b hb
        rw [Trie.settle] at hb
        split at hb
        · exact .inl (List.mem_of_mem_filter hb)
        · rename_i kept
          rcases List.mem_cons.mp hb with rfl | hb
          · exact .inr ⟨rfl, by simpa using kept⟩
          · exact .inl (List.mem_of_mem_filter hb)
      refine .intro ?_ ?_ ?_
      · rw [branches_node]
        exact distinct.put k _
      · rw [branches_node]
        intro b hb
        rcases each b hb with old | ⟨new, filled⟩
        · exact busy b old
        · rw [new, filled]
      · rw [branches_node]
        intro b hb
        rcases each b hb with old | ⟨new, -⟩
        · exact below b old
        · rw [new]
          exact fresh

theorem Tidy.alter (g : σ → σ) (path : List κ) {n : N} (tidy : Tidy n) :
    Tidy (alter g path n) := by
  induction path generalizing n with
  | nil =>
      cases tidy with
      | intro distinct busy below =>
          refine .intro ?_ ?_ ?_ <;> rw [Trie.alter, branches_node] <;> assumption
  | cons k path ih =>
      rw [alter_cons]
      exact tidy.settle _ k (ih (tidy.child k))

/-- A tidy trie that is not bare holds something. -/
theorem Tidy.exists_payload {n : N} (tidy : Tidy n) (busy : bare n = false) :
    ∃ path, payloadAt path n ≠ vacant N := by
  induction tidy with
  | @intro n distinct filled below ih =>
      by_cases nothing : payload n = vacant N
      · cases leaf : branches n with
        | nil => exact absurd (bare_iff.mpr ⟨nothing, leaf⟩) (by simp [busy])
        | cons b rest =>
            have member : b ∈ branches n := by simp [leaf]
            obtain ⟨path, held⟩ := ih b member (filled b member)
            refine ⟨b.1 :: path, ?_⟩
            rw [payloadAt_cons, distinct.mem_iff_lookup.mp member]
            exact held
      · exact ⟨[], nothing⟩

/-- The nodes of a tidy trie are the root and those with something at or below them. -/
theorem Tidy.isSome_nodeAt_iff {n : N} (tidy : Tidy n) (path : List κ) :
    (nodeAt path n).isSome = true ↔ path = [] ∨ ∃ p, payloadAt (path ++ p) n ≠ vacant N := by
  induction path generalizing n with
  | nil => simp [nodeAt]
  | cons k path ih =>
      have below : ∀ p, payloadAt (k :: path ++ p) n =
          (((branches n).lookup k).map (payloadAt (path ++ p))).getD (vacant N) :=
        fun p => payloadAt_cons k (path ++ p) n
      simp only [below, List.cons_ne_nil, false_or, nodeAt]
      cases h : (branches n).lookup k with
      | none => simp
      | some c =>
          obtain ⟨busy, rest⟩ := tidy.branch h
          simp only [Option.bind_some, Option.map_some, Option.getD_some, ih rest]
          constructor
          · intro h
            rcases h with rfl | held
            · exact rest.exists_payload busy
            · exact held
          · exact .inr

/-- The tries have the same nodes with the same payloads, whatever the order of their branches. -/
def Same (n n' : N) : Prop := ∀ path, (nodeAt path n).map payload = (nodeAt path n').map payload

/-- Tidy tries are determined by what they hold. -/
theorem Tidy.same {n n' : N} (tidy : Tidy n) (tidy' : Tidy n')
    (held : ∀ path, payloadAt path n = payloadAt path n') : Same n n' := by
  intro path
  have nodes : (nodeAt path n).isSome = (nodeAt path n').isSome := by
    rw [Bool.eq_iff_iff, tidy.isSome_nodeAt_iff, tidy'.isSome_nodeAt_iff]
    simp only [held]
  have payloads := held path
  unfold payloadAt at payloads
  cases h : nodeAt path n <;> cases h' : nodeAt path n' <;> simp_all

/-! ## The number of values -/

theorem size_settle (s : σ) {bs : Assoc κ N} (distinct : bs.NodupKeys) (k : κ) (c : N) :
    size (node s (settle bs k c)) + size ((bs.lookup k).getD empty) =
      weight N s + bs.weight size + size c := by
  have child : size ((bs.lookup k).getD empty) = ((bs.lookup k).map size).getD 0 := by
    cases bs.lookup k with
    | none => exact size_empty
    | some c => rfl
  have settled : ((if bare c then none else some c).map size).getD 0 = size c := by
    split
    · rename_i dropped
      exact (size_of_bare dropped).symm
    · rfl
  have total := distinct.weight_put size k (if bare c then none else some c)
  rw [child, size_node, ← settled]
  rw [settle]
  omega

/-- The number of values changes with the payload that is changed. -/
theorem size_alter (g : σ → σ) (path : List κ) {n : N} (tidy : Tidy n) :
    size (alter g path n) + weight N (payloadAt path n) =
      size n + weight N (g (payloadAt path n)) := by
  induction path generalizing n with
  | nil =>
      rw [alter, size_node, size_eq n]
      change _ + weight N (payload n) = _ + weight N (g (payload n))
      omega
  | cons k path ih =>
      have below := ih (tidy.child k)
      have settled := size_settle (payload n) tidy.nodupKeys k
        (alter g path (((branches n).lookup k).getD empty))
      rw [alter_cons, payloadAt_cons, ← payloadAt_getD_empty, size_eq n]
      omega

end Trie

end Collections

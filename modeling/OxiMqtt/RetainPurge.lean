import OxiMqtt.Retain

/-!
# Purging the tree of retained messages

`Node::retain` of `retain.rs` removes the values that a predicate rejects, up to a limit, and drops
the nodes it leaves bare.  The predicate is an `FnMut`: it is called with a state `s` and leaves
another one.  The order in which a hash map is walked is the order of the branches here.

* `retainMut_invariant`: what the calls of the predicate keep, the purge keeps.
* `valuesSize_retainMut`: the number it returns is the number of values it has removed.
* `tidy_retainMut`: it leaves no bare node behind.
-/

namespace OxiMqtt

namespace RetainNode

open Collections

variable {V : Type}

/-! ## The purge -/

section State

variable {S : Type}

/-- The value of a branch is taken if the predicate, called in this state, rejects it. -/
def examineMut (f : S → V → Bool × S) (childNode : RetainNode V) (removeds : Nat) (s : S) :
    RetainNode V × Nat × S :=
  match childNode.value with
  | some v =>
      if (f s v).1 then (childNode, removeds, (f s v).2)
      else (mk none childNode.branches, removeds + 1, (f s v).2)
  | none => (childNode, removeds, s)

mutual

/-- `Node::_retain` -/
def retainNodeMut (f : S → V → Bool × S) (maxLimit : Nat) :
    RetainNode V → Nat → S → RetainNode V × Nat × S
  | mk value branches, removeds, s =>
      if removeds ≥ maxLimit then (mk value branches, removeds, s)
      else
        let r := retainBranchesMut f maxLimit branches removeds s
        (mk value r.1, r.2)

/-- `self.branches.retain(..)` -/
def retainBranchesMut (f : S → V → Bool × S) (maxLimit : Nat) :
    List (Level × RetainNode V) → Nat → S → List (Level × RetainNode V) × Nat × S
  | [], removeds, s => ([], removeds, s)
  | (l, childNode) :: branches, removeds, s =>
      let entered := retainNodeMut f maxLimit childNode removeds s
      let r := examineMut f entered.1 entered.2.1 entered.2.2
      let rest := retainBranchesMut f maxLimit branches r.2.1 r.2.2
      (if r.1.isBare then rest.1 else (l, r.1) :: rest.1, rest.2)

end

/-- `Node::retain`, with the number of removed values and the state of the predicate. -/
def retainMut (n : RetainNode V) (maxLimit : Nat) (f : S → V → Bool × S) (s : S) :
    RetainNode V × Nat × S :=
  retainNodeMut f maxLimit n 0 s

end State

/-! ## Trees of distinct branches -/

theorem branches_induction {Q : List (Level × RetainNode V) → Prop} (nil : Q [])
    (cons : ∀ l value below bs, Q below → Q bs → Q ((l, mk value below) :: bs)) :
    ∀ bs, Q bs
  | [] => nil
  | (l, mk value below) :: bs =>
      cons l value below bs (branches_induction nil cons below) (branches_induction nil cons bs)

/-- Every branch of every node has a level of its own, as the keys of a map. -/
inductive Distinct : RetainNode V → Prop
  | mk {value : Option V} {branches : Assoc Level (RetainNode V)} :
      branches.NodupKeys → (∀ b ∈ branches, Distinct b.2) → Distinct (mk value branches)

theorem distinct_cons {value own : Option V} {l : Level} {below bs : List (Level × RetainNode V)} :
    Distinct (mk value ((l, mk own below) :: bs)) ↔
      l ∉ bs.map Prod.fst ∧ Distinct (mk own below) ∧ Distinct (mk value bs) := by
  constructor
  · intro h
    cases h with
    | mk keys each =>
        obtain ⟨fresh, rest⟩ := List.nodup_cons.mp keys
        exact ⟨fresh, each _ List.mem_cons_self,
          .mk rest fun b hb => each b (List.mem_cons_of_mem _ hb)⟩
  · intro h
    obtain ⟨fresh, first, rest⟩ := h
    cases rest with
    | mk keys each =>
        refine .mk (List.nodup_cons.mpr ⟨fresh, keys⟩) ?_
        intro b hb
        rcases List.mem_cons.mp hb with rfl | hb
        · exact first
        · exact each b hb

theorem distinct_of_value {value value' : Option V} {bs : List (Level × RetainNode V)}
    (h : Distinct (mk value bs)) : Distinct (mk value' bs) := by
  cases h with
  | mk keys each => exact .mk keys each

theorem distinct_of_tidy {n : RetainNode V} (h : Trie.Tidy n) : Distinct n := by
  induction h with
  | @intro n keys _ _ ih =>
      cases n with
      | mk value branches => exact .mk keys ih

section State

variable {S : Type} {f : S → V → Bool × S} {maxLimit : Nat}

/-- What the loop does below a branch. -/
def retainBelowMut (f : S → V → Bool × S) (maxLimit : Nat) (below : List (Level × RetainNode V))
    (removeds : Nat) (s : S) : List (Level × RetainNode V) × Nat × S :=
  if removeds ≥ maxLimit then (below, removeds, s)
  else retainBranchesMut f maxLimit below removeds s

theorem retainNodeMut_mk (f : S → V → Bool × S) (value : Option V)
    (below : List (Level × RetainNode V)) (removeds : Nat) (s : S) :
    retainNodeMut f maxLimit (mk value below) removeds s =
      (mk value (retainBelowMut f maxLimit below removeds s).1,
        (retainBelowMut f maxLimit below removeds s).2) := by
  rw [retainNodeMut, retainBelowMut]
  split <;> rfl

/-! ## What the calls of the predicate do -/

/-- What the calls of the predicate keep of the number of removals and the state, the purge
keeps. -/
theorem retainBranchesMut_invariant {f : S → V → Bool × S} {P : Nat → S → Prop}
    (keep : ∀ c s v, P c s → P (if (f s v).1 then c else c + 1) (f s v).2)
    (bs : List (Level × RetainNode V)) (removeds : Nat) (s : S) (h : P removeds s) :
    P (retainBranchesMut f maxLimit bs removeds s).2.1
      (retainBranchesMut f maxLimit bs removeds s).2.2 := by
  induction bs using branches_induction generalizing removeds s with
  | nil => exact h
  | cons l own below bs ihBelow ih =>
      have lower : P (retainBelowMut f maxLimit below removeds s).2.1
          (retainBelowMut f maxLimit below removeds s).2.2 := by
        unfold retainBelowMut
        split
        · exact h
        · exact ihBelow removeds s h
      rw [retainBranchesMut, retainNodeMut_mk]
      refine ih _ _ ?_
      cases own with
      | none => exact lower
      | some v =>
          have looked := keep _ _ v lower
          unfold examineMut
          dsimp only [value_mk]
          split at looked <;> rename_i accepted
          · rw [if_pos accepted]
            exact looked
          · rw [if_neg accepted]
            exact looked

/-- The number of values changes with the value at the path. -/
theorem size_alter {n : RetainTree V} (tidy : Trie.Tidy n) (g : Option V → Option V)
    (path : List Level) :
    (Trie.alter g path n).valuesSize + (if (n.valueAt path).isSome then 1 else 0) =
      n.valuesSize + (if (g (n.valueAt path)).isSome then 1 else 0) := by
  have size := Trie.size_alter g path tidy
  rw [← valueAt_eq_payloadAt] at size
  have weight : ∀ o : Option V, Trie.weight (RetainNode V) o = if o.isSome then 1 else 0 := by
    intro o
    cases o <;> rfl
  rw [weight, weight] at size
  exact size

theorem valuesSize_of_isBare {n : RetainNode V} (bare : n.isBare = true) : n.valuesSize = 0 := by
  rw [isBare_eq_bare] at bare
  exact Trie.size_of_bare bare

theorem valuesSize_mk (own : Option V) (bs : List (Level × RetainNode V)) :
    valuesSize (mk own bs) = branchesSize bs + own.toList.length := by
  cases own <;> simp [valuesSize]

theorem valuesSize_examineMut (f : S → V → Bool × S) (n : RetainNode V) (removeds : Nat) (s : S) :
    (examineMut f n removeds s).1.valuesSize + (examineMut f n removeds s).2.1 =
      n.valuesSize + removeds := by
  obtain ⟨own, below⟩ := n
  rw [examineMut]
  cases own with
  | none => rfl
  | some v =>
      dsimp only [value_mk]
      split
      · rfl
      · rw [valuesSize_mk, valuesSize_mk, branches_mk, Option.toList_none, Option.toList_some,
          List.length_nil, List.length_singleton]
        dsimp only
        omega

theorem retainMut_invariant {f : S → V → Bool × S} {P : Nat → S → Prop}
    (keep : ∀ c s v, P c s → P (if (f s v).1 then c else c + 1) (f s v).2) (n : RetainNode V)
    (maxLimit : Nat) {s : S} (h : P 0 s) :
    P (n.retainMut maxLimit f s).2.1 (n.retainMut maxLimit f s).2.2 := by
  obtain ⟨value, bs⟩ := n
  rw [retainMut, retainNodeMut_mk, retainBelowMut]
  split
  · exact h
  · exact retainBranchesMut_invariant keep bs 0 s h

/-- Every removal takes one value out of the branches. -/
theorem branchesSize_retainBranchesMut (f : S → V → Bool × S) (maxLimit : Nat)
    (bs : List (Level × RetainNode V)) (removeds : Nat) (s : S) :
    branchesSize (retainBranchesMut f maxLimit bs removeds s).1 +
        (retainBranchesMut f maxLimit bs removeds s).2.1 = branchesSize bs + removeds := by
  induction bs using branches_induction generalizing removeds s with
  | nil => rfl
  | cons l own below bs ihBelow ih =>
      have lower : branchesSize (retainBelowMut f maxLimit below removeds s).1 +
          (retainBelowMut f maxLimit below removeds s).2.1 = branchesSize below + removeds := by
        unfold retainBelowMut
        split
        · rfl
        · exact ihBelow removeds s
      have looked := valuesSize_examineMut f (mk own (retainBelowMut f maxLimit below removeds s).1)
        (retainBelowMut f maxLimit below removeds s).2.1
        (retainBelowMut f maxLimit below removeds s).2.2
      rw [retainBranchesMut, retainNodeMut_mk, branchesSize, valuesSize_mk own below]
      rw [valuesSize_mk own] at looked
      dsimp only
      generalize examineMut f _ _ _ = r at looked ⊢
      have rest := ih r.2.1 r.2.2
      split
      · rename_i bare
        rw [valuesSize_of_isBare bare] at looked
        omega
      · rw [branchesSize]
        omega

/-- Every removal takes one value out of the tree. -/
theorem valuesSize_retainMut (n : RetainNode V) (maxLimit : Nat) (f : S → V → Bool × S) (s : S) :
    (n.retainMut maxLimit f s).1.valuesSize + (n.retainMut maxLimit f s).2.1 = n.valuesSize := by
  obtain ⟨value, bs⟩ := n
  rw [retainMut, retainNodeMut_mk, retainBelowMut, valuesSize_mk value bs]
  dsimp only
  split
  · rw [valuesSize_mk]
    rfl
  · have below := branchesSize_retainBranchesMut f maxLimit bs 0 s
    rw [valuesSize_mk]
    omega

/-! ## The shape that is left -/

theorem retainBranchesMut_cons (l : Level) (own : Option V) (below bs : List (Level × RetainNode V))
    (removeds : Nat) (s : S) :
    retainBranchesMut f maxLimit ((l, mk own below) :: bs) removeds s =
      let lower := retainBelowMut f maxLimit below removeds s
      let r := examineMut f (mk own lower.1) lower.2.1 lower.2.2
      let rest := retainBranchesMut f maxLimit bs r.2.1 r.2.2
      (if r.1.isBare then rest.1 else (l, r.1) :: rest.1, rest.2) := by
  rw [retainBranchesMut, retainNodeMut_mk]

theorem examineMut_mk (own : Option V) (below : List (Level × RetainNode V)) (removeds : Nat)
    (s : S) : ∃ own', (examineMut f (mk own below) removeds s).1 = mk own' below := by
  unfold examineMut
  cases own with
  | none => exact ⟨none, rfl⟩
  | some v =>
      dsimp only [value_mk]
      split
      · exact ⟨some v, rfl⟩
      · exact ⟨none, rfl⟩

theorem keys_retainBranchesMut (bs : List (Level × RetainNode V)) (removeds : Nat) (s : S) :
    ((retainBranchesMut f maxLimit bs removeds s).1.map Prod.fst).Sublist (bs.map Prod.fst) := by
  induction bs using branches_induction generalizing removeds s with
  | nil => exact .refl _
  | cons l own below bs _ ih =>
      rw [retainBranchesMut_cons]
      dsimp only
      split
      · exact (ih _ _).cons l
      · exact (ih _ _).cons_cons l

theorem distinct_retainBranchesMut {value : Option V} {bs : List (Level × RetainNode V)}
    (distinct : Distinct (mk value bs)) (removeds : Nat) (s : S) :
    Distinct (mk value (retainBranchesMut f maxLimit bs removeds s).1) := by
  induction bs using branches_induction generalizing value removeds s with
  | nil => exact distinct
  | cons l own below bs ihBelow ih =>
      obtain ⟨fresh, first, rest⟩ := distinct_cons.mp distinct
      have lower : Distinct (mk own (retainBelowMut f maxLimit below removeds s).1) := by
        unfold retainBelowMut
        split
        · exact first
        · exact ihBelow first removeds s
      rw [retainBranchesMut_cons]
      dsimp only
      obtain ⟨own', looked⟩ := examineMut_mk (f := f) own
        (retainBelowMut f maxLimit below removeds s).1
        (retainBelowMut f maxLimit below removeds s).2.1
        (retainBelowMut f maxLimit below removeds s).2.2
      split
      · exact ih rest _ _
      · rw [looked]
        exact distinct_cons.mpr ⟨fun h => fresh ((keys_retainBranchesMut bs _ _).subset h),
          distinct_of_value lower, ih rest _ _⟩

theorem tidy_cons {value : Option V} {l : Level} {n : RetainNode V}
    {bs : List (Level × RetainNode V)} : Trie.Tidy (mk value ((l, n) :: bs)) ↔
      l ∉ bs.map Prod.fst ∧ n.isBare = false ∧ Trie.Tidy n ∧ Trie.Tidy (mk value bs) := by
  rw [isBare_eq_bare]
  constructor
  · intro h
    cases h with
    | intro keys busy each =>
        obtain ⟨fresh, rest⟩ := List.nodup_cons.mp keys
        exact ⟨fresh, busy _ List.mem_cons_self, each _ List.mem_cons_self,
          .intro rest (fun b hb => busy b (List.mem_cons_of_mem _ hb))
            fun b hb => each b (List.mem_cons_of_mem _ hb)⟩
  · intro h
    obtain ⟨fresh, filled, first, rest⟩ := h
    cases rest with
    | intro keys busy each =>
        refine .intro (List.nodup_cons.mpr ⟨fresh, keys⟩) ?_ ?_
        · intro b hb
          rcases List.mem_cons.mp hb with rfl | hb
          · exact filled
          · exact busy b hb
        · intro b hb
          rcases List.mem_cons.mp hb with rfl | hb
          · exact first
          · exact each b hb

theorem tidy_of_value {value value' : Option V} {bs : List (Level × RetainNode V)}
    (h : Trie.Tidy (mk value bs)) : Trie.Tidy (mk value' bs) := by
  cases h with
  | intro keys busy each => exact .intro keys busy each

/-- The loop drops the branches it leaves bare. -/
theorem tidy_retainBranchesMut {value : Option V} {bs : List (Level × RetainNode V)}
    (tidy : Trie.Tidy (mk value bs)) (removeds : Nat) (s : S) :
    Trie.Tidy (mk value (retainBranchesMut f maxLimit bs removeds s).1) := by
  induction bs using branches_induction generalizing value removeds s with
  | nil => exact tidy
  | cons l own below bs ihBelow ih =>
      obtain ⟨fresh, -, first, rest⟩ := tidy_cons.mp tidy
      have lower : Trie.Tidy (mk own (retainBelowMut f maxLimit below removeds s).1) := by
        unfold retainBelowMut
        split
        · exact first
        · exact ihBelow first removeds s
      rw [retainBranchesMut_cons]
      dsimp only
      obtain ⟨own', looked⟩ := examineMut_mk (f := f) own
        (retainBelowMut f maxLimit below removeds s).1
        (retainBelowMut f maxLimit below removeds s).2.1
        (retainBelowMut f maxLimit below removeds s).2.2
      split
      · exact ih rest _ _
      · rename_i busy
        rw [looked] at busy ⊢
        exact tidy_cons.mpr ⟨fun h => fresh ((keys_retainBranchesMut bs _ _).subset h),
          by simpa using busy, tidy_of_value lower, ih rest _ _⟩

theorem distinct_retainMut {n : RetainNode V} (distinct : Distinct n) (maxLimit : Nat)
    (f : S → V → Bool × S) (s : S) : Distinct (n.retainMut maxLimit f s).1 := by
  obtain ⟨value, bs⟩ := n
  rw [retainMut, retainNodeMut_mk, retainBelowMut]
  split
  · exact distinct
  · exact distinct_retainBranchesMut distinct 0 s

theorem tidy_retainMut {n : RetainNode V} (tidy : Trie.Tidy n) (maxLimit : Nat)
    (f : S → V → Bool × S) (s : S) : Trie.Tidy (n.retainMut maxLimit f s).1 := by
  obtain ⟨value, bs⟩ := n
  rw [retainMut, retainNodeMut_mk, retainBelowMut]
  split
  · exact tidy
  · exact tidy_retainBranchesMut tidy 0 s

end State

end RetainNode

end OxiMqtt

import OxiMqtt.Trie
import OxiMqtt.TopicRules

/-!
# The trie matches like a linear scan

`matched n path subPath` lists what the lazy iterator of a node yields, in order,
by recursion on the path; `MatchedIter.exhausts_new` proves that iterating to
exhaustion yields exactly this list.  The list is then compared with the rules:
`mem_matched` characterises its members by `Accepts` and the stored values, and
`nodup_matched` shows that a topic name yields every filter once.

The tree's history is read off a table, `SubTable`, that keeps the value set of
every filter; `valuesAt_treeOf` says that the tree holds the table's sets.  The
two halves meet in `matches_iter_eq_linear_scan`.
-/

namespace OxiMqtt

open Collections

variable {V : Type} [LinearOrder V]

/-! ## What an iterator still has to yield -/

/-- The items of one value set, none when it is empty. -/
def itemsOf (levels : List Level) (vs : OrdSet V) : List (Item V) :=
  if vs.isEmpty then [] else [(levels, vs.toList)]

/-- The items of the `#` branch of a node. -/
def multiMatched (n : Node V) (subPath : List Level) : List (Item V) :=
  ((n.child .multiWildcard).map fun b => itemsOf (subPath ++ [.multiWildcard]) b.values).getD []

/-- Everything the iterator of a node yields along a path, in order. -/
def matched : List Level → Node V → List Level → List (Item V)
  | [], n, subPath => itemsOf subPath n.values ++ multiMatched n subPath
  | first :: path, n, subPath =>
      let below := fun l => ((n.child l).map fun b => matched path b (subPath ++ [l])).getD []
      (if MatchedIter.isolated n first subPath then []
        else multiMatched n subPath ++ below .singleWildcard) ++ below first

namespace MatchedIter

/-- What an iterator with at most `depth` levels below it still yields. -/
def restAt : Nat → MatchedIter V → List (Item V)
  | 0, _ => []
  | depth + 1, mk node path subPath items iters =>
      items.reverse ++ iters.flatMap (restAt depth) ++
        (subPath.map (matched path node)).getD []

/-- Every level below the iterator is within the bound `depth`. -/
def Within : Nat → MatchedIter V → Prop
  | 0, _ => False
  | depth + 1, mk _ path _ _ iters => path.length ≤ depth ∧ ∀ s ∈ iters, Within depth s

theorem within_new {node : Node V} {path subPath : List Level} {depth : Nat}
    (h : path.length < depth) : Within depth (new node path subPath) := by
  cases depth with
  | zero => omega
  | succ depth => exact ⟨by omega, fun s hs => (List.not_mem_nil hs).elim⟩

theorem restAt_new {node : Node V} {path subPath : List Level} {depth : Nat}
    (h : path.length < depth) :
    restAt depth (new node path subPath) = matched path node subPath := by
  cases depth with
  | zero => omega
  | succ depth => simp [restAt, new]

theorem addToItems_eq (items : List (Item V)) (levels : List Level) (vs : OrdSet V) :
    addToItems items levels vs = items ++ itemsOf levels vs := by
  unfold addToItems itemsOf
  split <;> simp

theorem multiItems_eq (node : Node V) (subPath : List Level) (items : List (Item V)) :
    multiItems node subPath items = items ++ multiMatched node subPath := by
  unfold multiItems multiMatched
  cases node.child .multiWildcard with
  | none => simp
  | some b => simp [addToItems_eq]

theorem reverse_multiMatched (n : Node V) (subPath : List Level) :
    (multiMatched n subPath).reverse = multiMatched n subPath := by
  unfold multiMatched itemsOf
  cases n.child .multiWildcard with
  | none => rfl
  | some b => simp only [Option.map_some, Option.getD_some]; split <;> rfl

theorem reverse_itemsOf (levels : List Level) (vs : OrdSet V) :
    (itemsOf levels vs).reverse = itemsOf levels vs := by
  unfold itemsOf
  split <;> rfl

theorem flatMap_branchIters {depth : Nat} {node : Node V} {l : Level} {path subPath : List Level}
    (h : path.length < depth) : (branchIters node l path subPath).flatMap (restAt depth) =
      ((node.child l).map fun b => matched path b (subPath ++ [l])).getD [] := by
  unfold branchIters
  cases node.child l with
  | none => rfl
  | some b => simp [restAt_new h]

theorem within_branchIters {depth : Nat} {node : Node V} {l : Level} {path subPath : List Level}
    (h : path.length < depth) : ∀ s ∈ branchIters node l path subPath, Within depth s := by
  unfold branchIters
  cases node.child l with
  | none => exact fun s hs => (List.not_mem_nil hs).elim
  | some b =>
      intro s hs
      rw [List.mem_singleton.mp hs]
      exact within_new h

/-- `prepare` of a drained iterator readies exactly what is left to yield. -/
theorem prepare_spec {depth : Nat} {path : List Level} (node : Node V) (subPath : List Level)
    (within : path.length ≤ depth) :
    ∃ items iters,
      prepare (mk node path (some subPath) [] []) = some (mk node path none items iters) ∧
      (∀ s ∈ iters, Within depth s) ∧
      items.reverse ++ iters.flatMap (restAt depth) = matched path node subPath := by
  cases path with
  | nil =>
      refine ⟨_, _, rfl, fun s hs => (List.not_mem_nil hs).elim, ?_⟩
      simp [addToItems_eq, multiItems_eq, reverse_multiMatched, reverse_itemsOf, matched]
  | cons first path =>
      have below : path.length < depth := Nat.lt_of_succ_le within
      refine ⟨_, _, rfl, ?_, ?_⟩
      · intro s hs
        rw [List.nil_append, List.mem_append] at hs
        rcases hs with hs | hs
        · split at hs
          · exact within_branchIters below s hs
          · exact (List.not_mem_nil hs).elim
        · exact within_branchIters below s hs
      · rw [matched, List.nil_append, List.flatMap_append, flatMap_branchIters below,
          ← List.append_assoc]
        congr 1
        cases isolated node first subPath with
        | true => rfl
        | false =>
            simp [multiItems_eq, reverse_multiMatched, flatMap_branchIters below]

/-! ## One call of `next` -/

/-- `next` yields the first item still due and leaves the others, or reports
that nothing is due. -/
def StepsAt (depth : Nat) (it : MatchedIter V) (r : Option (Item V) × MatchedIter V) : Prop :=
  match r with
  | (some item, it') => restAt depth it = item :: restAt depth it' ∧ Within depth it' ∧
      it'.path = it.path
  | (none, _) => restAt depth it = []

theorem nextOfSubs_spec {depth : Nat} {next : MatchedIter V → Option (Item V) × MatchedIter V}
    (spec : ∀ s, Within depth s → StepsAt depth s (next s)) :
    ∀ {subs : List (MatchedIter V)}, (∀ s ∈ subs, Within depth s) →
      match nextOfSubs next subs with
      | (some item, subs') => subs.flatMap (restAt depth) = item :: subs'.flatMap (restAt depth) ∧
          ∀ s ∈ subs', Within depth s
      | (none, subs') => subs.flatMap (restAt depth) = [] ∧ subs' = [] := by
  intro subs
  induction subs with
  | nil => exact fun _ => ⟨rfl, rfl⟩
  | cons s rest ih =>
      intro within
      have first := spec s (within s List.mem_cons_self)
      have ih := ih fun s' hs' => within s' (List.mem_cons_of_mem _ hs')
      rw [nextOfSubs]
      rcases hn : next s with ⟨_ | item, s'⟩
      · rw [hn] at first
        simpa only [List.flatMap_cons, show restAt depth s = [] from first,
          List.nil_append] using ih
      · rw [hn] at first
        obtain ⟨due, within', -⟩ := first
        refine ⟨by simp [due], fun x hx => ?_⟩
        rcases List.mem_cons.mp hx with rfl | hx
        · exact within'
        · exact within x (List.mem_cons_of_mem _ hx)

/-- `nextItem` serves the ready items and then the sub-iterators; when it
returns nothing the iterator is drained. -/
theorem nextItem_spec {depth : Nat} {node : Node V} {path : List Level}
    {subPath : Option (List Level)} {items : List (Item V)} {iters : List (MatchedIter V)}
    (spec : ∀ s : MatchedIter V, Within depth s → StepsAt depth s (nextAt depth s))
    (within : Within (depth + 1) (mk node path subPath items iters)) :
    match nextItem (nextAt depth) (mk node path subPath items iters) with
    | (some item, it') => StepsAt (depth + 1) (mk node path subPath items iters) (some item, it')
    | (none, it') => items = [] ∧ iters.flatMap (restAt depth) = [] ∧
        it' = mk node path subPath [] [] := by
  rw [nextItem]
  cases hlast : items.getLast? with
  | some item =>
      dsimp only
      have split : items = items.dropLast ++ [item] :=
        (List.dropLast_append_getLast? item (by simp [hlast])).symm
      refine ⟨?_, within, rfl⟩
      simp only [restAt]
      conv_lhs => rw [split]
      simp
  | none =>
      have none : items = [] := List.getLast?_eq_none_iff.mp hlast
      subst none
      have subs := nextOfSubs_spec spec within.2
      dsimp only
      rcases hn : nextOfSubs (nextAt depth) iters with ⟨_ | item, iters'⟩
      · rw [hn] at subs
        exact ⟨rfl, subs.1, by rw [subs.2]⟩
      · rw [hn] at subs
        refine ⟨?_, ⟨within.1, subs.2⟩, rfl⟩
        simp [restAt, subs.1]

theorem nextAt_spec (depth : Nat) : ∀ it : MatchedIter V, Within depth it →
    StepsAt depth it (nextAt depth it) := by
  induction depth with
  | zero => exact fun it h => h.elim
  | succ depth ih =>
      rintro ⟨node, path, subPath, items, iters⟩ within
      have ready := nextItem_spec ih within
      rw [nextAt]
      rcases hready : nextItem (nextAt depth) (mk node path subPath items iters)
        with ⟨_ | item, it'⟩
      · rw [hready] at ready
        obtain ⟨rfl, drained, rfl⟩ := ready
        cases subPath with
        | none => simp [prepare, StepsAt, restAt, drained]
        | some subPath =>
            -- the drained iterator is prepared and then asked again
            obtain ⟨items, iters', hprep, within', due⟩ :=
              prepare_spec node subPath within.1
            have after := nextItem_spec ih
              (show Within (depth + 1) (mk node path none items iters') from ⟨within.1, within'⟩)
            have same : restAt (depth + 1) (mk node path (some subPath) [] iters) =
                restAt (depth + 1) (mk node path none items iters') := by
              simp [restAt, drained, due]
            dsimp only
            rw [hprep]
            dsimp only
            rcases hnext : nextItem (nextAt depth) (mk node path none items iters') with
              ⟨_ | item, it'⟩
            · rw [hnext] at after
              obtain ⟨rfl, drained', -⟩ := after
              rw [StepsAt, same]
              simp only [restAt, drained', List.reverse_nil, List.append_nil, Option.map_none,
                Option.getD_none]
            · rw [hnext] at after
              exact ⟨by rw [same]; exact after.1, after.2.1, after.2.2⟩
      · rw [hready] at ready
        exact ready

/-! ## Iterating to exhaustion -/

theorem exhausts_of_rest {it : MatchedIter V} {items : List (Item V)}
    (within : Within (it.path.length + 1) it) (rest : restAt (it.path.length + 1) it = items) :
    Exhausts it items := by
  induction items generalizing it with
  | nil =>
      have step := nextAt_spec _ it within
      rcases hn : nextAt (it.path.length + 1) it with ⟨_ | item, it'⟩
      · exact .done hn
      · rw [hn] at step
        rw [step.1] at rest
        cases rest
  | cons item items ih =>
      have step := nextAt_spec _ it within
      rcases hn : nextAt (it.path.length + 1) it with ⟨_ | item', it'⟩
      · rw [hn] at step
        rw [show restAt _ it = [] from step] at rest
        cases rest
      · rw [hn] at step
        obtain ⟨due, within', samePath⟩ := step
        obtain ⟨rfl, rest'⟩ := List.cons.inj (due.symm.trans rest)
        refine .item hn (ih ?_ ?_)
        · rw [samePath]; exact within'
        · rw [samePath]; exact rest'

/-- Iterating a fresh iterator to exhaustion yields `matched`. -/
theorem exhausts_new (node : Node V) (path subPath : List Level) :
    Exhausts (new node path subPath) (matched path node subPath) :=
  exhausts_of_rest (within_new (Nat.lt_succ_self _)) (restAt_new (Nat.lt_succ_self _))

/-- The iteration is deterministic. -/
theorem Exhausts.unique {it : MatchedIter V} {items items' : List (Item V)}
    (h : Exhausts it items) (h' : Exhausts it items') : items = items' := by
  induction h generalizing items' with
  | done hn =>
      cases h' with
      | done _ => rfl
      | item hn' _ => rw [hn] at hn'; cases hn'
  | item hn _ ih =>
      cases h' with
      | done hn' => rw [hn] at hn'; cases hn'
      | item hn' rest =>
          rw [hn] at hn'
          cases hn'
          rw [ih rest]

end MatchedIter

/-- `is_match` says whether the iteration yields anything. -/
theorem Node.isMatch_iff (n : Node V) (t : Topic) :
    n.isMatch t = true ↔ matched t.levels n [] ≠ [] := by
  have bound : t.levels.length < (n.matchesIter t).path.length + 1 := Nat.lt_succ_self _
  have step := MatchedIter.nextAt_spec _ (n.matchesIter t) (MatchedIter.within_new bound)
  have rest : MatchedIter.restAt _ (n.matchesIter t) = matched t.levels n [] :=
    MatchedIter.restAt_new bound
  unfold Node.isMatch MatchedIter.next
  rcases hn : MatchedIter.nextAt ((n.matchesIter t).path.length + 1) (n.matchesIter t) with
    ⟨_ | item, it'⟩
  · rw [hn] at step
    constructor
    · intro h
      cases h
    · intro h
      exact (h (rest.symm.trans step)).elim
  · rw [hn] at step
    refine ⟨fun _ hnil => ?_, fun _ => rfl⟩
    rw [← rest, step.1] at hnil
    cases hnil

/-! ## What is yielded -/

theorem mem_itemsOf {levels : List Level} {vs : OrdSet V} {item : Item V} :
    item ∈ itemsOf levels vs ↔ vs ≠ ∅ ∧ item = (levels, vs.toList) := by
  unfold itemsOf
  split
  · rename_i h
    simp [OrdSet.isEmpty_iff.mp h]
  · rename_i h
    simp only [List.mem_singleton, iff_and_self]
    exact fun _ hvs => h (OrdSet.isEmpty_iff.mpr hvs)

/-- `item` is the filter `q` below the path `sp`, with the values of `n` at `q`. -/
def ItemAt (n : Node V) (sp q : List Level) (item : Item V) : Prop :=
  n.valuesAt q ≠ ∅ ∧ item = (sp ++ q, (n.valuesAt q).toList)

/-- `q` starts with a wildcard and the path, walked from the root, with `$`. -/
def Secluded (sp q path : List Level) : Prop :=
  sp = [] ∧ LeadingWildcard q ∧ ∃ first, path.head? = some first ∧ first.isMetadata = true

theorem not_secluded_of_ne_nil {sp q path : List Level} (h : sp ≠ []) : ¬ Secluded sp q path :=
  fun secluded => h secluded.1

theorem mem_multiMatched {n : Node V} {sp : List Level} {item : Item V} :
    item ∈ multiMatched n sp ↔ ItemAt n sp [.multiWildcard] item := by
  unfold multiMatched ItemAt
  rw [Node.valuesAt_cons]
  cases n.child .multiWildcard with
  | none => simp
  | some b => simp [mem_itemsOf]

theorem itemAt_cons {n : Node V} {sp q : List Level} {l : Level} {item : Item V} :
    ItemAt n sp (l :: q) item ↔ ∃ b, n.child l = some b ∧ ItemAt b (sp ++ [l]) q item := by
  unfold ItemAt
  rw [Node.valuesAt_cons]
  cases n.child l with
  | none => simp
  | some b => simp

/-- The walk into the branch `l`, given what the walk below it yields. -/
theorem mem_below {n : Node V} {l : Level} {path sp : List Level} {item : Item V}
    (ih : ∀ b : Node V, item ∈ matched path b (sp ++ [l]) ↔
      ∃ q, Accepts q path ∧ ¬ Secluded (sp ++ [l]) q path ∧ ItemAt b (sp ++ [l]) q item) :
    item ∈ ((n.child l).map fun b => matched path b (sp ++ [l])).getD [] ↔
      ∃ q, Accepts q path ∧ ItemAt n sp (l :: q) item := by
  have free : ∀ q, ¬ Secluded (sp ++ [l]) q path := fun q => not_secluded_of_ne_nil (by simp)
  simp only [itemAt_cons]
  cases n.child l with
  | none => simp
  | some b => simp [ih b, free]

/-- The isolation test of the code is about the branches that exist; an absent
branch yields nothing, so it can be read as a test on the levels alone. -/
theorem secluded_of_isolated {n : Node V} {first : Level} {path sp q : List Level}
    (isolated : MatchedIter.isolated n first sp = true) (wild : LeadingWildcard q) :
    Secluded sp q (first :: path) := by
  simp only [MatchedIter.isolated, Bool.and_eq_true, List.isEmpty_iff] at isolated
  exact ⟨isolated.1.1.1, wild, first, rfl, isolated.1.2⟩

theorem not_secluded_of_not_isolated {n : Node V} {first : Level} {path sp q : List Level}
    {item : Item V} (shownHere : MatchedIter.isolated n first sp = false)
      (hitem : ItemAt n sp q item) :
    ¬ Secluded sp q (first :: path) := by
  rintro ⟨rfl, wild, _, head, isMeta⟩
  cases head
  have notBlank : first ≠ .blank := by rintro rfl; cases isMeta
  cases q with
  | nil => simp [LeadingWildcard] at wild
  | cons l q =>
      obtain ⟨b, hb, -⟩ := itemAt_cons.mp hitem
      have present : (n.child .multiWildcard).isSome = true ∨
          (n.child .singleWildcard).isSome = true := by
        rw [leadingWildcard_cons] at wild
        cases l with
        | singleWildcard => exact .inr (by rw [hb]; rfl)
        | multiWildcard => exact .inl (by rw [hb]; rfl)
        | _ => cases wild
      simp [MatchedIter.isolated, notBlank, isMeta] at shownHere
      rcases present with h | h
      · simp [shownHere.1] at h
      · simp [shownHere.2] at h

/-- Members of `matched`: the stored filters that accept the path, unless the
isolation of `$` topics hides them. -/
theorem mem_matched {path : List Level} {n : Node V} {sp : List Level} {item : Item V} :
    item ∈ matched path n sp ↔
      ∃ q, Accepts q path ∧ ¬ Secluded sp q path ∧ ItemAt n sp q item := by
  induction path generalizing n sp item with
  | nil =>
      have free : ∀ q, ¬ Secluded sp q [] := by
        rintro q ⟨-, -, _, h, -⟩
        cases h
      rw [matched, List.mem_append, mem_multiMatched]
      have here : item ∈ itemsOf sp n.values ↔ ItemAt n sp [] item := by
        rw [mem_itemsOf, ItemAt, List.append_nil, Node.valuesAt_nil]
      simp only [here, accepts_nil_iff, free, not_false_eq_true, true_and, or_and_right,
        exists_or, exists_eq_left]
  | cons first path ih =>
      have branch : ∀ l, item ∈ ((n.child l).map fun b => matched path b (sp ++ [l])).getD [] ↔
          ∃ q, Accepts q path ∧ ItemAt n sp (l :: q) item := fun l => mem_below fun b => ih
      rw [matched, List.mem_append, branch first]
      constructor
      · intro h
        rcases h with h | ⟨q, hq, hitem⟩
        · split at h
          · exact (List.not_mem_nil h).elim
          · rename_i shownHere
            rw [Bool.not_eq_true] at shownHere
            rw [List.mem_append, mem_multiMatched, branch] at h
            rcases h with h | ⟨q, hq, hitem⟩
            · exact ⟨_, .multi, not_secluded_of_not_isolated shownHere h, h⟩
            · exact ⟨_, .single hq, not_secluded_of_not_isolated shownHere hitem, hitem⟩
        · refine ⟨_, .precise hq, ?_, hitem⟩
          rintro ⟨-, wild, _, head, isMeta⟩
          cases head
          rw [leadingWildcard_cons] at wild
          cases first <;> simp_all [Level.isWildcard, Level.isMetadata]
      · rintro ⟨q, hq, shown, hitem⟩
        by_cases shownHere : MatchedIter.isolated n first sp = true
        · right
          have plain : ¬ LeadingWildcard q :=
            fun wild => shown (secluded_of_isolated shownHere wild)
          rcases accepts_cons_iff.mp hq with rfl | ⟨q, rfl, -⟩ | ⟨q, rfl, below⟩
          · exact (plain (leadingWildcard_cons.mpr rfl)).elim
          · exact (plain (leadingWildcard_cons.mpr rfl)).elim
          · exact ⟨q, below, hitem⟩
        · rw [if_neg shownHere, List.mem_append, mem_multiMatched, branch]
          rcases accepts_cons_iff.mp hq with rfl | ⟨q, rfl, below⟩ | ⟨q, rfl, below⟩
          · exact .inl (.inl hitem)
          · exact .inl (.inr ⟨q, below, hitem⟩)
          · exact .inr ⟨q, below, hitem⟩

/-! ## Every filter once -/

theorem fst_of_mem_below {n : Node V} {l : Level} {path sp levels : List Level}
    (h : levels ∈
      (((n.child l).map fun b => matched path b (sp ++ [l])).getD []).map Prod.fst) :
    ∃ q, levels = sp ++ l :: q := by
  obtain ⟨item, hmem, rfl⟩ := List.mem_map.mp h
  obtain ⟨q, -, -, rfl⟩ := (mem_below fun b => mem_matched).mp hmem
  exact ⟨q, rfl⟩

theorem fst_of_mem_multiMatched {n : Node V} {sp levels : List Level}
    (h : levels ∈ (multiMatched n sp).map Prod.fst) : levels = sp ++ [.multiWildcard] := by
  obtain ⟨item, hmem, rfl⟩ := List.mem_map.mp h
  rw [(mem_multiMatched.mp hmem).2]

theorem nodup_itemsOf (levels : List Level) (vs : OrdSet V) :
    ((itemsOf levels vs).map Prod.fst).Nodup := by
  unfold itemsOf
  split <;> simp

theorem nodup_multiMatched (n : Node V) (sp : List Level) :
    ((multiMatched n sp).map Prod.fst).Nodup := by
  unfold multiMatched
  cases n.child .multiWildcard with
  | none => simp
  | some b => exact nodup_itemsOf _ _

theorem nodup_below {n : Node V} {l : Level} {path sp : List Level}
    (ih : ∀ b : Node V, ((matched path b (sp ++ [l])).map Prod.fst).Nodup) :
    ((((n.child l).map fun b => matched path b (sp ++ [l])).getD []).map Prod.fst).Nodup := by
  cases n.child l with
  | none => simp
  | some b => exact ih b

/-- Along a path without wildcards no filter is yielded twice. -/
theorem nodup_matched {path : List Level} (free : ∀ l ∈ path, l.isWildcard = false) (n : Node V)
    (sp : List Level) : ((matched path n sp).map Prod.fst).Nodup := by
  induction path generalizing n sp with
  | nil =>
      rw [matched, List.map_append, List.nodup_append]
      refine ⟨nodup_itemsOf _ _, nodup_multiMatched _ _, fun a ha b hb hab => ?_⟩
      obtain ⟨item, hitem, rfl⟩ := List.mem_map.mp ha
      rw [(mem_itemsOf.mp hitem).2, fst_of_mem_multiMatched hb] at hab
      simp at hab
  | cons first path ih =>
      have ih := fun b sp => ih (fun l hl => free l (List.mem_cons_of_mem _ hl)) b sp
      have plain : first.isWildcard = false := free first List.mem_cons_self
      rw [matched, List.map_append, List.nodup_append]
      refine ⟨?_, nodup_below fun b => ih b _, fun a ha b hb hab => ?_⟩
      · split
        · simp
        · rw [List.map_append, List.nodup_append]
          refine ⟨nodup_multiMatched _ _, nodup_below fun b => ih b _, fun a ha b hb hab => ?_⟩
          obtain ⟨q, rfl⟩ := fst_of_mem_below hb
          simp [fst_of_mem_multiMatched ha] at hab
      · obtain ⟨q, rfl⟩ := fst_of_mem_below hb
        split at ha
        · simp at ha
        · rw [List.map_append, List.mem_append] at ha
          rcases ha with ha | ha
          · rw [fst_of_mem_multiMatched ha, List.append_cancel_left_eq] at hab
            cases hab
            cases plain
          · obtain ⟨q', rfl⟩ := fst_of_mem_below ha
            rw [List.append_cancel_left_eq] at hab
            cases hab
            cases plain

/-! ## The history of a tree -/

/-- An update of the tree. -/
inductive TreeOp (V : Type) : Type
  | insert (filter : Topic) (value : V)
  | remove (filter : Topic) (value : V)
  deriving DecidableEq, Repr

namespace TreeOp

def apply : TreeOp V → TopicTree V → TopicTree V
  | insert filter value, n => (n.insert filter value).1
  | remove filter value, n => (n.remove filter value).1

/-- The update on a table that lists the values of every filter. -/
def record : TreeOp V → (Topic → Set V) → Topic → Set V
  | insert filter value, s => Function.update s filter (Insert.insert value (s filter))
  | remove filter value, s => Function.update s filter (s filter \ {value})

end TreeOp

/-- The tree after a sequence of updates of the empty tree. -/
def treeOf (ops : List (TreeOp V)) : TopicTree V := ops.foldl (fun n op => op.apply n) Node.default

/-- The values stored for every filter after a sequence of updates. -/
def storedBy (ops : List (TreeOp V)) : Topic → Set V :=
  ops.foldl (fun s op => op.record s) fun _ => ∅

/-- The tree holds the values of the table at every path. -/
def Represents (n : TopicTree V) (s : Topic → Set V) : Prop :=
  ∀ filter value, value ∈ n.valuesAt filter.levels ↔ value ∈ s filter

theorem Topic.levels_inj {f g : Topic} : f.levels = g.levels ↔ f = g :=
  ⟨fun h => by cases f; cases g; cases h; rfl, fun h => by rw [h]⟩

/-- What an insertion stores. -/
theorem Node.mem_valuesAt_insert {n : TopicTree V} {f g : Topic} {v w : V} :
    w ∈ (n.insert g v).1.valuesAt f.levels ↔ (f = g ∧ w = v) ∨ w ∈ n.valuesAt f.levels := by
  rw [Node.insert, Node.valuesAt_insertPath]
  simp only [Topic.levels_inj]
  split
  · rename_i heq
    rw [OrdSet.mem_insert, heq]
    simp
  · rename_i hne
    simp [hne]

/-- What a removal leaves. -/
theorem Node.mem_valuesAt_remove {n : TopicTree V} {f g : Topic} {v w : V} :
    w ∈ (n.remove g v).1.valuesAt f.levels ↔ ¬ (f = g ∧ w = v) ∧ w ∈ n.valuesAt f.levels := by
  rw [Node.remove, Node.valuesAt_removePath]
  simp only [Topic.levels_inj]
  split
  · rename_i heq
    rw [OrdSet.mem_remove, heq]
    simp
  · rename_i hne
    simp [hne]

/-- One update keeps tree and table together. -/
theorem Represents.apply {n : TopicTree V} {s : Topic → Set V} (h : Represents n s)
    (op : TreeOp V) : Represents (op.apply n) (op.record s) := by
  intro filter value
  cases op with
  | insert f v =>
      rw [TreeOp.apply, TreeOp.record, Node.mem_valuesAt_insert, h filter value,
        Function.update_apply]
      split
      · rename_i heq
        simp [heq]
      · rename_i hne
        simp [hne]
  | remove f v =>
      rw [TreeOp.apply, TreeOp.record, Node.mem_valuesAt_remove, h filter value,
        Function.update_apply]
      split
      · rename_i heq
        simp [heq, and_comm]
      · rename_i hne
        simp [hne]

/-- The tree of a history holds the table of the history. -/
theorem represents_treeOf (ops : List (TreeOp V)) : Represents (treeOf ops) (storedBy ops) := by
  suffices run : ∀ (n : TopicTree V) (s : Topic → Set V), Represents n s →
      Represents (ops.foldl (fun n op => op.apply n) n) (ops.foldl (fun s op => op.record s) s) by
    refine run _ _ fun filter value => ?_
    simp
  induction ops with
  | nil => exact fun n s h => h
  | cons op ops ih => exact fun n s h => ih _ _ (h.apply op)

/-! ## The trie and the scan -/

/-- On well-formed levels the code's isolation is the rule's. -/
theorem secluded_root_iff {path : List Level} (valid : ∀ l ∈ path, l.isValid = true)
    (q : List Level) : Secluded [] q path ↔ LeadingWildcard q ∧ LeadingDollar path := by
  unfold Secluded LeadingDollar
  simp only [true_and]
  refine and_congr_right fun _ => exists_congr fun first => and_congr_right fun head => ?_
  rw [Level.dollar_eq_isMetadata (valid first (List.mem_of_mem_head? head))]

/-- The items of a topic name are the matching filters that have a value. -/
theorem mem_matched_iff_mqttMatches {s : String} {t : Topic} (parsed : Topic.fromStr s = .ok t)
    (free : t.WildcardFree) (n : Node V) (item : Item V) :
    item ∈ matched t.levels n [] ↔ ∃ filter : Topic, MqttMatches filter t ∧
      n.valuesAt filter.levels ≠ ∅ ∧ item = (filter.levels, (n.valuesAt filter.levels).toList) := by
  have valid := Topic.valid_of_fromStr parsed
  rw [mem_matched]
  constructor
  · rintro ⟨q, hq, shown, hvalues, hitem⟩
    refine ⟨⟨q⟩, ?_, hvalues, hitem⟩
    rw [MqttMatches, ← accepts_iff_matches free, ← secluded_root_iff valid.levels_valid]
    exact ⟨hq, shown⟩
  · rintro ⟨filter, hmatch, hvalues, hitem⟩
    rw [MqttMatches, ← accepts_iff_matches free, ← secluded_root_iff valid.levels_valid] at hmatch
    exact ⟨filter.levels, hmatch.1, hmatch.2, hvalues, hitem⟩

/-- A tree that holds one filter reports a topic name as a match if the filter matches it. -/
theorem isMatch_single_iff {t : Topic} (valid : ∀ l ∈ t.levels, l.isValid = true)
    (free : t.WildcardFree) (f : Topic) (v : V) :
    (treeOf [.insert f v]).isMatch t = true ↔ MqttMatches f t := by
  have stored : ∀ q w, w ∈ (treeOf [.insert f v]).valuesAt q ↔ q = f.levels ∧ w = v := by
    intro q w
    have inserted :=
      Node.mem_valuesAt_insert (n := Node.default) (f := ⟨q⟩) (g := f) (v := v) (w := w)
    rw [Node.valuesAt_default, ← Topic.levels_inj] at inserted
    exact inserted.trans (or_iff_left (OrdSet.not_mem_empty w))
  have filled : ∀ q, (treeOf [.insert f v]).valuesAt q ≠ ∅ ↔ q = f.levels := by
    intro q
    simp [OrdSet.ne_empty_iff, stored]
  rw [Node.isMatch_iff]
  constructor
  · intro h
    rcases List.exists_mem_of_ne_nil _ h with ⟨item, member⟩
    rcases mem_matched.mp member with ⟨q, hq, shown, values, -⟩
    obtain rfl := (filled q).mp values
    rw [MqttMatches, ← accepts_iff_matches free, ← secluded_root_iff valid]
    exact ⟨hq, shown⟩
  · intro h
    rw [MqttMatches, ← accepts_iff_matches free, ← secluded_root_iff valid] at h
    exact List.ne_nil_of_mem
      (mem_matched.mpr ⟨f.levels, h.1, h.2, (filled f.levels).mpr rfl, rfl⟩)

/-- Iterating the matches of a topic name over a tree with any history yields,
once each, the filters with a stored value that match the name under the MQTT
rules, each with exactly its stored values; `is_match` says whether there is one. -/
theorem matches_iter_eq_linear_scan (ops : List (TreeOp V)) {s : String} {t : Topic}
    (parsed : Topic.fromStr s = .ok t) (free : t.WildcardFree) :
    ∃ items : List (Item V), ((treeOf ops).matchesIter t).Exhausts items ∧
      (items.map Prod.fst).Nodup ∧
      (∀ filter values, (filter.levels, values) ∈ items ↔
        MqttMatches filter t ∧ (storedBy ops filter).Nonempty ∧
          values.Pairwise (· < ·) ∧ ∀ v, v ∈ values ↔ v ∈ storedBy ops filter) ∧
      ((treeOf ops).isMatch t = true ↔ items ≠ []) := by
  have stored := represents_treeOf ops
  refine ⟨matched t.levels (treeOf ops) [], MatchedIter.exhausts_new _ _ _,
    nodup_matched free _ _, fun filter values => ?_, Node.isMatch_iff _ _⟩
  have nonempty : (treeOf ops).valuesAt filter.levels ≠ ∅ ↔ (storedBy ops filter).Nonempty := by
    rw [OrdSet.ne_empty_iff]
    exact exists_congr fun v => stored filter v
  have listed : values = ((treeOf ops).valuesAt filter.levels).toList ↔
      values.Pairwise (· < ·) ∧ ∀ v, v ∈ values ↔ v ∈ storedBy ops filter := by
    rw [OrdSet.eq_toList_iff]
    exact and_congr_right fun _ => forall_congr' fun v => iff_congr Iff.rfl (stored filter v)
  rw [mem_matched_iff_mqttMatches parsed free, ← nonempty, ← listed]
  constructor
  · rintro ⟨f, hmatch, hvalues, hitem⟩
    obtain ⟨levels, rfl⟩ := Prod.mk.inj hitem
    rw [Topic.levels_inj.mp levels]
    exact ⟨hmatch, hvalues, rfl⟩
  · rintro ⟨hmatch, hvalues, rfl⟩
    exact ⟨filter, hmatch, hvalues, rfl⟩

theorem matches_iter_eq_linear_scan_sensor :
    ∃ items : List (Item Nat),
      ((treeOf [.insert ⟨[.normal "a", .singleWildcard]⟩ 1,
        .insert ⟨[.normal "a", .multiWildcard]⟩ 2,
        .remove ⟨[.normal "a", .singleWildcard]⟩ 1]).matchesIter
          ⟨[.normal "a", .normal "b"]⟩).Exhausts items ∧ (items.map Prod.fst).Nodup := by
  obtain ⟨items, exhausts, nodup, -⟩ := matches_iter_eq_linear_scan
    [.insert ⟨[.normal "a", .singleWildcard]⟩ 1, .insert ⟨[.normal "a", .multiWildcard]⟩ 2,
      .remove ⟨[.normal "a", .singleWildcard]⟩ 1] (s := "a/b")
    (t := ⟨[.normal "a", .normal "b"]⟩) (by decide) (by decide)
  exact ⟨items, exhausts, nodup⟩

end OxiMqtt

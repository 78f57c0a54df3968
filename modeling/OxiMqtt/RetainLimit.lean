import OxiMqtt.RetainPurge

/-!
# The limit of a purge

`retain` looks at its limit where a node is entered, while the values are removed in the loop over
the branches of their parent, so that a loop that is running goes on.  `retain` is the purge for a
predicate that only looks at the value (`retainMut_eq`).

* `purgesBelow_retain`: every purge removes rejected values only, counts them and, if it stays below
  the limit, leaves none below the root.
* `retain_snd`: how many values a purge removes.
* `retain_purges_iff`: when a purge keeps its limit and leaves nothing behind.
-/

namespace OxiMqtt

namespace RetainNode

open Collections

variable {V : Type}

/-! ## Predicates without a state -/

/-- The value of a branch is taken if the predicate rejects it. -/
def examine (f : V → Bool) (childNode : RetainNode V) (removeds : Nat) : RetainNode V × Nat :=
  match childNode.value with
  | some v => if f v then (childNode, removeds) else (mk none childNode.branches, removeds + 1)
  | none => (childNode, removeds)

mutual

/-- `Node::_retain`, for a predicate that only looks at the value. -/
def retainNode (f : V → Bool) (maxLimit : Nat) : RetainNode V → Nat → RetainNode V × Nat
  | mk value branches, removeds =>
      if removeds ≥ maxLimit then (mk value branches, removeds)
      else
        let r := retainBranches f maxLimit branches removeds
        (mk value r.1, r.2)

/-- `self.branches.retain(..)`, for the same. -/
def retainBranches (f : V → Bool) (maxLimit : Nat) :
    List (Level × RetainNode V) → Nat → List (Level × RetainNode V) × Nat
  | [], removeds => ([], removeds)
  | (l, childNode) :: branches, removeds =>
      let entered := retainNode f maxLimit childNode removeds
      let r := examine f entered.1 entered.2
      let rest := retainBranches f maxLimit branches r.2
      (if r.1.isBare then rest.1 else (l, r.1) :: rest.1, rest.2)

end

/-- `Node::retain`, with the number of removed values. -/
def retain (n : RetainNode V) (maxLimit : Nat) (f : V → Bool) : RetainNode V × Nat :=
  retainNode f maxLimit n 0

/-! ## The values in the order of the walk -/

mutual

/-- What is stored below a node, in the order in which `retain` looks at it. -/
def walkedBelow : RetainNode V → List (List Level × V)
  | mk _ branches => walked branches

/-- What the branches hold: first what is below a branch, then its own value. -/
def walked : List (Level × RetainNode V) → List (List Level × V)
  | [] => []
  | (l, n) :: bs =>
      (walkedBelow n).map (fun e => (l :: e.1, e.2)) ++ (n.value.toList.map fun v => ([l], v)) ++
        walked bs

end

theorem walked_cons (l : Level) (own : Option V) (below bs : List (Level × RetainNode V)) :
    walked ((l, mk own below) :: bs) = (walked below).map (fun e => (l :: e.1, e.2)) ++
      (own.toList.map fun v => ([l], v)) ++ walked bs := by
  rw [walked, walkedBelow, value_mk]

theorem length_walked (bs : List (Level × RetainNode V)) :
    (walked bs).length = branchesSize bs := by
  induction bs using branches_induction with
  | nil => rfl
  | cons l value below bs ihBelow ih =>
      rw [walked_cons, branchesSize, valuesSize, ← ihBelow, ← ih]
      cases value with
      | none => simp
      | some v =>
          simp only [List.length_append, List.length_map, Option.toList_some, List.length_singleton,
            Option.isSome_some, if_true]

theorem ne_nil_of_mem_walked {bs : List (Level × RetainNode V)} {e : List Level × V}
    (h : e ∈ walked bs) : e.1 ≠ [] := by
  induction bs using branches_induction with
  | nil => simp [walked] at h
  | cons l value below bs ihBelow ih =>
      simp only [walked_cons, List.mem_append, List.mem_map] at h
      rcases h with (⟨e', -, rfl⟩ | ⟨v, -, rfl⟩) | h
      · exact List.cons_ne_nil _ _
      · exact List.cons_ne_nil _ _
      · exact ih h

theorem valueAt_mk_cons (value own : Option V) (l k : Level) (path : List Level)
    (below bs : List (Level × RetainNode V)) :
    valueAt (k :: path) (mk value ((l, mk own below) :: bs)) =
      if k = l then valueAt path (mk own below) else valueAt (k :: path) (mk value bs) := by
  rw [valueAt_cons, valueAt_cons, child, child, branches_mk, branches_mk, List.lookup_cons]
  by_cases same : k = l
  · rw [if_pos same, beq_iff_eq.mpr same]
    rfl
  · rw [if_neg same, beq_eq_false_iff_ne.mpr same]

theorem valueAt_of_fresh {value : Option V} {bs : List (Level × RetainNode V)} {l : Level}
    (fresh : l ∉ bs.map Prod.fst) (path : List Level) :
    valueAt (l :: path) (mk value bs) = none := by
  have absent : bs.lookup l = none := by
    rw [List.lookup_eq_none_iff]
    intro e he
    rw [bne_iff_ne]
    intro same
    exact fresh (same ▸ List.mem_map_of_mem he)
  rw [valueAt_cons, child, branches_mk, absent]
  rfl

/-- The walk comes by every value below the root. -/
theorem mem_walked {value : Option V} {bs : List (Level × RetainNode V)}
    (distinct : Distinct (mk value bs)) {path : List Level} {v : V} :
    (path, v) ∈ walked bs ↔ path ≠ [] ∧ valueAt path (mk value bs) = some v := by
  induction bs using branches_induction generalizing value path with
  | nil => cases path <;> simp [walked, valueAt, child]
  | cons l own below bs ihBelow ih =>
      obtain ⟨fresh, first, rest⟩ := distinct_cons.mp distinct
      cases path with
      | nil =>
          refine iff_of_false ?_ (fun h => h.1 rfl)
          intro h
          exact ne_nil_of_mem_walked h rfl
      | cons k path =>
          have here : (path, v) ∈ walked below ∨ path = [] ∧ own = some v ↔
              valueAt path (mk own below) = some v := by
            rw [ihBelow first]
            cases path <;> simp [valueAt]
          rw [walked_cons, valueAt_mk_cons, List.mem_append, List.mem_append, ih rest]
          by_cases same : k = l
          · subst same
            rw [if_pos rfl, valueAt_of_fresh fresh, ← here]
            simp [@eq_comm _ [] path, and_comm]
          · rw [if_neg same]
            simp [Ne.symm same]

theorem mem_walked_branches {n : RetainNode V} (distinct : Distinct n) {path : List Level} {v : V} :
    (path, v) ∈ walked n.branches ↔ path ≠ [] ∧ valueAt path n = some v := by
  obtain ⟨value, bs⟩ := n
  exact mem_walked distinct

theorem nodup_walked {value : Option V} {bs : List (Level × RetainNode V)}
    (distinct : Distinct (mk value bs)) : ((walked bs).map Prod.fst).Nodup := by
  induction bs using branches_induction generalizing value with
  | nil => exact List.nodup_nil
  | cons l own below bs ihBelow ih =>
      obtain ⟨fresh, first, rest⟩ := distinct_cons.mp distinct
      have others : ∀ e ∈ walked bs, e.1.head? ≠ some l := by
        intro e he head
        obtain ⟨path, hpath⟩ := List.head?_eq_some_iff.mp head
        have stored := ((mem_walked rest).mp he).2
        rw [hpath, valueAt_of_fresh fresh] at stored
        cases stored
      have below_nodup : ((walked below).map fun e => l :: e.1).Nodup := by
        have keys := (ihBelow first).map (f := List.cons l) fun _ _ h => (List.cons.inj h).2
        rwa [List.map_map] at keys
      have own_nodup : (own.toList.map fun _ => [l]).Nodup := by
        cases own <;> simp
      have apart : ∀ p ∈ (walked below).map fun e => l :: e.1,
          ∀ p' ∈ own.toList.map fun _ => [l], p ≠ p' := by
        intro p hp p' hp' same
        obtain ⟨e, he, rfl⟩ := List.mem_map.mp hp
        obtain ⟨v, -, rfl⟩ := List.mem_map.mp hp'
        exact ne_nil_of_mem_walked he (List.cons.inj same).2
      rw [walked_cons, List.map_append, List.map_append, List.map_map, List.map_map]
      refine List.nodup_append.mpr ⟨List.nodup_append.mpr ⟨below_nodup, own_nodup, apart⟩,
        ih rest, ?_⟩
      intro p hp p' hp' same
      obtain ⟨e, he, rfl⟩ := List.mem_map.mp hp'
      refine others e he ?_
      rw [← same]
      rcases List.mem_append.mp hp with hp | hp
      · obtain ⟨e', -, rfl⟩ := List.mem_map.mp hp
        rfl
      · obtain ⟨v, -, rfl⟩ := List.mem_map.mp hp
        rfl

theorem nodup_walked_branches {n : RetainNode V} (distinct : Distinct n) :
    ((walked n.branches).map Prod.fst).Nodup := by
  obtain ⟨value, bs⟩ := n
  exact nodup_walked distinct

/-! ## One branch of the loop -/

/-- What the loop does below a branch. -/
def retainBelow (f : V → Bool) (maxLimit : Nat) (below : List (Level × RetainNode V))
    (removeds : Nat) : List (Level × RetainNode V) × Nat :=
  if removeds ≥ maxLimit then (below, removeds) else retainBranches f maxLimit below removeds

/-- The value is there and rejected: one removal. -/
def rejection (f : V → Bool) (own : Option V) : Nat := (own.filter fun v => !f v).toList.length

theorem rejection_le (f : V → Bool) (own : Option V) : rejection f own ≤ 1 :=
  Option.length_toList_le

theorem examine_mk (f : V → Bool) (own : Option V) (below : List (Level × RetainNode V))
    (removeds : Nat) :
    examine f (mk own below) removeds = (mk (own.filter f) below, removeds + rejection f own) := by
  cases own with
  | none => rfl
  | some v =>
      rw [examine, value_mk, rejection]
      cases h : f v <;> simp [Option.filter, h]

variable {f : V → Bool} {maxLimit : Nat}

theorem retainBranches_cons (l : Level) (own : Option V) (below bs : List (Level × RetainNode V))
    (removeds : Nat) :
    retainBranches f maxLimit ((l, mk own below) :: bs) removeds =
      let lower := retainBelow f maxLimit below removeds
      let rest := retainBranches f maxLimit bs (lower.2 + rejection f own)
      (if isBare (mk (own.filter f) lower.1) then rest.1
        else (l, mk (own.filter f) lower.1) :: rest.1, rest.2) := by
  have entered : retainNode f maxLimit (mk own below) removeds =
      (mk own (retainBelow f maxLimit below removeds).1,
        (retainBelow f maxLimit below removeds).2) := by
    rw [retainNode, retainBelow]
    split <;> rfl
  rw [retainBranches, entered, examine_mk]

/-- Dropping a bare branch drops no value. -/
theorem walked_retainBranches_cons (l : Level) (own : Option V)
    (below bs : List (Level × RetainNode V)) (removeds : Nat) :
    walked (retainBranches f maxLimit ((l, mk own below) :: bs) removeds).1 =
      (walked (retainBelow f maxLimit below removeds).1).map (fun e => (l :: e.1, e.2)) ++
        ((own.filter f).toList.map fun v => ([l], v)) ++
        walked (retainBranches f maxLimit bs
          ((retainBelow f maxLimit below removeds).2 + rejection f own)).1 := by
  rw [retainBranches_cons]
  dsimp only
  split
  · rename_i bare
    rw [isBare, Bool.and_eq_true, Option.isNone_iff_eq_none, List.isEmpty_iff] at bare
    obtain ⟨nothing, leaf⟩ := bare
    rw [value_mk] at nothing
    rw [branches_mk] at leaf
    rw [nothing, leaf]
    rfl
  · rw [walked_cons]

theorem retainBranches_snd_cons (l : Level) (own : Option V)
    (below bs : List (Level × RetainNode V)) (removeds : Nat) :
    (retainBranches f maxLimit ((l, mk own below) :: bs) removeds).2 =
      (retainBranches f maxLimit bs
        ((retainBelow f maxLimit below removeds).2 + rejection f own)).2 := by
  rw [retainBranches_cons]

/-! ## What a walk removes -/

/-- From the first list of values to the second, `removed` values have gone, all of them
rejected. -/
structure Purged (f : V → Bool) (before after : List (List Level × V)) (removed : Nat) : Prop where
  sublist : after.Sublist before
  kept : (after.filter fun e => f e.2) = before.filter fun e => f e.2
  count : after.length + removed = before.length

theorem Purged.refl (es : List (List Level × V)) : Purged f es es 0 := ⟨.refl _, rfl, rfl⟩

theorem Purged.append {as as' bs bs' : List (List Level × V)} {i j : Nat} (h : Purged f as as' i)
    (h' : Purged f bs bs' j) : Purged f (as ++ bs) (as' ++ bs') (i + j) where
  sublist := h.sublist.append h'.sublist
  kept := by rw [List.filter_append, List.filter_append, h.kept, h'.kept]
  count := by
    have := h.count
    have := h'.count
    simp only [List.length_append]
    omega

theorem Purged.under {es es' : List (List Level × V)} {i : Nat} (h : Purged f es es' i)
    (l : Level) :
    Purged f (es.map fun e => (l :: e.1, e.2)) (es'.map fun e => (l :: e.1, e.2)) i where
  sublist := h.sublist.map _
  kept := by
    rw [List.filter_map, List.filter_map]
    exact congrArg _ h.kept
  count := by
    rw [List.length_map, List.length_map]
    exact h.count

theorem purged_own (l : Level) (own : Option V) :
    Purged f (own.toList.map fun v => ([l], v)) ((own.filter f).toList.map fun v => ([l], v))
      (rejection f own) := by
  cases own with
  | none => exact .refl _
  | some v =>
      cases h : f v with
      | true =>
          rw [rejection]
          simp only [Option.filter, h, if_true, Bool.not_true, Bool.false_eq_true, if_false]
          exact .refl _
      | false =>
          refine ⟨?_, ?_, ?_⟩ <;> simp [Option.filter, h, rejection]

theorem purged_retainBranches (bs : List (Level × RetainNode V)) (removeds : Nat) :
    ∃ removed, (retainBranches f maxLimit bs removeds).2 = removeds + removed ∧
      Purged f (walked bs) (walked (retainBranches f maxLimit bs removeds).1) removed := by
  induction bs using branches_induction generalizing removeds with
  | nil => exact ⟨0, rfl, .refl _⟩
  | cons l own below bs ihBelow ih =>
      have lower : ∃ removed, (retainBelow f maxLimit below removeds).2 = removeds + removed ∧
          Purged f (walked below) (walked (retainBelow f maxLimit below removeds).1) removed := by
        unfold retainBelow
        split
        · exact ⟨0, rfl, .refl _⟩
        · exact ihBelow removeds
      obtain ⟨i, hi, purged⟩ := lower
      obtain ⟨j, hj, rest⟩ := ih ((retainBelow f maxLimit below removeds).2 + rejection f own)
      refine ⟨i + rejection f own + j, ?_, ?_⟩
      · rw [retainBranches_snd_cons, hj, hi]
        omega
      · rw [walked_cons, walked_retainBranches_cons]
        exact ((purged.under l).append (purged_own l own)).append rest

theorem le_retainBranches (f : V → Bool) (maxLimit : Nat) (bs : List (Level × RetainNode V))
    (removeds : Nat) : removeds ≤ (retainBranches f maxLimit bs removeds).2 := by
  obtain ⟨removed, grown, -⟩ := purged_retainBranches bs removeds
  rw [grown]
  exact Nat.le_add_right _ _

/-- The limit is not reached only if every branch has been walked. -/
theorem kept_of_lt (bs : List (Level × RetainNode V)) (removeds : Nat)
    (h : (retainBranches f maxLimit bs removeds).2 < maxLimit) :
    ∀ e ∈ walked (retainBranches f maxLimit bs removeds).1, f e.2 = true := by
  induction bs using branches_induction generalizing removeds with
  | nil =>
      intro e he
      cases he
  | cons l own below bs ihBelow ih =>
      rw [retainBranches_snd_cons] at h
      have grown := le_retainBranches f maxLimit bs
        ((retainBelow f maxLimit below removeds).2 + rejection f own)
      have entered : (retainBelow f maxLimit below removeds).2 < maxLimit := by omega
      have lower : retainBelow f maxLimit below removeds =
          retainBranches f maxLimit below removeds := by
        rw [retainBelow, if_neg]
        intro full
        rw [retainBelow, if_pos full] at entered
        exact absurd entered (by omega)
      rw [walked_retainBranches_cons]
      intro e he
      rcases List.mem_append.mp he with he | he
      · rcases List.mem_append.mp he with he | he
        · obtain ⟨e', he', rfl⟩ := List.mem_map.mp he
          rw [lower] at he' entered
          exact ihBelow removeds entered e' he'
        · obtain ⟨v, hv, rfl⟩ := List.mem_map.mp he
          exact (Option.filter_eq_some_iff.mp (Option.mem_toList.mp hv)).2
      · exact ih _ h e he

/-! ## How far a walk goes past the limit -/

/-- The paths of the rejected values, in the order of the walk. -/
def rejects (f : V → Bool) (bs : List (Level × RetainNode V)) : List (List Level) :=
  ((walked bs).filter fun e => !f e.2).map Prod.fst

/-- The paths whose parent is on the way to `q`: the loop over its branches runs while the walk is
at `q`. -/
def late (q : List Level) (paths : List (List Level)) : List (List Level) :=
  paths.filter fun p => p.dropLast.isPrefixOf q

/-- The values that are removed after the one at the given place of the list. -/
def overrun (i : Nat) (paths : List (List Level)) : List (List Level) :=
  match paths.drop i with
  | [] => []
  | q :: later => late q later

theorem rejects_cons (l : Level) (own : Option V) (below bs : List (Level × RetainNode V)) :
    rejects f ((l, mk own below) :: bs) = (rejects f below).map (List.cons l) ++
      (own.filter fun v => !f v).toList.map (fun _ => [l]) ++ rejects f bs := by
  have lower : (((walked below).map fun e => (l :: e.1, e.2)).filter fun e => !f e.2).map Prod.fst =
      (rejects f below).map (List.cons l) := by
    rw [List.filter_map, List.map_map, rejects, List.map_map]
    rfl
  have here : ((own.toList.map fun v => ([l], v)).filter fun e => !f e.2).map Prod.fst =
      (own.filter fun v => !f v).toList.map fun _ => [l] := by
    cases own with
    | none => rfl
    | some v => cases h : f v <;> simp [Option.filter, h]
  rw [rejects, walked_cons, List.filter_append, List.filter_append, List.map_append,
    List.map_append, lower, here]
  rfl

theorem ne_nil_of_mem_rejects {bs : List (Level × RetainNode V)} {p : List Level}
    (h : p ∈ rejects f bs) : p ≠ [] := by
  obtain ⟨e, he, rfl⟩ := List.mem_map.mp h
  exact ne_nil_of_mem_walked (List.mem_of_mem_filter he)

theorem head_of_mem_rejects {bs : List (Level × RetainNode V)} {l : Level} {p : List Level}
    (h : l :: p ∈ rejects f bs) : l ∈ bs.map Prod.fst := by
  induction bs using branches_induction with
  | nil => cases h
  | cons k own below bs _ ih =>
      rw [rejects_cons, List.mem_append, List.mem_append] at h
      rcases h with (h | h) | h
      · obtain ⟨q, -, same⟩ := List.mem_map.mp h
        cases same
        exact List.mem_cons_self
      · obtain ⟨v, -, same⟩ := List.mem_map.mp h
        cases same
        exact List.mem_cons_self
      · exact List.mem_cons_of_mem _ (ih h)

theorem late_append (q : List Level) (ps ps' : List (List Level)) :
    late q (ps ++ ps') = late q ps ++ late q ps' := List.filter_append _ _

/-- The own value of a branch is looked at in a loop that runs. -/
theorem late_own (q : List Level) (l : Level) (own : Option V) :
    late q (own.toList.map fun _ => [l]) = own.toList.map fun _ => [l] := by
  rw [late, List.filter_eq_self]
  intro p hp
  obtain ⟨v, -, rfl⟩ := List.mem_map.mp hp
  rfl

/-- Below one branch. -/
theorem late_map_cons (l : Level) (q : List Level) {ps : List (List Level)}
    (nonempty : ∀ p ∈ ps, p ≠ []) :
    late (l :: q) (ps.map (List.cons l)) = (late q ps).map (List.cons l) := by
  rw [late, List.filter_map, late]
  congr 1
  refine List.filter_congr ?_
  intro p hp
  have step : (l :: p).dropLast = l :: p.dropLast := List.dropLast_cons_of_ne_nil (nonempty p hp)
  simp only [Function.comp_apply, step, List.isPrefixOf, beq_self_eq_true, Bool.true_and]

/-- In the branches that are still to come, the values of the branches themselves are late. -/
theorem late_of_fresh {bs : List (Level × RetainNode V)} {l : Level} (fresh : l ∉ bs.map Prod.fst)
    (q : List Level) : late (l :: q) (rejects f bs) = late [] (rejects f bs) := by
  refine List.filter_congr ?_
  intro p hp
  cases p with
  | nil => exact absurd rfl (ne_nil_of_mem_rejects hp)
  | cons k p =>
      have other : k ≠ l := fun same => fresh (same ▸ head_of_mem_rejects hp)
      cases p with
      | nil => rfl
      | cons k' p =>
          rw [List.dropLast_cons_of_ne_nil (List.cons_ne_nil k' p)]
          simp [List.isPrefixOf, other]

theorem overrun_of_drop {i : Nat} {ps later : List (List Level)} {q : List Level}
    (h : ps.drop i = q :: later) : overrun i ps = late q later := by
  rw [overrun, h]

theorem drop_append_of_drop {i : Nat} {ps later : List (List Level)} {q : List Level}
    (h : ps.drop i = q :: later) (ps' : List (List Level)) :
    (ps ++ ps').drop i = q :: (later ++ ps') := by
  have short : i < ps.length := by
    by_contra long
    rw [List.drop_eq_nil_of_le (by omega)] at h
    cases h
  rw [List.drop_append_of_le_length (by omega), h]
  rfl

theorem overrun_of_le {i : Nat} {ps : List (List Level)} (h : ps.length ≤ i) :
    overrun i ps = [] := by
  rw [overrun, List.drop_eq_nil_of_le h]

theorem overrun_append_of_ge {i : Nat} {ps ps' : List (List Level)} (h : ps.length ≤ i) :
    overrun i (ps ++ ps') = overrun (i - ps.length) ps' := by
  rw [overrun, List.drop_append, List.drop_eq_nil_of_le h, List.nil_append, overrun]

theorem rejection_eq (own : Option V) (l : Level) :
    ((own.filter fun v => !f v).toList.map fun _ => [l]).length = rejection f own :=
  List.length_map _

/-- Where the limit is reached, a loop that runs looks at the values of its branches only. -/
theorem retainBranches_of_full {removeds : Nat} (full : maxLimit ≤ removeds)
    (bs : List (Level × RetainNode V)) : (retainBranches f maxLimit bs removeds).2 =
      removeds + (late [] (rejects f bs)).length := by
  induction bs using branches_induction generalizing removeds with
  | nil => rfl
  | cons l own below bs _ ih =>
      have lower : late [] ((rejects f below).map (List.cons l)) = [] := by
        rw [late, List.filter_map, List.map_eq_nil_iff, List.filter_eq_nil_iff]
        intro p hp
        rw [Function.comp_apply, List.dropLast_cons_of_ne_nil (ne_nil_of_mem_rejects hp)]
        simp [List.isPrefixOf]
      rw [retainBranches_snd_cons, retainBelow, if_pos full, ih (Nat.le_add_right_of_le full),
        rejects_cons, late_append, late_append, lower, late_own, List.nil_append,
        List.length_append, rejection_eq]
      omega

/-- Where the walk stops below a branch, the loops that run below it go on, and so does the loop over
the branch and those that come after it. -/
theorem overrun_below {l : Level} {bs : List (Level × RetainNode V)} (fresh : l ∉ bs.map Prod.fst)
    (own : Option V) {below : List (Level × RetainNode V)} {i : Nat}
    (inside : i < (rejects f below).length) :
    (overrun i ((rejects f below).map (List.cons l) ++
        ((own.filter fun v => !f v).toList.map (fun _ => [l]) ++ rejects f bs))).length =
      (overrun i (rejects f below)).length + rejection f own + (late [] (rejects f bs)).length := by
  cases drop : (rejects f below).drop i with
  | nil =>
      rw [List.drop_eq_nil_iff] at drop
      omega
  | cons q later =>
      have lifted : ((rejects f below).map (List.cons l)).drop i =
          (l :: q) :: later.map (List.cons l) := by
        rw [← List.map_drop, drop, List.map_cons]
      have nonempty : ∀ p ∈ later, p ≠ [] := fun p hp =>
        ne_nil_of_mem_rejects (List.mem_of_mem_drop (drop ▸ List.mem_cons_of_mem q hp))
      rw [overrun_of_drop drop, overrun_of_drop (drop_append_of_drop lifted _), late_append,
        late_append, late_own, late_map_cons l q nonempty, late_of_fresh fresh, List.length_append,
        List.length_append, List.length_map, rejection_eq]
      omega

/-- Where the walk stops at the value of a branch, the loop over the branches that come after it
goes on. -/
theorem overrun_own {l : Level} {bs : List (Level × RetainNode V)} (fresh : l ∉ bs.map Prod.fst)
    {own : Option V} (taken : rejection f own = 1) :
    overrun 0 ((own.filter fun v => !f v).toList.map (fun _ => [l]) ++ rejects f bs) =
      late [] (rejects f bs) := by
  cases value : own.filter fun v => !f v with
  | none =>
      rw [rejection, value] at taken
      cases taken
  | some v =>
      rw [Option.toList_some, List.map_singleton, List.singleton_append,
        overrun_of_drop List.drop_zero, late_of_fresh fresh]

/-- The number of removed values: the rejected ones up to the limit, and those of the loops that run
when it is reached. -/
theorem retainBranches_of_lt {value : Option V} {bs : List (Level × RetainNode V)}
    (distinct : Distinct (mk value bs)) {removeds : Nat} (h : removeds < maxLimit) :
    (retainBranches f maxLimit bs removeds).2 =
      min (removeds + (rejects f bs).length) maxLimit +
        (overrun (maxLimit - removeds - 1) (rejects f bs)).length := by
  induction bs using branches_induction generalizing value removeds with
  | nil =>
      rw [show rejects f [] = [] from rfl, overrun_of_le (Nat.zero_le _)]
      change removeds = min (removeds + 0) maxLimit + 0
      omega
  | cons l own below bs ihBelow ih =>
      obtain ⟨fresh, first, rest⟩ := distinct_cons.mp distinct
      have lower := ihBelow first h
      have entered : retainBelow f maxLimit below removeds =
          retainBranches f maxLimit below removeds := by
        rw [retainBelow, if_neg (by omega)]
      have length : (rejects f ((l, mk own below) :: bs)).length =
          (rejects f below).length + rejection f own + (rejects f bs).length := by
        rw [rejects_cons, List.length_append, List.length_append, List.length_map, rejection_eq]
      rw [retainBranches_snd_cons, entered, length, rejects_cons, List.append_assoc]
      by_cases inside : maxLimit ≤ removeds + (rejects f below).length
      · -- the limit is reached below this branch
        have reached : maxLimit ≤ (retainBranches f maxLimit below removeds).2 := by omega
        rw [retainBranches_of_full (by omega), overrun_below fresh own (by omega), lower]
        omega
      · -- the walk below this branch comes to its end
        rw [overrun_of_le (by omega), List.length_nil] at lower
        have place : ((rejects f below).map (List.cons l)).length ≤ maxLimit - removeds - 1 := by
          rw [List.length_map]
          omega
        rw [overrun_append_of_ge place, List.length_map]
        by_cases here : maxLimit ≤ removeds + (rejects f below).length + rejection f own
        · -- its own value is the last that the limit allows
          have taken : rejection f own = 1 := by
            have atMost := rejection_le f own
            omega
          have reached : maxLimit - removeds - 1 - (rejects f below).length = 0 := by omega
          rw [retainBranches_of_full (by omega), reached, overrun_own fresh taken, lower, taken]
          omega
        · have behind : ((own.filter fun v => !f v).toList.map fun _ => [l]).length ≤
              maxLimit - removeds - 1 - (rejects f below).length := by
            rw [rejection_eq]
            omega
          rw [overrun_append_of_ge behind, rejection_eq, ih rest (by omega)]
          have same :
              maxLimit - ((retainBranches f maxLimit below removeds).2 + rejection f own) - 1 =
                maxLimit - removeds - 1 - (rejects f below).length - rejection f own := by
            omega
          rw [same, lower]
          omega

/-! ## The purge of a tree -/

/-- What a purge with a limit is to do: remove at most as many values as the limit allows, only
rejected ones, count them, leave the others where they are, and stop early only where nothing
rejected is left. -/
structure Purges (n : RetainNode V) (maxLimit : Nat) (f : V → Bool) (r : RetainNode V × Nat) :
    Prop where
  limit : r.2 ≤ maxLimit
  rejected : ∀ path v, valueAt path n = some v → valueAt path r.1 = none → f v = false
  count : r.1.valuesSize + r.2 = n.valuesSize
  others : ∀ path, valueAt path r.1 ≠ none → valueAt path r.1 = valueAt path n
  complete : r.2 < maxLimit → ∀ path v, valueAt path r.1 = some v → f v = true

/-- No value stands where a running loop comes to it behind the value that exhausts the limit. -/
def NothingLate (n : RetainNode V) (maxLimit : Nat) (f : V → Bool) : Prop :=
  maxLimit = 0 ∨ overrun (maxLimit - 1) (rejects f n.branches) = []

/-- The value of the root, which no loop looks at, is to stay, or the limit is exhausted by
others. -/
def RootSpared (n : RetainNode V) (maxLimit : Nat) (f : V → Bool) : Prop :=
  (∀ v, n.value = some v → f v = true) ∨ maxLimit ≤ (rejects f n.branches).length

theorem retain_mk (value : Option V) (bs : List (Level × RetainNode V)) :
    retain (mk value bs) maxLimit f =
      (mk value (retainBelow f maxLimit bs 0).1, (retainBelow f maxLimit bs 0).2) := by
  rw [retain, retainNode, retainBelow]
  split <;> rfl

theorem purged_retainBelow (f : V → Bool) (maxLimit : Nat) (bs : List (Level × RetainNode V))
    (removeds : Nat) :
    ∃ removed, (retainBelow f maxLimit bs removeds).2 = removeds + removed ∧
      Purged f (walked bs) (walked (retainBelow f maxLimit bs removeds).1) removed := by
  unfold retainBelow
  split
  · exact ⟨0, rfl, .refl _⟩
  · exact purged_retainBranches bs removeds

theorem purged_retain (n : RetainNode V) (maxLimit : Nat) (f : V → Bool) :
    Purged f (walked n.branches) (walked (n.retain maxLimit f).1.branches)
      (n.retain maxLimit f).2 := by
  obtain ⟨value, bs⟩ := n
  obtain ⟨removed, grown, purged⟩ := purged_retainBelow f maxLimit bs 0
  rw [Nat.zero_add] at grown
  rw [retain_mk, grown]
  exact purged

/-- A predicate that leaves its state alone is one without a state. -/
theorem retainBranchesMut_eq {S : Type} (bs : List (Level × RetainNode V)) (removeds : Nat)
    (s : S) :
    retainBranchesMut (fun s v => (f v, s)) maxLimit bs removeds s =
      ((retainBranches f maxLimit bs removeds).1,
        (retainBranches f maxLimit bs removeds).2, s) := by
  induction bs using branches_induction generalizing removeds with
  | nil => rfl
  | cons l own below bs ihBelow ih =>
      have lower : retainBelowMut (fun s v => (f v, s)) maxLimit below removeds s =
          ((retainBelow f maxLimit below removeds).1,
            (retainBelow f maxLimit below removeds).2, s) := by
        rw [retainBelowMut, retainBelow]
        split
        · rfl
        · exact ihBelow removeds
      have looked : ∀ n c, examineMut (fun s v => (f v, s)) n c s =
          ((examine f n c).1, (examine f n c).2, s) := by
        intro n c
        rw [examineMut, examine]
        cases n.value with
        | none => rfl
        | some v =>
            dsimp only
            cases f v <;> rfl
      rw [retainBranchesMut, retainNodeMut_mk, lower, looked, ih, retainBranches_cons, examine_mk]

/-- A purge is the same for both kinds of predicates. -/
theorem retainMut_eq {S : Type} (n : RetainNode V) (maxLimit : Nat) (f : V → Bool) (s : S) :
    n.retainMut maxLimit (fun s v => (f v, s)) s =
      ((n.retain maxLimit f).1, (n.retain maxLimit f).2, s) := by
  obtain ⟨value, bs⟩ := n
  rw [retainMut, retainNodeMut_mk, retainBelowMut, retain_mk, retainBelow]
  split
  · rfl
  · rw [retainBranchesMut_eq]

theorem distinct_retain {n : RetainNode V} (distinct : Distinct n) (maxLimit : Nat)
    (f : V → Bool) : Distinct (n.retain maxLimit f).1 := by
  have kept := distinct_retainMut distinct maxLimit (fun (s : Unit) v => (f v, s)) ()
  rwa [retainMut_eq] at kept

theorem tidy_retain {n : RetainNode V} (tidy : Trie.Tidy n) (maxLimit : Nat) (f : V → Bool) :
    Trie.Tidy (n.retain maxLimit f).1 := by
  have kept := tidy_retainMut tidy maxLimit (fun (s : Unit) v => (f v, s)) ()
  rwa [retainMut_eq] at kept

/-- What holds of every purge: the law, but for the limit and for the value of the root, which
stays. -/
structure PurgesBelow (n : RetainNode V) (maxLimit : Nat) (f : V → Bool) (r : RetainNode V × Nat) :
    Prop where
  rejected : ∀ path v, valueAt path n = some v → valueAt path r.1 = none → f v = false
  count : r.1.valuesSize + r.2 = n.valuesSize
  others : ∀ path, valueAt path r.1 ≠ none → valueAt path r.1 = valueAt path n
  complete : r.2 < maxLimit → ∀ path v, path ≠ [] → valueAt path r.1 = some v → f v = true
  root : r.1.value = n.value

theorem purgesBelow_retain {n : RetainNode V} (distinct : Distinct n) (maxLimit : Nat)
    (f : V → Bool) : PurgesBelow n maxLimit f (n.retain maxLimit f) := by
  obtain ⟨value, bs⟩ := n
  rw [retain_mk]
  obtain ⟨removed, grown, purged⟩ := purged_retainBelow f maxLimit bs 0
  have before : ∀ {path v}, path ≠ [] →
      (valueAt path (mk value bs) = some v ↔ (path, v) ∈ walked bs) := fun below =>
    ⟨fun h => (mem_walked distinct).mpr ⟨below, h⟩, fun h => ((mem_walked distinct).mp h).2⟩
  have left : Distinct (mk value (retainBelow f maxLimit bs 0).1) := by
    have kept := distinct_retain distinct maxLimit f
    rwa [retain_mk] at kept
  have after : ∀ {path v}, path ≠ [] →
      (valueAt path (mk value (retainBelow f maxLimit bs 0).1) = some v ↔
        (path, v) ∈ walked (retainBelow f maxLimit bs 0).1) := fun below =>
    ⟨fun h => (mem_walked left).mpr ⟨below, h⟩,
      fun h => ((mem_walked left).mp h).2⟩
  refine ⟨?_, ?_, ?_, ?_, rfl⟩
  · intro path v stored gone
    cases path with
    | nil =>
        have kept : value = none := gone
        rw [show value = some v from stored] at kept
        cases kept
    | cons l path =>
        by_contra accepted
        have kept : (l :: path, v) ∈ (walked bs).filter fun e => f e.2 := by
          rw [List.mem_filter]
          exact ⟨(before (List.cons_ne_nil l path)).mp stored, by simpa using accepted⟩
        rw [← purged.kept] at kept
        rw [(after (List.cons_ne_nil l path)).mpr (List.mem_of_mem_filter kept)] at gone
        cases gone
  · have count := purged.count
    rw [length_walked, length_walked] at count
    rw [grown, valuesSize, valuesSize]
    split <;> omega
  · intro path stored
    cases path with
    | nil => rfl
    | cons l path =>
        obtain ⟨v, held⟩ := Option.ne_none_iff_exists'.mp stored
        rw [held]
        have walk := (after (List.cons_ne_nil l path)).mp held
        exact ((before (List.cons_ne_nil l path)).mpr (purged.sublist.subset walk)).symm
  · intro short path v below stored
    have entered : retainBelow f maxLimit bs 0 = retainBranches f maxLimit bs 0 := by
      rw [retainBelow, if_neg]
      intro full
      dsimp only at short
      omega
    have walk := (after below).mp stored
    rw [entered] at walk
    rw [entered] at short
    exact kept_of_lt bs 0 short _ walk

/-- How many values a purge removes. -/
theorem retain_snd {n : RetainNode V} (distinct : Distinct n) {maxLimit : Nat}
    (some : 0 < maxLimit) (f : V → Bool) :
    (n.retain maxLimit f).2 = min (rejects f n.branches).length maxLimit +
      (overrun (maxLimit - 1) (rejects f n.branches)).length := by
  obtain ⟨value, bs⟩ := n
  have entered : retainBelow f maxLimit bs 0 = retainBranches f maxLimit bs 0 := by
    rw [retainBelow, if_neg (by omega)]
  rw [retain_mk, entered, retainBranches_of_lt distinct some, Nat.zero_add]
  rfl

theorem overrun_of_le_succ {i : Nat} {ps : List (List Level)} (h : ps.length ≤ i + 1) :
    overrun i ps = [] := by
  cases rest : ps.drop i with
  | nil => rw [overrun, rest]
  | cons q later =>
      have length := congrArg List.length rest
      rw [List.length_drop, List.length_cons] at length
      obtain rfl := List.eq_nil_of_length_eq_zero (show later.length = 0 by omega)
      exact overrun_of_drop rest

/-- A purge whose limit is not exceeded by the rejected values removes them all. -/
theorem retain_all {n : RetainNode V} (distinct : Distinct n) {maxLimit : Nat} {f : V → Bool}
    (enough : (rejects f n.branches).length ≤ maxLimit) :
    (n.retain maxLimit f).2 = (rejects f n.branches).length ∧
      ∀ path, path ≠ [] → valueAt path (n.retain maxLimit f).1 = (valueAt path n).filter f := by
  have count : (n.retain maxLimit f).2 = (rejects f n.branches).length := by
    rcases Nat.eq_zero_or_pos maxLimit with none | some
    · subst none
      obtain ⟨value, bs⟩ := n
      exact (Nat.le_zero.mp enough).symm
    · rw [retain_snd distinct some, overrun_of_le_succ (by omega), List.length_nil]
      omega
  refine ⟨count, ?_⟩
  have law := purgesBelow_retain distinct maxLimit f
  have purged := purged_retain n maxLimit f
  have accepted : ∀ e ∈ walked (n.retain maxLimit f).1.branches, f e.2 = true := by
    rw [← List.length_filter_eq_length_iff, purged.kept]
    have parts := List.length_eq_length_filter_add (l := walked n.branches) fun e => f e.2
    have total := purged.count
    rw [count, rejects, List.length_map] at total
    omega
  intro path below
  cases stored : valueAt path n with
  | none =>
      by_contra held
      rw [law.others path held, stored] at held
      exact held rfl
  | some v =>
      cases keep : f v with
      | true =>
          have held : valueAt path (n.retain maxLimit f).1 ≠ none := by
            intro gone
            rw [law.rejected path v stored gone] at keep
            cases keep
          rw [law.others path held, stored, Option.filter, if_pos keep]
      | false =>
          rw [Option.filter, if_neg (by simp [keep])]
          by_contra held
          have same := (law.others path held).trans stored
          have walk := (mem_walked_branches (distinct_retain distinct maxLimit f)).mpr ⟨below, same⟩
          rw [accepted _ walk] at keep
          cases keep

/-- A purge keeps its limit, and the rest of its law, exactly if nothing rejected comes late in a
loop that runs when the limit is exhausted, and no rejected value of the root is left behind. -/
theorem retain_purges_iff {n : RetainNode V} (distinct : Distinct n) (maxLimit : Nat)
    (f : V → Bool) :
    Purges n maxLimit f (n.retain maxLimit f) ↔
      NothingLate n maxLimit f ∧ RootSpared n maxLimit f := by
  have law := purgesBelow_retain distinct maxLimit f
  rcases Nat.eq_zero_or_pos maxLimit with none | some
  · -- nothing is looked at
    subst none
    have idle : (n.retain 0 f).2 = 0 := by
      obtain ⟨value, bs⟩ := n
      rfl
    refine iff_of_true ⟨le_of_eq idle, law.rejected, law.count, law.others, ?_⟩
      ⟨.inl rfl, .inr (Nat.zero_le _)⟩
    intro short
    exact absurd short (Nat.not_lt_zero _)
  · have count := retain_snd distinct some f
    have limit : (n.retain maxLimit f).2 ≤ maxLimit ↔ NothingLate n maxLimit f := by
      rw [count, NothingLate, or_iff_right (by omega), ← List.length_eq_zero_iff]
      constructor
      · intro within
        by_cases long : maxLimit ≤ (rejects f n.branches).length
        · omega
        · rw [overrun_of_le (by omega)]
          rfl
      · intro nothing
        omega
    constructor
    · intro purges
      refine ⟨limit.mp purges.limit, ?_⟩
      by_cases exhausted : maxLimit ≤ (rejects f n.branches).length
      · exact .inr exhausted
      · left
        intro v stored
        refine purges.complete ?_ [] v (law.root.trans stored)
        rw [count, overrun_of_le (by omega), List.length_nil]
        omega
    · intro spared
      refine ⟨limit.mpr spared.1, law.rejected, law.count, law.others, ?_⟩
      intro short path v stored
      cases path with
      | nil =>
          rcases spared.2 with accepted | exhausted
          · exact accepted v (law.root.symm.trans stored)
          · omega
      | cons l path => exact law.complete short _ v (List.cons_ne_nil l path) stored

theorem distinct_leaf (value : Option V) : Distinct (mk value []) := .mk List.nodup_nil (by simp)

/-- The topics `a` and `b`, of which one is to go, and a limit of one. -/
theorem retain_purges_one :
    Purges (mk none [(.normal "a", mk (some 4) []), (.normal "b", mk (some 5) [])]) 1
      (fun v => v = 4)
      (retain (mk none [(.normal "a", mk (some 4) []), (.normal "b", mk (some 5) [])]) 1
        fun v => v = 4) := by
  have distinct : Distinct (mk none
      [(.normal "a", mk (some 4) []), (.normal "b", mk (some 5) [])]) :=
    distinct_cons.mpr ⟨by decide, distinct_leaf _,
      distinct_cons.mpr ⟨by decide, distinct_leaf _, distinct_leaf _⟩⟩
  exact (retain_purges_iff distinct 1 _).mpr ⟨.inr rfl, .inl (by simp)⟩

/-- With a limit of one, both topics go. -/
theorem retain_passes_limit :
    ¬Purges (mk none [(.normal "a", mk (some 4) []), (.normal "b", mk (some 5) [])]) 1
      (fun _ => false)
      (retain (mk none [(.normal "a", mk (some 4) []), (.normal "b", mk (some 5) [])]) 1
        fun _ => false) := by
  intro purges
  have within : 2 ≤ 1 := purges.limit
  omega

end RetainNode

end OxiMqtt

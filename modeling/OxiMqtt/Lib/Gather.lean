import Mathlib.Algebra.Ring.Nat
import OxiMqtt.Lib.Collections

/-!
# Gathering a list into a map

A loop that files every element of a list under a key of its own, by
`entry(key)` on a map, does for each key what folding the elements with that key
does: `Assoc.lookup_gather`.  The maps such loops build bind each key once
(`Assoc.NodupKeys`), so that their entries are their lookups.

A `Walk` is the order in which a loop visits the entries of a hash map: every
entry once, in no order that the program knows.
-/

namespace Collections

namespace Assoc

variable {κ α ε : Type}

/-! ## Maps that bind a key once -/

/-- Every key is bound at most once. -/
def NodupKeys (m : Assoc κ α) : Prop := (m.map Prod.fst).Nodup

theorem nodupKeys_nil : NodupKeys ([] : Assoc κ α) := List.nodup_nil

theorem NodupKeys.perm {m m' : Assoc κ α} (h : m.NodupKeys) (p : m'.Perm m) : m'.NodupKeys :=
  (p.map Prod.fst).nodup_iff.mpr h

theorem NodupKeys.map {β : Type} {m : Assoc κ α} (h : m.NodupKeys) (g : κ → α → β) :
    NodupKeys (m.map fun e => (e.1, g e.1 e.2)) := by
  rw [NodupKeys, List.map_map]
  exact h

variable [DecidableEq κ]

theorem NodupKeys.erase {m : Assoc κ α} (h : m.NodupKeys) (k : κ) : (m.erase k).NodupKeys :=
  List.Nodup.sublist (List.filter_sublist.map _) h

theorem notMem_keys_erase (m : Assoc κ α) (k : κ) : k ∉ (m.erase k).map Prod.fst := by
  intro hk
  rcases List.mem_map.mp hk with ⟨e, he, rfl⟩
  simp [Assoc.erase] at he

theorem mem_keys_erase {m : Assoc κ α} {k k' : κ} :
    k' ∈ (m.erase k).map Prod.fst ↔ k' ≠ k ∧ k' ∈ m.map Prod.fst := by
  constructor
  · intro h
    refine ⟨fun same => notMem_keys_erase m k (same ▸ h), ?_⟩
    exact (List.filter_sublist.map Prod.fst).subset h
  · rintro ⟨other, h⟩
    obtain ⟨e, he, rfl⟩ := List.mem_map.mp h
    exact List.mem_map_of_mem (List.mem_filter.mpr ⟨he, decide_eq_true other⟩)

theorem mem_keys_insert {m : Assoc κ α} {k k' : κ} {a : α} :
    k' ∈ (m.insert k a).map Prod.fst ↔ k' = k ∨ k' ∈ m.map Prod.fst := by
  rw [Assoc.insert, List.map_cons, List.mem_cons, mem_keys_erase]
  exact ⟨fun h => h.imp id And.right, fun h => or_iff_not_imp_left.mpr fun other =>
    ⟨other, h.resolve_left other⟩⟩

theorem isSome_lookup {m : Assoc κ α} {k : κ} :
    (m.lookup k).isSome = true ↔ k ∈ m.map Prod.fst := by
  rw [List.lookup_isSome_iff, List.mem_map]
  exact exists_congr fun e => and_congr_right fun _ => by rw [beq_iff_eq, eq_comm]

theorem NodupKeys.insert {m : Assoc κ α} (h : m.NodupKeys) (k : κ) (a : α) :
    (m.insert k a).NodupKeys :=
  List.nodup_cons.mpr ⟨notMem_keys_erase m k, h.erase k⟩

/-- The entries of a map that binds a key once are its lookups. -/
theorem NodupKeys.mem_iff_lookup {m : Assoc κ α} (h : m.NodupKeys) {k : κ} {a : α} :
    (k, a) ∈ m ↔ m.lookup k = some a :=
  (Assoc.lookup_eq_some_iff_mem h).symm

/-- The order of the entries is not seen by a lookup. -/
theorem NodupKeys.lookup_perm {m m' : Assoc κ α} (h : m.NodupKeys) (p : m'.Perm m) (k : κ) :
    m'.lookup k = m.lookup k := by
  refine Option.ext fun a => ?_
  rw [← h.mem_iff_lookup, ← (h.perm p).mem_iff_lookup, p.mem_iff]

omit [DecidableEq κ] in
theorem NodupKeys.filter {m : Assoc κ α} (h : m.NodupKeys) (keep : κ × α → Bool) :
    NodupKeys (m.filter keep) :=
  h.sublist (List.filter_sublist.map _)

/-- Filtering by the value filters what a lookup finds. -/
theorem NodupKeys.lookup_filter {m : Assoc κ α} (h : m.NodupKeys) (keep : α → Bool) (k : κ) :
    (m.filter fun e => keep e.2).lookup k = (m.lookup k).filter keep := by
  refine Option.ext fun a => ?_
  rw [← (h.filter fun e => keep e.2).mem_iff_lookup, List.mem_filter, h.mem_iff_lookup,
    Option.filter_eq_some_iff]

/-- The entries of one key. -/
theorem NodupKeys.filter_key {m : Assoc κ α} (h : m.NodupKeys) (k : κ) :
    (m.filter fun e => e.1 = k) = (m.lookup k).toList.map fun a => (k, a) := by
  induction m with
  | nil => rfl
  | cons e m ih =>
      rcases e with ⟨x, b⟩
      rcases List.nodup_cons.mp h with ⟨fresh, hm⟩
      rw [List.lookup_cons]
      by_cases hx : x = k
      · subst hx
        have others : (m.filter fun e => e.1 = x) = [] := by
          rw [List.filter_eq_nil_iff]
          intro e he hkey
          exact fresh (List.mem_map.mpr ⟨e, he, by simpa using hkey⟩)
        rw [List.filter_cons_of_pos (by simp), others]
        simp
      · rw [List.filter_cons_of_neg (by simpa using hx), beq_eq_false_iff_ne.mpr (Ne.symm hx),
          ih hm]

/-- Collecting from all entries, when only one key has something to give. -/
theorem NodupKeys.flatMap_key {β : Type} {m : Assoc κ α} (h : m.NodupKeys) (g : α → List β) (k : κ)
    (others : ∀ e ∈ m, e.1 ≠ k → g e.2 = []) :
    (m.flatMap fun e => g e.2) = ((m.lookup k).map g).getD [] := by
  have only : (m.flatMap fun e => g e.2) = (m.filter fun e => e.1 = k).flatMap fun e => g e.2 := by
    clear h
    induction m with
    | nil => rfl
    | cons e m ih =>
        have rest := ih fun e' he' => others e' (List.mem_cons_of_mem _ he')
        rw [List.flatMap_cons, rest]
        by_cases hk : e.1 = k
        · rw [List.filter_cons_of_pos (by simpa using hk), List.flatMap_cons]
        · rw [List.filter_cons_of_neg (by simpa using hk), others e List.mem_cons_self hk]
          rfl
  rw [only, h.filter_key]
  cases m.lookup k <;> simp

/-- Changing every value changes every lookup. -/
theorem lookup_map {β : Type} (m : Assoc κ α) (g : κ → α → β) (k : κ) :
    (m.map fun e => (e.1, g e.1 e.2)).lookup k = (m.lookup k).map (g k) := by
  induction m with
  | nil => rfl
  | cons e m ih =>
      rw [List.map_cons, List.lookup_cons, List.lookup_cons, ih]
      by_cases h : k = e.1
      · simp [h]
      · rw [beq_eq_false_iff_ne.mpr h]

/-! ## Setting and clearing a key -/

/-- Bind `k`, or drop its binding. -/
def put (m : Assoc κ α) (k : κ) : Option α → Assoc κ α
  | some a => m.insert k a
  | none => m.erase k

theorem lookup_put (m : Assoc κ α) (k k' : κ) (o : Option α) :
    (m.put k o).lookup k' = if k' = k then o else m.lookup k' := by
  by_cases h : k' = k
  · subst h
    rw [if_pos rfl]
    cases o with
    | none => exact lookup_erase_self m k'
    | some a => exact lookup_insert_self m k' a
  · rw [if_neg h]
    cases o with
    | none => exact lookup_erase_of_ne m h
    | some a => exact lookup_insert_of_ne m a h

theorem NodupKeys.put {m : Assoc κ α} (h : m.NodupKeys) (k : κ) (o : Option α) :
    (m.put k o).NodupKeys := by
  cases o with
  | none => exact h.erase k
  | some a => exact h.insert k a

/-! ## The weight of a map -/

/-- The sum of the weights of the values. -/
def weight (w : α → Nat) (m : Assoc κ α) : Nat := (m.map fun e => w e.2).sum

omit [DecidableEq κ] in
theorem length_eq_weight (m : Assoc κ α) : m.length = m.weight fun _ => 1 := by
  induction m with
  | nil => rfl
  | cons e m ih =>
      rw [List.length_cons, ih, weight, weight, List.map_cons, List.sum_cons, Nat.add_comm]

theorem NodupKeys.weight_erase {m : Assoc κ α} (h : m.NodupKeys) (w : α → Nat) (k : κ) :
    (m.erase k).weight w + ((m.lookup k).map w).getD 0 = m.weight w := by
  induction m with
  | nil => rfl
  | cons e m ih =>
      rcases e with ⟨x, a⟩
      rcases List.nodup_cons.mp h with ⟨fresh, hm⟩
      have rest := ih hm
      rw [List.lookup_cons]
      unfold Assoc.weight Assoc.erase at rest ⊢
      by_cases hx : x = k
      · subst hx
        have absent : m.lookup x = none := by
          rw [List.lookup_eq_none_iff]
          intro e he
          have ne : e.1 ≠ x := fun heq => fresh (List.mem_map.mpr ⟨e, he, heq⟩)
          simpa using Ne.symm ne
        rw [absent] at rest
        rw [List.filter_cons_of_neg (by simp), List.map_cons, List.sum_cons]
        simp only [BEq.rfl, Option.map_some, Option.getD_some, Option.map_none, Option.getD_none]
          at rest ⊢
        omega
      · rw [List.filter_cons_of_pos (by simpa using hx), List.map_cons, List.sum_cons,
          List.map_cons, List.sum_cons, beq_eq_false_iff_ne.mpr (Ne.symm hx)]
        dsimp only
        omega

/-- What setting or clearing a key does to the weight. -/
theorem NodupKeys.weight_put {m : Assoc κ α} (h : m.NodupKeys) (w : α → Nat) (k : κ)
    (o : Option α) :
    (m.put k o).weight w + ((m.lookup k).map w).getD 0 = m.weight w + (o.map w).getD 0 := by
  have erased := h.weight_erase w k
  cases o with
  | none => simpa [Assoc.put] using erased
  | some a =>
      simp only [Assoc.put, Assoc.insert, Assoc.weight, List.map_cons, List.sum_cons,
        Option.map_some, Option.getD_some] at erased ⊢
      omega

theorem NodupKeys.weight_insert {m : Assoc κ α} (h : m.NodupKeys) (w : α → Nat) (k : κ) (a : α) :
    (m.insert k a).weight w + ((m.lookup k).map w).getD 0 = m.weight w + w a :=
  h.weight_put w k (some a)

theorem NodupKeys.length_insert {m : Assoc κ α} (h : m.NodupKeys) (k : κ) (a : α) :
    (m.insert k a).length + (if (m.lookup k).isSome then 1 else 0) = m.length + 1 := by
  have sum := h.weight_insert (fun _ => 1) k a
  rw [← length_eq_weight, ← length_eq_weight] at sum
  rw [← sum]
  cases m.lookup k <;> rfl

theorem NodupKeys.length_erase {m : Assoc κ α} (h : m.NodupKeys) (k : κ) :
    (m.erase k).length + (if (m.lookup k).isSome then 1 else 0) = m.length := by
  have sum := h.weight_erase (fun _ => 1) k
  rw [← length_eq_weight, ← length_eq_weight] at sum
  rw [← sum]
  cases m.lookup k <;> rfl

/-! ## Filing elements under keys -/

/-- `entry(k)`: bind `k` to what `f` makes of its earlier binding. -/
def upsert (m : Assoc κ α) (k : κ) (f : Option α → α) : Assoc κ α := m.insert k (f (m.lookup k))

theorem lookup_upsert (m : Assoc κ α) (k k' : κ) (f : Option α → α) :
    (m.upsert k f).lookup k' = if k' = k then some (f (m.lookup k)) else m.lookup k' := by
  split
  · rename_i h
    rw [h, upsert, lookup_insert_self]
  · rename_i h
    exact lookup_insert_of_ne _ _ h

/-- File every element of a list under its key. -/
def gather (key : ε → κ) (f : Option α → ε → α) (es : List ε) (m : Assoc κ α) : Assoc κ α :=
  es.foldl (fun m e => m.upsert (key e) fun o => f o e) m

/-- What a gathered map binds a key to: the fold over the elements with that key. -/
theorem lookup_gather (key : ε → κ) (f : Option α → ε → α) (es : List ε) (m : Assoc κ α) (k : κ) :
    (gather key f es m).lookup k =
      (es.filter fun e => key e = k).foldl (fun o e => some (f o e)) (m.lookup k) := by
  induction es generalizing m with
  | nil => rfl
  | cons e es ih =>
      rw [gather, List.foldl_cons, ← gather, ih, lookup_upsert]
      by_cases hk : key e = k
      · rw [List.filter_cons_of_pos (by simpa using hk), List.foldl_cons, if_pos hk.symm, hk]
      · rw [List.filter_cons_of_neg (by simpa using hk), if_neg (Ne.symm hk)]

theorem NodupKeys.gather {m : Assoc κ α} (h : m.NodupKeys) (key : ε → κ) (f : Option α → ε → α)
    (es : List ε) : (Assoc.gather key f es m).NodupKeys := by
  induction es generalizing m with
  | nil => exact h
  | cons e es ih => exact ih (h.insert _ _)

/-- Filing values in lists: a key is bound to the values of its elements. -/
theorem lookup_gather_lists (key : ε → κ) (val : ε → α) (es : List ε) (k : κ) :
    (gather key (fun o e => o.getD [] ++ [val e]) es []).lookup k =
      if (es.filter fun e => key e = k) = [] then none
      else some ((es.filter fun e => key e = k).map val) := by
  rw [lookup_gather, List.lookup_nil]
  have push : ∀ (l : List ε) (acc : List α),
      l.foldl (fun o e => some (o.getD [] ++ [val e])) (some acc) = some (acc ++ l.map val) := by
    intro l
    induction l with
    | nil => simp
    | cons e l ih =>
        intro acc
        rw [List.foldl_cons, Option.getD_some, ih]
        simp
  cases es.filter fun e => key e = k with
  | nil => rfl
  | cons e l =>
      rw [if_neg (List.cons_ne_nil _ _), List.foldl_cons, Option.getD_none, push]
      rfl

end Assoc

/-- Among elements with different keys, those with the key of one of them. -/
theorem filter_key_eq_singleton {κ α : Type} [DecidableEq κ] {key : α → κ} {l : List α}
    (nodup : (l.map key).Nodup) {a : α} (ha : a ∈ l) : (l.filter fun b => key b = key a) = [a] := by
  induction l with
  | nil => cases ha
  | cons b l ih =>
      rcases List.nodup_cons.mp nodup with ⟨fresh, nodup⟩
      rcases List.mem_cons.mp ha with rfl | ha
      · rw [List.filter_cons_of_pos (by simp), List.filter_eq_nil_iff.mpr]
        intro b hb heq
        exact fresh (List.mem_map.mpr ⟨b, hb, by simpa using heq⟩)
      · rw [List.filter_cons_of_neg, ih nodup ha]
        intro heq
        exact fresh (List.mem_map.mpr ⟨a, ha, by simpa [eq_comm] using heq⟩)

/-! ## Walks -/

/-- The order in which a loop visits the entries of a hash map. -/
structure Walk (α : Type) : Type where
  visit : List α → List α
  perm : ∀ l, (visit l).Perm l

namespace Walk

variable {α : Type}

theorem mem_visit (w : Walk α) {l : List α} {a : α} : a ∈ w.visit l ↔ a ∈ l := (w.perm l).mem_iff

theorem visit_nil (w : Walk α) : w.visit [] = [] := (w.perm []).eq_nil

/-- The walk in the order of the list. -/
def inOrder : Walk α := ⟨id, List.Perm.refl⟩

end Walk

end Collections

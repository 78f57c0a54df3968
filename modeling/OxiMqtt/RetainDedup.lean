import OxiMqtt.Lib.Newest
import OxiMqtt.RetainStorage

/-!
# One retained message for a topic

`dedup_retains_by_topic` of `shared.rs`: the same topic may be retained on several nodes, and a
subscriber is to receive the newest of these messages.  The loop keeps the index of the newest entry
of each topic; the indices come out of the hash map in some order and are sorted.

* `dedupStep_spec`: the index the map has for a topic is that of its newest entry so far.
* `dedupRetainsByTopic_eq`: what is returned is `Newest.keep`, whatever the order of the map.
-/

namespace OxiMqtt.RetainDedup

open Collections Newest
open OxiMqtt.RetainStorage (Retain)
open OxiMqtt.Router (TopicName)

variable {F : Type}

/-- `retain.publish.create_time.unwrap_or(0)` -/
def createTime (e : TopicName × Retain F) : Int := e.2.publish.createTime.getD 0

/-- One round of the loop of `dedup_retains_by_topic`; `none` is an index out of bounds. -/
def dedupStep (retains : List (TopicName × Retain F)) (latestIdx : Assoc TopicName Nat)
    (entry : (TopicName × Retain F) × Nat) : Option (Assoc TopicName Nat) := do
  let incomingTs := createTime entry.1
  let keep ←
    match latestIdx.lookup entry.1.1 with
    | some existingIdx => do
        let existing ← retains[existingIdx]?
        pure (decide (incomingTs > createTime existing))
    | none => pure true
  return if keep then latestIdx.insert entry.1.1 entry.2 else latestIdx

/-- `dedup_retains_by_topic`; `walk` is the order in which `into_values` goes through the map. -/
def dedupRetainsByTopic (walk : Walk (TopicName × Nat)) (retains : List (TopicName × Retain F)) :
    Option (List (TopicName × Retain F)) := do
  let latestIdx ← retains.zipIdx.foldlM (dedupStep retains) []
  let indices := ((walk.visit latestIdx).map Prod.snd).insertionSort (· ≤ ·)
  indices.mapM fun idx => retains[idx]?

/-! ## The loop -/

/-- The map has for every topic the index of its newest entry. -/
structure Indexes (seen : List (TopicName × Retain F)) (latestIdx : Assoc TopicName Nat) :
    Prop where
  nodup : latestIdx.NodupKeys
  exact : ∀ t i, latestIdx.lookup t = some i ↔ ∃ e, e.1 = t ∧ IsNewest Prod.fst createTime seen i e

theorem Indexes.nil : Indexes ([] : List (TopicName × Retain F)) [] := by
  refine ⟨Assoc.nodupKeys_nil, fun t i => ⟨fun h => (nomatch h), ?_⟩⟩
  rintro ⟨e, -, newest⟩
  exact absurd newest.here (by simp)

/-- A topic the map does not have is not among the entries. -/
theorem Indexes.absent {seen : List (TopicName × Retain F)} {latestIdx : Assoc TopicName Nat}
    (indexes : Indexes seen latestIdx) {t : TopicName} (h : latestIdx.lookup t = none) :
    ∀ e ∈ seen, e.1 ≠ t := by
  intro e he same
  obtain ⟨i, a, newest, hkey, -⟩ := exists_isNewest Prod.fst createTime he
  have found := (indexes.exact t i).mpr ⟨a, hkey.trans same, newest⟩
  rw [h] at found
  cases found

/-- The entry is newer than all of its topic: the map gets its index. -/
theorem Indexes.insert {seen : List (TopicName × Retain F)} {latestIdx : Assoc TopicName Nat}
    {e : TopicName × Retain F} (indexes : Indexes seen latestIdx)
    (newer : ∀ b ∈ seen, b.1 = e.1 → createTime b < createTime e) :
    Indexes (seen ++ [e]) (latestIdx.insert e.1 seen.length) := by
  refine ⟨indexes.nodup.insert _ _, fun t i => ?_⟩
  simp only [isNewest_append_singleton]
  by_cases same : t = e.1
  · subst same
    rw [Assoc.lookup_insert_self]
    constructor
    · intro h
      exact ⟨e, rfl, .inr ⟨(Option.some.inj h).symm, rfl, newer⟩⟩
    · rintro ⟨a, hkey, ⟨newest, le⟩ | ⟨rfl, -, -⟩⟩
      · have lt := newer a (List.mem_of_getElem? newest.here) hkey
        exact absurd (le hkey.symm) lt.not_ge
      · rfl
  · rw [Assoc.lookup_insert_of_ne _ _ same, indexes.exact]
    constructor
    · rintro ⟨a, rfl, newest⟩
      exact ⟨a, rfl, .inl ⟨newest, fun h => absurd h.symm same⟩⟩
    · rintro ⟨a, rfl, ⟨newest, -⟩ | ⟨-, rfl, -⟩⟩
      · exact ⟨a, rfl, newest⟩
      · exact absurd rfl same

/-- The newest entry of the topic so far is no older: the map stays. -/
theorem Indexes.skip {seen : List (TopicName × Retain F)} {latestIdx : Assoc TopicName Nat}
    {e old : TopicName × Retain F} {i : Nat} (indexes : Indexes seen latestIdx)
    (topic : old.1 = e.1) (newest : IsNewest Prod.fst createTime seen i old)
    (le : createTime e ≤ createTime old) :
    Indexes (seen ++ [e]) latestIdx := by
  refine ⟨indexes.nodup, fun t j => ?_⟩
  rw [indexes.exact]
  simp only [isNewest_append_singleton]
  constructor
  · rintro ⟨a, rfl, other⟩
    refine ⟨a, rfl, .inl ⟨other, fun same => ?_⟩⟩
    obtain ⟨-, rfl⟩ := newest.eq_of_key other (topic.trans same)
    exact le
  · rintro ⟨a, rfl, ⟨other, -⟩ | ⟨-, rfl, newer⟩⟩
    · exact ⟨a, rfl, other⟩
    · exact absurd (newer old (List.mem_of_getElem? newest.here) topic) le.not_gt

/-- A round of the loop. -/
theorem dedupStep_spec {retains seen rest : List (TopicName × Retain F)}
    {latestIdx : Assoc TopicName Nat} {e : TopicName × Retain F}
    (split : retains = seen ++ e :: rest) (indexes : Indexes seen latestIdx) :
    ∃ latestIdx', dedupStep retains latestIdx (e, seen.length) = some latestIdx' ∧
      Indexes (seen ++ [e]) latestIdx' := by
  cases found : latestIdx.lookup e.1 with
  | none =>
      refine ⟨latestIdx.insert e.1 seen.length, by simp [dedupStep, found], indexes.insert ?_⟩
      exact fun b hb same => absurd same (indexes.absent found b hb)
  | some i =>
      obtain ⟨old, topic, newest⟩ := (indexes.exact e.1 i).mp found
      have bound := (List.getElem?_eq_some_iff.mp newest.here).1
      have read : retains[i]? = some old := by
        rw [split, List.getElem?_append_left bound]
        exact newest.here
      by_cases newer : createTime old < createTime e
      · refine ⟨latestIdx.insert e.1 seen.length, by simp [dedupStep, found, read, newer],
          indexes.insert fun b hb same => ?_⟩
        obtain ⟨j, hj⟩ := List.mem_iff_getElem?.mp hb
        exact (newest.greatest j b hj (same.trans topic.symm)).trans_lt newer
      · exact ⟨latestIdx, by simp [dedupStep, found, read, newer],
          indexes.skip topic newest (not_lt.mp newer)⟩

/-- The whole loop. -/
theorem foldlM_dedupStep {retains seen rest : List (TopicName × Retain F)}
    {latestIdx : Assoc TopicName Nat} (split : retains = seen ++ rest)
    (indexes : Indexes seen latestIdx) :
    ∃ latestIdx', (rest.zipIdx seen.length).foldlM (dedupStep retains) latestIdx = some latestIdx' ∧
      Indexes retains latestIdx' := by
  induction rest generalizing seen latestIdx with
  | nil =>
      rw [List.append_nil] at split
      exact ⟨latestIdx, rfl, split ▸ indexes⟩
  | cons e rest ih =>
      obtain ⟨mid, stepped, indexes⟩ := dedupStep_spec split indexes
      have split' : retains = (seen ++ [e]) ++ rest := by rw [split, List.append_cons]
      obtain ⟨latestIdx', looped, final⟩ := ih split' indexes
      rw [List.length_append, List.length_singleton] at looped
      refine ⟨latestIdx', ?_, final⟩
      rw [List.zipIdx_cons, List.foldlM_cons, stepped]
      exact looped

/-! ## The sorted indices -/

theorem Indexes.nodup_values {retains : List (TopicName × Retain F)}
    {latestIdx : Assoc TopicName Nat}
    (indexes : Indexes retains latestIdx) : (latestIdx.map Prod.snd).Nodup := by
  refine (List.nodup_map_iff_inj_on indexes.nodup.of_map).mpr ?_
  rintro ⟨t, i⟩ ht ⟨t', i'⟩ ht' (rfl : i = i')
  obtain ⟨e, rfl, newest⟩ := (indexes.exact t i).mp (indexes.nodup.mem_iff_lookup.mp ht)
  obtain ⟨e', rfl, newest'⟩ := (indexes.exact t' i).mp (indexes.nodup.mem_iff_lookup.mp ht')
  rw [Option.some.inj (newest.here.symm.trans newest'.here)]

/-- In whatever order the map is read, the indices are the positions of the newest entries. -/
theorem Indexes.sorted_values {retains : List (TopicName × Retain F)}
    {latestIdx : Assoc TopicName Nat} (indexes : Indexes retains latestIdx)
    (walk : Walk (TopicName × Nat)) {entries : List (Nat × TopicName × Retain F)}
    (sel : Selects Prod.fst createTime retains entries) :
    ((walk.visit latestIdx).map Prod.snd).insertionSort (· ≤ ·) = entries.map Prod.fst := by
  have ascending : (entries.map Prod.fst).Pairwise (· < ·) := List.pairwise_map.mpr sel.ascending
  have values : ((walk.visit latestIdx).map Prod.snd).Perm (latestIdx.map Prod.snd) :=
    (walk.perm latestIdx).map Prod.snd
  have members : ∀ i, i ∈ latestIdx.map Prod.snd ↔ i ∈ entries.map Prod.fst := by
    intro i
    constructor
    · intro hi
      obtain ⟨⟨t, v⟩, ht, rfl⟩ := List.mem_map.mp hi
      obtain ⟨e, -, newest⟩ := (indexes.exact t _).mp (indexes.nodup.mem_iff_lookup.mp ht)
      exact List.mem_map.mpr ⟨(_, e), (sel.exact _ e).mpr newest, rfl⟩
    · intro hi
      obtain ⟨⟨v, e⟩, he, rfl⟩ := List.mem_map.mp hi
      have found := (indexes.exact e.1 _).mpr ⟨e, rfl, (sel.exact _ e).mp he⟩
      exact List.mem_map.mpr ⟨(e.1, _), indexes.nodup.mem_iff_lookup.mpr found, rfl⟩
  have perm : (((walk.visit latestIdx).map Prod.snd).insertionSort (· ≤ ·)).Perm
      (entries.map Prod.fst) :=
    ((List.perm_insertionSort _ _).trans values).trans
      ((List.perm_ext_iff_of_nodup indexes.nodup_values (ascending.imp ne_of_lt)).mpr members)
  exact perm.eq_of_pairwise (fun _ _ _ _ => le_antisymm) (List.pairwise_insertionSort _ _)
    (ascending.imp le_of_lt)

/-- Reading the entries at these positions. -/
theorem mapM_positions {retains : List (TopicName × Retain F)}
    {entries : List (Nat × TopicName × Retain F)}
    (there : ∀ e ∈ entries, retains[e.1]? = some e.2) :
    (entries.map Prod.fst).mapM (fun idx => retains[idx]?) = some (entries.map Prod.snd) := by
  induction entries with
  | nil => rfl
  | cons e entries ih =>
      rw [List.map_cons, List.mapM_cons, there e List.mem_cons_self,
        ih fun e he => there e (List.mem_cons_of_mem _ he)]
      rfl

theorem dedupRetainsByTopic_eq (walk : Walk (TopicName × Nat))
    (retains : List (TopicName × Retain F)) :
    dedupRetainsByTopic walk retains = some (keep Prod.fst createTime retains) := by
  obtain ⟨latestIdx, looped, indexes⟩ :=
    foldlM_dedupStep (List.nil_append retains).symm Indexes.nil
  obtain ⟨entries, sel, out⟩ := selects_keep Prod.fst createTime retains
  have there : ∀ e ∈ entries, retains[e.1]? = some e.2 := fun e he =>
    ((sel.exact e.1 e.2).mp he).here
  rw [dedupRetainsByTopic]
  change (retains.zipIdx 0).foldlM (dedupStep retains) [] >>= _ = _
  rw [show (0 : Nat) = ([] : List (TopicName × Retain F)).length from rfl, looped]
  change (((walk.visit latestIdx).map Prod.snd).insertionSort (· ≤ ·)).mapM _ = _
  rw [indexes.sorted_values walk sel, mapM_positions there, out]

/-! ## What is returned -/

/-- What a deduplication is to return. -/
structure KeepsNewest (retains out : List (TopicName × Retain F)) : Prop where
  sublist : out.Sublist retains
  distinct : (out.map Prod.fst).Nodup
  covers : ∀ e ∈ retains, ∃ e' ∈ out, e'.1 = e.1
  newest : ∃ entries, Selects Prod.fst createTime retains entries ∧ entries.map Prod.snd = out

theorem keepsNewest_keep (retains : List (TopicName × Retain F)) :
    KeepsNewest retains (keep Prod.fst createTime retains) where
  sublist := keep_sublist retains
  distinct := nodup_keys_keep retains
  covers := fun e he => by
    obtain ⟨e', he', same, -⟩ := exists_kept Prod.fst createTime he
    exact ⟨e', he', same⟩
  newest := selects_keep Prod.fst createTime retains

/-- There is one such list. -/
theorem KeepsNewest.unique {retains out out' : List (TopicName × Retain F)}
    (h : KeepsNewest retains out) (h' : KeepsNewest retains out') : out = out' := by
  obtain ⟨entries, sel, rfl⟩ := h.newest
  obtain ⟨entries', sel', rfl⟩ := h'.newest
  rw [sel.unique sel']

/-- `dedup_retains_by_topic` returns the newest entry of every topic, and can be applied again, or
to the parts of a list first. -/
theorem dedupRetainsByTopic_keeps_newest (F : Type) :
    (∀ retains : List (TopicName × Retain F), ∃ out,
        (∀ walk, dedupRetainsByTopic walk retains = some out) ∧ KeepsNewest retains out ∧
        ∀ walk, dedupRetainsByTopic walk out = some out) ∧
      ∀ a b : List (TopicName × Retain F), ∃ a' b' out,
        (∀ walk, dedupRetainsByTopic walk a = some a') ∧
        (∀ walk, dedupRetainsByTopic walk b = some b') ∧
        (∀ walk, dedupRetainsByTopic walk (a ++ b) = some out) ∧
        ∀ walk, dedupRetainsByTopic walk (a' ++ b') = some out := by
  constructor
  · intro retains
    refine ⟨_, fun walk => dedupRetainsByTopic_eq walk retains, keepsNewest_keep retains,
      fun walk => ?_⟩
    rw [dedupRetainsByTopic_eq, keep_keep]
  · intro a b
    refine ⟨_, _, _, fun walk => dedupRetainsByTopic_eq walk a,
      fun walk => dedupRetainsByTopic_eq walk b, fun walk => dedupRetainsByTopic_eq walk (a ++ b),
      fun walk => ?_⟩
    rw [dedupRetainsByTopic_eq, keep_append]

end OxiMqtt.RetainDedup

import Mathlib.Data.List.Sort
import Mathlib.Order.Lattice

/-!
# The newest element of every key

The elements of a list have a key and a time.  `keep` leaves one element for every key: among those
with the greatest time, the first.

* `IsNewest`: the position of such an element, in terms of the other positions only.
* `Selects`: the ascending list of all of them; there is only one, and `keep` has its elements.
* `keep_keep`, `keep_append`: what is kept of what was kept, also part by part.
-/

namespace Newest

variable {α κ τ : Type} [LinearOrder τ] (key : α → κ) (time : α → τ)

/-- Some element of the list with the key of `a` is newer. -/
def Beaten (a : α) (l : List α) : Prop := ∃ b ∈ l, key b = key a ∧ time a < time b

instance [DecidableEq κ] (a : α) (l : List α) : Decidable (Beaten key time a l) :=
  inferInstanceAs (Decidable (∃ b ∈ l, key b = key a ∧ time a < time b))

/-- The newest elements. -/
def keep [DecidableEq κ] : List α → List α
  | [] => []
  | a :: l =>
      if Beaten key time a l then keep l else a :: (keep l).filter fun b => key b ≠ key a

/-- At this position is an element with the greatest time of its key, and no earlier one. -/
structure IsNewest (l : List α) (i : Nat) (a : α) : Prop where
  here : l[i]? = some a
  earlier : ∀ (j : Nat) (b : α), j < i → l[j]? = some b → key b = key a → time b < time a
  greatest : ∀ (j : Nat) (b : α), l[j]? = some b → key b = key a → time b ≤ time a

/-- These are the positions of the newest elements in ascending order, with the elements. -/
structure Selects (l : List α) (entries : List (Nat × α)) : Prop where
  ascending : entries.Pairwise fun e e' => e.1 < e'.1
  exact : ∀ i a, (i, a) ∈ entries ↔ IsNewest key time l i a

variable {key time} {l l' : List α} {a b : α} {i : Nat}

/-! ## Newer elements -/

theorem beaten_append :
    Beaten key time a (l ++ l') ↔ Beaten key time a l ∨ Beaten key time a l' := by
  simp only [Beaten, List.mem_append, or_and_right, exists_or]

theorem Beaten.mono (h : Beaten key time a l) (sub : ∀ b ∈ l, b ∈ l') : Beaten key time a l' := by
  obtain ⟨b, hb, newer⟩ := h
  exact ⟨b, sub b hb, newer⟩

/-- An element is beaten by what beats a newer one of its key. -/
theorem Beaten.of_le (h : Beaten key time b l) (same : key b = key a) (le : time a ≤ time b) :
    Beaten key time a l := by
  obtain ⟨c, hc, hkey, newer⟩ := h
  exact ⟨c, hc, hkey.trans same, lt_of_le_of_lt le newer⟩

theorem le_of_not_beaten (h : ¬ Beaten key time a l) (hb : b ∈ l) (same : key b = key a) :
    time b ≤ time a := by
  by_contra newer
  exact h ⟨b, hb, same, lt_of_not_ge newer⟩

/-! ## What is kept -/

variable [DecidableEq κ]

theorem keep_cons_of_beaten (h : Beaten key time a l) :
    keep key time (a :: l) = keep key time l := by
  rw [keep, if_pos h]

theorem keep_cons_of_not_beaten (h : ¬ Beaten key time a l) :
    keep key time (a :: l) = a :: (keep key time l).filter fun b => key b ≠ key a := by
  rw [keep, if_neg h]

theorem keep_sublist (l : List α) : (keep key time l).Sublist l := by
  induction l with
  | nil => exact List.Sublist.refl _
  | cons a l ih =>
      by_cases h : Beaten key time a l
      · rw [keep_cons_of_beaten h]
        exact ih.cons a
      · rw [keep_cons_of_not_beaten h]
        exact (List.filter_sublist.trans ih).cons_cons a

theorem nodup_keys_keep (l : List α) : ((keep key time l).map key).Nodup := by
  induction l with
  | nil => exact List.nodup_nil
  | cons a l ih =>
      by_cases h : Beaten key time a l
      · rw [keep_cons_of_beaten h]
        exact ih
      · rw [keep_cons_of_not_beaten h, List.map_cons, List.nodup_cons]
        refine ⟨?_, ih.sublist (List.filter_sublist.map key)⟩
        intro present
        obtain ⟨b, hb, same⟩ := List.mem_map.mp present
        exact of_decide_eq_true (List.mem_filter.mp hb).2 same

/-- Every element has a kept one of its key that is not older. -/
theorem exists_kept (key : α → κ) (time : α → τ) (hb : b ∈ l) :
    ∃ c ∈ keep key time l, key c = key b ∧ time b ≤ time c := by
  induction l generalizing b with
  | nil => cases hb
  | cons a l ih =>
      by_cases h : Beaten key time a l
      · rw [keep_cons_of_beaten h]
        rcases List.mem_cons.mp hb with rfl | hb
        · obtain ⟨c, hc, same, newer⟩ := h
          obtain ⟨d, hd, same', le⟩ := ih hc
          exact ⟨d, hd, same'.trans same, newer.le.trans le⟩
        · exact ih hb
      · rw [keep_cons_of_not_beaten h]
        by_cases same : key b = key a
        · refine ⟨a, List.mem_cons_self, same.symm, ?_⟩
          rcases List.mem_cons.mp hb with rfl | hb
          · exact le_rfl
          · exact le_of_not_beaten h hb same
        · rcases List.mem_cons.mp hb with rfl | hb
          · exact absurd rfl same
          · obtain ⟨c, hc, same', le⟩ := ih hb
            have other : decide (key c ≠ key a) = true := decide_eq_true (same' ▸ same)
            exact ⟨c, List.mem_cons_of_mem a (List.mem_filter.mpr ⟨hc, other⟩), same', le⟩

theorem beaten_keep : Beaten key time a (keep key time l) ↔ Beaten key time a l := by
  constructor
  · exact fun h => h.mono fun b hb => (keep_sublist l).subset hb
  · intro h
    obtain ⟨b, hb, same, newer⟩ := h
    obtain ⟨c, hc, same', le⟩ := exists_kept key time hb
    exact ⟨c, hc, same'.trans same, lt_of_lt_of_le newer le⟩

theorem beaten_filter {k : κ} (other : key a ≠ k) :
    Beaten key time a (l.filter fun b => key b ≠ k) ↔ Beaten key time a l := by
  constructor
  · exact fun h => h.mono fun b hb => List.mem_of_mem_filter hb
  · intro h
    obtain ⟨b, hb, same, newer⟩ := h
    exact ⟨b, List.mem_filter.mpr ⟨hb, decide_eq_true (same ▸ other)⟩, same, newer⟩

/-- The keys do not touch one another. -/
theorem keep_filter (key : α → κ) (time : α → τ) (k : κ) (l : List α) :
    keep key time (l.filter fun b => key b ≠ k) = (keep key time l).filter fun b => key b ≠ k := by
  induction l with
  | nil => rfl
  | cons a l ih =>
      by_cases same : key a = k
      · rw [List.filter_cons_of_neg (by simpa using same), ih]
        by_cases h : Beaten key time a l
        · rw [keep_cons_of_beaten h]
        · rw [keep_cons_of_not_beaten h, List.filter_cons_of_neg (by simpa using same),
            List.filter_filter, same]
          simp only [Bool.and_self]
      · rw [List.filter_cons_of_pos (by simpa using same)]
        by_cases h : Beaten key time a l
        · rw [keep_cons_of_beaten ((beaten_filter same).mpr h), keep_cons_of_beaten h, ih]
        · rw [keep_cons_of_not_beaten (mt (beaten_filter same).mp h), keep_cons_of_not_beaten h,
            List.filter_cons_of_pos (by simpa using same), ih, List.filter_filter,
            List.filter_filter]
          simp only [Bool.and_comm]

/-! ## Keeping what was kept -/

/-- What is beaten by the rest of the list can be left out. -/
theorem keep_filter_append {k : κ} (old : ∀ c ∈ l, key c = k → Beaten key time c l') :
    keep key time ((l.filter fun b => key b ≠ k) ++ l') = keep key time (l ++ l') := by
  induction l with
  | nil => rfl
  | cons a l ih =>
      have rest := ih fun c hc => old c (List.mem_cons_of_mem a hc)
      by_cases same : key a = k
      · have beaten : Beaten key time a (l ++ l') :=
          beaten_append.mpr (.inr (old a List.mem_cons_self same))
        rw [List.filter_cons_of_neg (by simpa using same), rest, List.cons_append,
          keep_cons_of_beaten beaten]
      · have alike : Beaten key time a ((l.filter fun b => key b ≠ k) ++ l') ↔
            Beaten key time a (l ++ l') := by
          rw [beaten_append, beaten_append, beaten_filter same]
        rw [List.filter_cons_of_pos (by simpa using same), List.cons_append, List.cons_append]
        by_cases h : Beaten key time a (l ++ l')
        · rw [keep_cons_of_beaten (alike.mpr h), keep_cons_of_beaten h, rest]
        · rw [keep_cons_of_not_beaten (mt alike.mp h), keep_cons_of_not_beaten h, rest]

theorem keep_keep_append (l l' : List α) :
    keep key time (keep key time l ++ l') = keep key time (l ++ l') := by
  induction l with
  | nil => rfl
  | cons a l ih =>
      by_cases inside : Beaten key time a l
      · have beaten : Beaten key time a (l ++ l') := beaten_append.mpr (.inl inside)
        rw [keep_cons_of_beaten inside, ih, List.cons_append, keep_cons_of_beaten beaten]
      · rw [keep_cons_of_not_beaten inside, List.cons_append, List.cons_append]
        have alike : Beaten key time a (((keep key time l).filter fun b => key b ≠ key a) ++ l') ↔
            Beaten key time a (l ++ l') := by
          constructor
          · intro h
            refine h.mono fun b hb => ?_
            rcases List.mem_append.mp hb with hb | hb
            · exact List.mem_append_left l' ((keep_sublist l).subset (List.mem_of_mem_filter hb))
            · exact List.mem_append_right l hb
          · intro h
            exact beaten_append.mpr (.inr ((beaten_append.mp h).resolve_left inside))
        by_cases h : Beaten key time a (l ++ l')
        · -- what is behind beats `a`, and all that `a` has beaten
          have behind : Beaten key time a l' := (beaten_append.mp h).resolve_left inside
          have old : ∀ c ∈ keep key time l, key c = key a → Beaten key time c l' := by
            intro c hc same
            exact behind.of_le same.symm (le_of_not_beaten inside ((keep_sublist l).subset hc) same)
          rw [keep_cons_of_beaten (alike.mpr h), keep_cons_of_beaten h, keep_filter_append old, ih]
        · have rest := keep_filter key time (key a) (keep key time l ++ l')
          rw [List.filter_append] at rest
          have twice := keep_filter key time (key a)
            (((keep key time l).filter fun b => key b ≠ key a) ++ l')
          rw [List.filter_append, List.filter_filter] at twice
          simp only [Bool.and_self] at twice
          rw [keep_cons_of_not_beaten (mt alike.mp h), keep_cons_of_not_beaten h, ← twice, rest, ih]

theorem keep_keep (l : List α) : keep key time (keep key time l) = keep key time l := by
  have h : keep key time (keep key time l ++ []) = keep key time (l ++ []) :=
    keep_keep_append l []
  rwa [List.append_nil, List.append_nil] at h

theorem keep_append_keep (l l' : List α) :
    keep key time (l ++ keep key time l') = keep key time (l ++ l') := by
  induction l with
  | nil => exact keep_keep l'
  | cons a l ih =>
      have alike : Beaten key time a (l ++ keep key time l') ↔ Beaten key time a (l ++ l') := by
        rw [beaten_append, beaten_append, beaten_keep]
      rw [List.cons_append, List.cons_append]
      by_cases h : Beaten key time a (l ++ l')
      · rw [keep_cons_of_beaten (alike.mpr h), keep_cons_of_beaten h, ih]
      · rw [keep_cons_of_not_beaten (mt alike.mp h), keep_cons_of_not_beaten h, ih]

/-- Two lists can be reduced before they are put together. -/
theorem keep_append (l l' : List α) :
    keep key time (keep key time l ++ keep key time l') = keep key time (l ++ l') := by
  rw [keep_keep_append, keep_append_keep]

/-! ## The positions -/

omit [DecidableEq κ] in
theorem IsNewest.eq_of_key {j : Nat} (h : IsNewest key time l i a) (h' : IsNewest key time l j b)
    (same : key a = key b) : i = j ∧ a = b := by
  have notBefore : ¬ i < j := fun lt =>
    absurd (h'.earlier i a lt h.here same) (h.greatest j b h'.here same.symm).not_gt
  have notAfter : ¬ j < i := fun lt =>
    absurd (h.earlier j b lt h'.here same.symm) (h'.greatest i a h.here same).not_gt
  have place : i = j := by omega
  subst place
  exact ⟨rfl, Option.some.inj (h.here.symm.trans h'.here)⟩

omit [DecidableEq κ] in
/-- There is one such list. -/
theorem Selects.unique {entries entries' : List (Nat × α)} (h : Selects key time l entries)
    (h' : Selects key time l entries') : entries = entries' := by
  have members : ∀ e, e ∈ entries ↔ e ∈ entries' :=
    fun e => (h.exact e.1 e.2).trans (h'.exact e.1 e.2).symm
  have perm : entries.Perm entries' :=
    (List.perm_ext_iff_of_nodup (h.ascending.imp fun lt => ne_of_apply_ne Prod.fst lt.ne)
      (h'.ascending.imp fun lt => ne_of_apply_ne Prod.fst lt.ne)).mpr members
  exact perm.eq_of_pairwise (fun e e' _ _ lt gt => absurd lt gt.not_gt) h.ascending h'.ascending

omit [DecidableEq κ] in
theorem isNewest_cons_zero : IsNewest key time (a :: l) 0 b ↔ b = a ∧ ¬ Beaten key time a l := by
  constructor
  · intro h
    obtain rfl : a = b := Option.some.inj h.here
    refine ⟨rfl, ?_⟩
    rintro ⟨c, hc, same, newer⟩
    obtain ⟨j, hj⟩ := List.mem_iff_getElem?.mp hc
    exact newer.not_ge (h.greatest (j + 1) c hj same)
  · rintro ⟨rfl, best⟩
    refine ⟨rfl, fun j c lt => absurd lt (Nat.not_lt_zero j), fun j c hj same => ?_⟩
    cases j with
    | zero => exact (Option.some.inj hj ▸ le_rfl)
    | succ j => exact le_of_not_beaten best (List.mem_of_getElem? hj) same

omit [DecidableEq κ] in
theorem isNewest_cons_succ :
    IsNewest key time (a :: l) (i + 1) b ↔
      IsNewest key time l i b ∧ (key b = key a → Beaten key time a l) := by
  constructor
  · intro h
    refine ⟨⟨h.here, fun j c lt hj => h.earlier (j + 1) c (Nat.succ_lt_succ lt) hj,
      fun j c hj => h.greatest (j + 1) c hj⟩, fun same => ?_⟩
    exact ⟨b, List.mem_of_getElem? h.here, same, h.earlier 0 a (Nat.succ_pos i) rfl same.symm⟩
  · rintro ⟨h, beats⟩
    have first : key a = key b → time a < time b := by
      intro same
      obtain ⟨c, hc, hkey, newer⟩ := beats same.symm
      obtain ⟨j, hj⟩ := List.mem_iff_getElem?.mp hc
      exact newer.trans_le (h.greatest j c hj (hkey.trans same))
    refine ⟨h.here, fun j c lt hj same => ?_, fun j c hj same => ?_⟩
    · cases j with
      | zero =>
          obtain rfl : a = c := Option.some.inj hj
          exact first same
      | succ j => exact h.earlier j c (Nat.lt_of_succ_lt_succ lt) hj same
    · cases j with
      | zero =>
          obtain rfl : a = c := Option.some.inj hj
          exact (first same).le
      | succ j => exact h.greatest j c hj same

/-- What is kept are the newest elements, in the order of the list. -/
theorem selects_keep (key : α → κ) (time : α → τ) (l : List α) :
    ∃ entries, Selects key time l entries ∧ entries.map Prod.snd = keep key time l := by
  induction l with
  | nil =>
      refine ⟨[], ⟨List.Pairwise.nil, fun i a => ?_⟩, rfl⟩
      exact ⟨fun h => absurd h List.not_mem_nil, fun h => absurd h.here (by simp)⟩
  | cons a l ih =>
      obtain ⟨entries, sel, out⟩ := ih
      by_cases h : Beaten key time a l
      · refine ⟨entries.map fun e => (e.1 + 1, e.2), ⟨?_, fun i b => ?_⟩, ?_⟩
        · exact List.pairwise_map.mpr (sel.ascending.imp Nat.succ_lt_succ)
        · cases i with
          | zero => simp [isNewest_cons_zero, h]
          | succ i => simp [isNewest_cons_succ, h, sel.exact]
        · rw [keep_cons_of_beaten h, List.map_map]
          exact out
      · refine ⟨(0, a) :: (entries.filter fun e => key e.2 ≠ key a).map fun e => (e.1 + 1, e.2),
          ⟨?_, fun i b => ?_⟩, ?_⟩
        · refine List.pairwise_cons.mpr ⟨fun e he => ?_, ?_⟩
          · obtain ⟨d, -, rfl⟩ := List.mem_map.mp he
            exact Nat.succ_pos d.1
          · exact List.pairwise_map.mpr ((sel.ascending.filter _).imp Nat.succ_lt_succ)
        · cases i with
          | zero => simp [isNewest_cons_zero, h]
          | succ i => simp [isNewest_cons_succ, h, sel.exact]
        · rw [keep_cons_of_not_beaten h, List.map_cons, List.map_map, ← out, List.filter_map]
          rfl

omit [DecidableEq κ] in
/-- An element put at the end is the newest of its key where it is newer than all of them, and
otherwise changes nothing. -/
theorem isNewest_append_singleton {x : α} :
    IsNewest key time (l ++ [x]) i a ↔
      (IsNewest key time l i a ∧ (key x = key a → time x ≤ time a)) ∨
        (i = l.length ∧ a = x ∧ ∀ b ∈ l, key b = key x → time b < time x) := by
  have old : ∀ {j : Nat} {b : α}, l[j]? = some b → (l ++ [x])[j]? = some b := by
    intro j b hj
    rw [List.getElem?_append_left (List.getElem?_eq_some_iff.mp hj).1, hj]
  have last : (l ++ [x])[l.length]? = some x := List.getElem?_concat_length
  have back : ∀ {j : Nat} {b : α}, (l ++ [x])[j]? = some b →
      l[j]? = some b ∨ (j = l.length ∧ b = x) := by
    intro j b hj
    rcases Nat.lt_trichotomy j l.length with lt | rfl | gt
    · rw [List.getElem?_append_left lt] at hj
      exact .inl hj
    · rw [last] at hj
      exact .inr ⟨rfl, (Option.some.inj hj).symm⟩
    · have bound := (List.getElem?_eq_some_iff.mp hj).1
      rw [List.length_append, List.length_singleton] at bound
      omega
  constructor
  · intro h
    rcases back h.here with here | ⟨rfl, rfl⟩
    · exact .inl ⟨⟨here, fun j b lt hj => h.earlier j b lt (old hj),
        fun j b hj => h.greatest j b (old hj)⟩, fun same => h.greatest l.length x last same⟩
    · refine .inr ⟨rfl, rfl, fun b hb same => ?_⟩
      obtain ⟨j, hj⟩ := List.mem_iff_getElem?.mp hb
      exact h.earlier j b (List.getElem?_eq_some_iff.mp hj).1 (old hj) same
  · rintro (⟨h, le⟩ | ⟨rfl, rfl, newer⟩)
    · refine ⟨old h.here, fun j b lt hj same => ?_, fun j b hj same => ?_⟩
      · rcases back hj with hj | ⟨rfl, -⟩
        · exact h.earlier j b lt hj same
        · exact absurd lt (List.getElem?_eq_some_iff.mp h.here).1.not_gt
      · rcases back hj with hj | ⟨rfl, rfl⟩
        · exact h.greatest j b hj same
        · exact le same
    · refine ⟨last, fun j b lt hj same => ?_, fun j b hj same => ?_⟩
      · rcases back hj with hj | ⟨rfl, -⟩
        · exact newer b (List.mem_of_getElem? hj) same
        · exact absurd lt (lt_irrefl _)
      · rcases back hj with hj | ⟨rfl, rfl⟩
        · exact (newer b (List.mem_of_getElem? hj) same).le
        · exact le_rfl

/-- Every key of the list has a newest element. -/
theorem exists_isNewest (key : α → κ) (time : α → τ) (hb : b ∈ l) :
    ∃ i a, IsNewest key time l i a ∧ key a = key b ∧ time b ≤ time a := by
  obtain ⟨entries, sel, out⟩ := selects_keep key time l
  obtain ⟨c, hc, same, le⟩ := exists_kept key time hb
  rw [← out] at hc
  obtain ⟨⟨i, a⟩, he, rfl⟩ := List.mem_map.mp hc
  exact ⟨i, a, (sel.exact i a).mp he, same, le⟩

end Newest

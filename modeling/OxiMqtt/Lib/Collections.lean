import Mathlib.Data.List.Sort
import Mathlib.Order.WithBot

/-!
# Finite maps and ordered sets

The two containers the development is built on, in a form that computes.

* `Assoc κ α` is a finite map kept as an association list.  `Assoc.insert`
  replaces the binding of a key and `Assoc.erase` drops it; a reader only ever
  observes the map through `List.lookup`, so the order of the entries carries no
  meaning.
* `OrdSet α` is a finite set kept as its strictly ascending enumeration.  The
  order is a field, so two sets with the same members are equal
  (`OrdSet.ext_mem`).
-/

namespace Collections

/-! ## Association lists -/

/-- A finite map as an association list, read through `List.lookup`. -/
abbrev Assoc (κ α : Type) : Type := List (κ × α)

namespace Assoc

variable {κ α : Type} [DecidableEq κ]

/-- Drop every binding of `k`. -/
def erase (m : Assoc κ α) (k : κ) : Assoc κ α := m.filter (fun e => e.1 ≠ k)

/-- Bind `k` to `a`, replacing an earlier binding. -/
def insert (m : Assoc κ α) (k : κ) (a : α) : Assoc κ α := (k, a) :: erase m k

theorem lookup_erase_self (m : Assoc κ α) (k : κ) : (erase m k).lookup k = none := by
  rw [List.lookup_eq_none_iff]
  intro e he
  simp only [erase, List.mem_filter, decide_eq_true_eq] at he
  simpa using Ne.symm he.2

theorem lookup_erase_of_ne {k k' : κ} (m : Assoc κ α) (h : k' ≠ k) :
    (erase m k).lookup k' = m.lookup k' := by
  induction m with
  | nil => rfl
  | cons e m ih =>
      obtain ⟨x, a⟩ := e
      unfold erase at ih ⊢
      by_cases hx : x = k
      · subst hx
        rw [List.filter_cons_of_neg (by simp), ih, List.lookup_cons, beq_eq_false_iff_ne.mpr h]
      · rw [List.filter_cons_of_pos (by simpa using hx), List.lookup_cons, List.lookup_cons, ih]

@[simp] theorem lookup_insert_self (m : Assoc κ α) (k : κ) (a : α) :
    (insert m k a).lookup k = some a := by
  simp [insert]

theorem lookup_insert_of_ne {k k' : κ} (m : Assoc κ α) (a : α) (h : k' ≠ k) :
    (insert m k a).lookup k' = m.lookup k' := by
  rw [insert, List.lookup_cons, beq_eq_false_iff_ne.mpr h, lookup_erase_of_ne m h]

theorem mem_of_lookup {m : Assoc κ α} {k : κ} {a : α} (h : m.lookup k = some a) : (k, a) ∈ m := by
  rcases List.lookup_eq_some_iff.mp h with ⟨pre, post, rfl, -⟩
  exact List.mem_append_right pre List.mem_cons_self

/-- Where the keys are distinct, a lookup finds every entry. -/
theorem lookup_eq_some_iff_mem {m : Assoc κ α} (distinct : (m.map Prod.fst).Nodup) {k : κ} {a : α} :
    m.lookup k = some a ↔ (k, a) ∈ m := by
  constructor
  · exact mem_of_lookup
  · intro member
    rcases List.append_of_mem member with ⟨pre, post, rfl⟩
    refine List.lookup_eq_some_iff.mpr ⟨pre, post, rfl, fun e he => ?_⟩
    rw [List.map_append, List.map_cons, List.nodup_append] at distinct
    have apart := distinct.2.2 e.1 (List.mem_map_of_mem he) k List.mem_cons_self
    exact bne_iff_ne.mpr (Ne.symm apart)

end Assoc

/-! ## Ordered sets -/

/-- A finite set of ordered values, kept as its ascending enumeration. -/
structure OrdSet (α : Type) [LinearOrder α] : Type where
  toList : List α
  ascending : toList.Pairwise (· < ·)

namespace OrdSet

variable {α : Type} [LinearOrder α]

instance : DecidableEq (OrdSet α) := fun s t =>
  decidable_of_iff (s.toList = t.toList) ⟨fun h => by cases s; cases t; cases h; rfl,
    fun h => by rw [h]⟩

instance : Membership α (OrdSet α) := ⟨fun s a => a ∈ s.toList⟩

instance (a : α) (s : OrdSet α) : Decidable (a ∈ s) := inferInstanceAs (Decidable (a ∈ s.toList))

theorem mem_def {a : α} {s : OrdSet α} : a ∈ s ↔ a ∈ s.toList := Iff.rfl

/-- The empty set. -/
def empty : OrdSet α := ⟨[], List.Pairwise.nil⟩

instance : EmptyCollection (OrdSet α) := ⟨empty⟩

instance : Inhabited (OrdSet α) := ⟨empty⟩

@[simp] theorem not_mem_empty (a : α) : a ∉ (∅ : OrdSet α) := List.not_mem_nil

def isEmpty (s : OrdSet α) : Bool := s.toList.isEmpty

theorem nodup (s : OrdSet α) : s.toList.Nodup := s.ascending.imp ne_of_lt

/-- Sets with the same members are equal: the enumeration is determined. -/
theorem ext_mem {s t : OrdSet α} (h : ∀ a, a ∈ s ↔ a ∈ t) : s = t := by
  have perm : s.toList.Perm t.toList :=
    (List.perm_ext_iff_of_nodup s.nodup t.nodup).mpr h
  have lists : s.toList = t.toList := perm.eq_of_pairwise (fun a b _ _ ab ba =>
    (lt_asymm ab ba).elim) s.ascending t.ascending
  cases s; cases t; cases lists; rfl

theorem isEmpty_iff {s : OrdSet α} : s.isEmpty = true ↔ s = ∅ := by
  constructor
  · intro h
    refine ext_mem fun a => ?_
    rw [mem_def, List.isEmpty_iff.mp h]
    exact ⟨fun hm => (List.not_mem_nil hm).elim, fun hm => (not_mem_empty a hm).elim⟩
  · rintro rfl
    rfl

private theorem ascending_orderedInsert {a : α} {l : List α} (asc : l.Pairwise (· < ·))
    (ha : a ∉ l) : (l.orderedInsert (· ≤ ·) a).Pairwise (· < ·) := by
  induction l with
  | nil => simp
  | cons b l ih =>
      rw [List.pairwise_cons] at asc
      simp only [List.mem_cons, not_or] at ha
      rw [List.orderedInsert_cons]
      split
      · rename_i hab
        have ab : a < b := lt_of_le_of_ne hab ha.1
        refine List.pairwise_cons.mpr ⟨fun c hc => ?_, List.pairwise_cons.mpr asc⟩
        rcases List.mem_cons.mp hc with rfl | hc
        · exact ab
        · exact ab.trans (asc.1 c hc)
      · rename_i hab
        refine List.pairwise_cons.mpr ⟨fun c hc => ?_, ih asc.2 ha.2⟩
        rcases (List.mem_orderedInsert _).mp hc with rfl | hc
        · exact not_le.mp hab
        · exact asc.1 c hc

/-- Insert a value; the flag says whether it was absent. -/
def insert (s : OrdSet α) (a : α) : OrdSet α × Bool :=
  if h : a ∈ s.toList then (s, false)
  else (⟨s.toList.orderedInsert (· ≤ ·) a, ascending_orderedInsert s.ascending h⟩, true)

/-- Remove a value; the flag says whether it was present. -/
def remove (s : OrdSet α) (a : α) : OrdSet α × Bool :=
  (⟨s.toList.erase a, s.ascending.sublist List.erase_sublist⟩, decide (a ∈ s))

theorem mem_insert {a b : α} {s : OrdSet α} : b ∈ (s.insert a).1 ↔ b = a ∨ b ∈ s := by
  unfold insert
  split
  · rename_i h
    exact ⟨Or.inr, fun hb => hb.elim (fun e => e ▸ h) id⟩
  · exact List.mem_orderedInsert _

theorem mem_remove {a b : α} {s : OrdSet α} : b ∈ (s.remove a).1 ↔ b ≠ a ∧ b ∈ s :=
  s.nodup.mem_erase_iff

theorem insert_snd (s : OrdSet α) (a : α) : (s.insert a).2 = decide (a ∉ s) := by
  unfold insert
  split
  · rename_i h
    exact (decide_eq_false (not_not_intro h)).symm
  · rename_i h
    exact (decide_eq_true h).symm

theorem length_insert (s : OrdSet α) (a : α) :
    (s.insert a).1.toList.length = s.toList.length + if a ∈ s then 0 else 1 := by
  unfold insert
  split
  · rename_i h
    rw [if_pos (mem_def.mpr h)]
    rfl
  · rename_i h
    rw [if_neg (fun hm => h (mem_def.mp hm))]
    exact List.orderedInsert_length _ _ _

theorem length_remove (s : OrdSet α) (a : α) :
    (s.remove a).1.toList.length + (if a ∈ s then 1 else 0) = s.toList.length := by
  change (s.toList.erase a).length + _ = _
  split
  · rename_i h
    have pos := List.length_pos_of_mem (mem_def.mp h)
    rw [List.length_erase_of_mem (mem_def.mp h)]
    omega
  · rename_i h
    rw [List.erase_of_not_mem (fun hm => h (mem_def.mpr hm)), Nat.add_zero]

theorem ne_empty_iff {s : OrdSet α} : s ≠ ∅ ↔ ∃ a, a ∈ s := by
  rw [← not_iff_not, not_not, ← isEmpty_iff, isEmpty, List.isEmpty_iff]
  simp [mem_def, List.eq_nil_iff_forall_not_mem]

/-- The enumeration is the only ascending list of the members. -/
theorem eq_toList_iff {s : OrdSet α} {l : List α} :
    l = s.toList ↔ l.Pairwise (· < ·) ∧ ∀ a, a ∈ l ↔ a ∈ s := by
  constructor
  · rintro rfl
    exact ⟨s.ascending, fun a => Iff.rfl⟩
  · rintro ⟨asc, mem⟩
    exact congrArg toList (ext_mem (s := ⟨l, asc⟩) mem)

end OrdSet

end Collections

import Mathlib.Data.Prod.Lex
import Mathlib.Data.List.Nodup

/-!
# Ordered maps

A finite map with ordered keys, kept as its ascending enumeration.  What a map holds is said by the
members of the enumeration.

* `mem_insert`, `mem_modify`: what a map holds after an operation.
* `descending`, `eq_of_descending`: the enumeration from the greatest key down.
-/

namespace Collections

/-- A finite map with ordered keys, kept as its ascending enumeration. -/
structure OrdMap (κ α : Type) [LinearOrder κ] : Type where
  toList : List (κ × α)
  ascending : toList.Pairwise fun e e' => e.1 < e'.1

namespace OrdMap

variable {κ α : Type} [LinearOrder κ] {m : OrdMap κ α} {k k' : κ} {a b : α}

/-- The empty map. -/
def empty : OrdMap κ α := ⟨[], List.Pairwise.nil⟩

/-- The key is there. -/
def containsKey (m : OrdMap κ α) (k : κ) : Bool := m.toList.any fun e => e.1 == k

theorem containsKey_iff : m.containsKey k = true ↔ ∃ a, (k, a) ∈ m.toList := by
  rw [containsKey, List.any_eq_true]
  constructor
  · intro h
    obtain ⟨⟨k', a⟩, there, same⟩ := h
    exact ⟨a, (beq_iff_eq.mp same) ▸ there⟩
  · intro h
    obtain ⟨a, there⟩ := h
    exact ⟨(k, a), there, beq_self_eq_true k⟩

/-- The entry goes before the first greater key. -/
def place (k : κ) (a : α) : List (κ × α) → List (κ × α)
  | [] => [(k, a)]
  | e :: l => if k < e.1 then (k, a) :: e :: l else e :: place k a l

theorem mem_place {e : κ × α} {l : List (κ × α)} : e ∈ place k a l ↔ e = (k, a) ∨ e ∈ l := by
  induction l with
  | nil => simp [place]
  | cons e' l ih =>
      rw [place]
      split
      · rw [List.mem_cons]
      · rw [List.mem_cons, ih, List.mem_cons, or_left_comm]

theorem ascending_place {l : List (κ × α)} (asc : l.Pairwise fun e e' => e.1 < e'.1)
    (absent : ∀ e ∈ l, e.1 ≠ k) : (place k a l).Pairwise fun e e' => e.1 < e'.1 := by
  induction l with
  | nil => exact List.pairwise_singleton _ _
  | cons e l ih =>
      obtain ⟨first, rest⟩ := List.pairwise_cons.mp asc
      rw [place]
      split
      · rename_i before
        refine List.pairwise_cons.mpr ⟨fun e' he' => ?_, asc⟩
        rcases List.mem_cons.mp he' with rfl | later
        · exact before
        · exact before.trans (first e' later)
      · rename_i notBefore
        refine List.pairwise_cons.mpr ⟨fun e' he' => ?_,
          ih rest fun e' he' => absent e' (List.mem_cons_of_mem e he')⟩
        rcases mem_place.mp he' with rfl | later
        · exact lt_of_le_of_ne (not_lt.mp notBefore) (absent e List.mem_cons_self)
        · exact first e' later

/-- A new entry, unless the key is there. -/
def insert (m : OrdMap κ α) (k : κ) (a : α) : OrdMap κ α :=
  if there : m.containsKey k = true then m
  else ⟨place k a m.toList, ascending_place m.ascending fun e he same =>
    there (containsKey_iff.mpr ⟨e.2, same ▸ he⟩)⟩

theorem mem_insert (absent : m.containsKey k = false) {e : κ × α} :
    e ∈ (m.insert k a).toList ↔ e = (k, a) ∨ e ∈ m.toList := by
  rw [insert, dif_neg (by rw [absent]; exact Bool.false_ne_true)]
  exact mem_place

/-- The value of a key is changed, where the key is there. -/
def modify (m : OrdMap κ α) (k : κ) (f : α → α) : OrdMap κ α where
  toList := m.toList.map fun e => if e.1 = k then (e.1, f e.2) else e
  ascending := by
    refine m.ascending.map _ fun e e' before => ?_
    split <;> split <;> exact before

theorem mem_modify {f : α → α} :
    (k', b) ∈ (m.modify k f).toList ↔
      (k' ≠ k ∧ (k', b) ∈ m.toList) ∨ (k' = k ∧ ∃ a, (k, a) ∈ m.toList ∧ b = f a) := by
  rw [modify, List.mem_map]
  constructor
  · intro h
    obtain ⟨⟨k'', a⟩, there, same⟩ := h
    split at same
    · rename_i here
      cases here
      cases same
      exact .inr ⟨rfl, a, there, rfl⟩
    · rename_i elsewhere
      cases same
      exact .inl ⟨elsewhere, there⟩
  · intro h
    rcases h with ⟨elsewhere, there⟩ | ⟨rfl, a, there, rfl⟩
    · exact ⟨(k', b), there, if_neg elsewhere⟩
    · exact ⟨(k', a), there, if_pos rfl⟩

/-- Descending lists with the same members are equal. -/
theorem eq_of_descending {l l' : List (κ × α)} (down : l.Pairwise fun e e' => e'.1 < e.1)
    (down' : l'.Pairwise fun e e' => e'.1 < e.1) (same : ∀ e, e ∈ l ↔ e ∈ l') : l = l' := by
  have apart : ∀ {l : List (κ × α)}, (l.Pairwise fun e e' => e'.1 < e.1) → l.Nodup :=
    fun h => h.imp fun less same => absurd (same ▸ less) (lt_irrefl _)
  have perm : l.Perm l' := (List.perm_ext_iff_of_nodup (apart down) (apart down')).mpr same
  exact perm.eq_of_pairwise (fun _ _ _ _ less more => absurd more (lt_asymm less)) down down'

theorem descending (m : OrdMap κ α) : m.toList.reverse.Pairwise fun e e' => e'.1 < e.1 :=
  List.pairwise_reverse.mpr m.ascending

end OrdMap

end Collections

import Mathlib.Data.List.Infix

/-!
# Placeholders of two characters

Two placeholders, `mark` with the character `first` and `mark` with the character `second`, are
replaced in a text, the first one by a pass over the text, the second one by a pass over what that
leaves.  `marks` is the text with the first one replaced and the places of the second one kept apart
from the characters, so that `fillIn` replaces both at once.

* `replacePair_first`: the first pass, with the places of the second one filled by its own text.
* `replacePair_eq_merge`: the second pass replaces what looks like a place, too.
* `replace_twice_eq_iff`: when the two passes replace both at once.
* `fillIn_marks_append`: a character of no placeholder cuts a text in two that are replaced apart.
-/

namespace Placeholders

variable {mark first second : Char}

/-- One pass: every `mark` with `k` behind it is replaced. -/
def replacePair (mark k : Char) (text : List Char) : List Char → List Char
  | a :: b :: cs =>
      if a = mark ∧ b = k then text ++ replacePair mark k text cs
      else a :: replacePair mark k text (b :: cs)
  | cs => cs

/-- The first placeholder is replaced, a place of the second one is `none`. -/
def marks (mark first second : Char) (text : List Char) : List Char → List (Option Char)
  | a :: b :: cs =>
      if a = mark ∧ b = first then text.map some ++ marks mark first second text cs
      else if a = mark ∧ b = second then none :: marks mark first second text cs
      else some a :: marks mark first second text (b :: cs)
  | cs => cs.map some

/-- The places of the second placeholder are filled. -/
def fillIn (text : List Char) (ms : List (Option Char)) : List Char :=
  ms.flatMap fun
    | some c => [c]
    | none => text

/-- The characters look like the second placeholder where there is no place of it. -/
def Arises (mark second : Char) (ms : List (Option Char)) : Prop :=
  [some mark, some second] <:+: ms

instance (mark second : Char) (ms : List (Option Char)) : Decidable (Arises mark second ms) :=
  inferInstanceAs (Decidable (_ <:+: _))

/-- The places, and what looks like one. -/
def merge (mark second : Char) : List (Option Char) → List (Option Char)
  | some a :: some b :: ms =>
      if a = mark ∧ b = second then none :: merge mark second ms
      else some a :: merge mark second (some b :: ms)
  | m :: ms => m :: merge mark second ms
  | [] => []

@[simp]
theorem fillIn_some (text : List Char) (c : Char) (ms : List (Option Char)) :
    fillIn text (some c :: ms) = c :: fillIn text ms := rfl

@[simp]
theorem fillIn_none (text : List Char) (ms : List (Option Char)) :
    fillIn text (none :: ms) = text ++ fillIn text ms := rfl

@[simp]
theorem fillIn_append (text : List Char) (ms ms' : List (Option Char)) :
    fillIn text (ms ++ ms') = fillIn text ms ++ fillIn text ms' := List.flatMap_append

@[simp]
theorem fillIn_map_some (text cs : List Char) : fillIn text (cs.map some) = cs := by
  induction cs with
  | nil => rfl
  | cons c cs ih => rw [List.map_cons, fillIn_some, ih]

/-! ## The two passes -/

section

variable (mark_ne : mark ≠ second)

theorem replacePair_cons_of_ne {a k : Char} (other : a ≠ mark) (text cs : List Char) :
    replacePair mark k text (a :: cs) = a :: replacePair mark k text cs := by
  cases cs with
  | nil => rfl
  | cons b cs => rw [replacePair, if_neg (fun h => other h.1)]

theorem replacePair_cons_of_head? {k : Char} {cs : List Char} (other : cs.head? ≠ some k)
    (a : Char) (text : List Char) :
    replacePair mark k text (a :: cs) = a :: replacePair mark k text cs := by
  cases cs with
  | nil => rfl
  | cons b cs => rw [replacePair, if_neg (fun h => other (congrArg some h.2))]

theorem replacePair_append_of_notMem {front : List Char} (free : mark ∉ front) (k : Char)
    (text cs : List Char) :
    replacePair mark k text (front ++ cs) = front ++ replacePair mark k text cs := by
  induction front with
  | nil => rfl
  | cons a front ih =>
      have other : a ≠ mark := (List.ne_of_not_mem_cons free).symm
      rw [List.cons_append, replacePair_cons_of_ne other, ih (List.not_mem_of_not_mem_cons free),
        List.cons_append]

include mark_ne in
theorem replacePair_first (text cs : List Char) :
    replacePair mark first text cs = fillIn [mark, second] (marks mark first second text cs) := by
  induction cs using marks.induct mark first second with
  | case1 a b cs found ih =>
      rw [replacePair, marks, if_pos found, if_pos found, fillIn_append, fillIn_map_some, ih]
  | case2 a b cs other place ih =>
      rw [replacePair, marks, if_neg other, if_neg other, if_pos place, fillIn_none, ← ih, place.1,
        place.2, replacePair_cons_of_ne mark_ne.symm]
      rfl
  | case3 a b cs other plain ih =>
      rw [replacePair, marks, if_neg other, if_neg other, if_neg plain, fillIn_some, ih]
  | case4 cs short =>
      rcases cs with _ | ⟨c, _ | ⟨d, cs⟩⟩
      · rfl
      · rfl
      · exact absurd rfl (short c d cs)

include mark_ne in
theorem replacePair_eq_merge (text : List Char) (ms : List (Option Char)) :
    replacePair mark second text (fillIn [mark, second] ms) =
      fillIn text (merge mark second ms) := by
  induction ms using merge.induct mark second with
  | case1 a b ms found ih =>
      rw [merge, if_pos found, fillIn_some, fillIn_some, fillIn_none, replacePair, if_pos found, ih]
  | case2 a b ms other ih =>
      rw [merge, if_neg other, fillIn_some, fillIn_some, fillIn_some, replacePair, if_neg other,
        ← ih, fillIn_some]
  | case3 m ms single ih =>
      cases m with
      | none =>
          rw [merge, fillIn_none, fillIn_none, ← ih]
          · exact if_pos ⟨rfl, rfl⟩
          · simp
      | some a =>
          rcases ms with _ | ⟨_ | b, ms⟩
          · rfl
          · rw [merge, fillIn_some, fillIn_some, ← ih, fillIn_none]
            · exact if_neg fun h => mark_ne h.2
            · simp
          · exact absurd rfl (single a b ms rfl)
  | case4 => rfl

theorem arises_cons {m : Option Char} {ms : List (Option Char)} :
    Arises mark second (m :: ms) ↔
      (m = some mark ∧ ms.head? = some (some second)) ∨ Arises mark second ms := by
  rw [Arises, List.infix_cons_iff, List.cons_prefix_cons, Arises, eq_comm]
  refine or_congr_left (and_congr_right fun _ => ?_)
  cases ms with
  | nil => simp
  | cons m' ms => rw [List.singleton_prefix_cons_iff, List.head?_cons, Option.some.injEq, eq_comm]

/-- Where nothing looks like a place, nothing is merged. -/
theorem merge_eq_self_iff (ms : List (Option Char)) :
    merge mark second ms = ms ↔ ¬ Arises mark second ms := by
  induction ms using merge.induct mark second with
  | case1 a b ms found ih =>
      rw [merge, if_pos found, found.1, found.2, arises_cons]
      simp
  | case2 a b ms other ih =>
      have apart : ¬ (some a = some mark ∧ (some b :: ms).head? = some (some second)) := by
        simpa using other
      rw [merge, if_neg other, List.cons_eq_cons, and_iff_right rfl, ih, arises_cons (m := some a),
        or_iff_right apart]
  | case3 m ms single ih =>
      have apart : ¬ (m = some mark ∧ ms.head? = some (some second)) := by
        rintro ⟨rfl, next⟩
        cases ms with
        | nil => cases next
        | cons m ms =>
            cases next
            exact single _ _ _ rfl rfl
      rw [merge, List.cons_eq_cons, and_iff_right rfl, ih, arises_cons, or_iff_right apart]
      exact single
  | case4 => simp [merge, Arises]

/-- Each merge changes two characters into the text. -/
theorem length_fillIn_merge (text : List Char) (ms : List (Option Char)) :
    ∃ k, (fillIn text (merge mark second ms)).length + k * 2 =
      (fillIn text ms).length + k * text.length := by
  induction ms using merge.induct mark second with
  | case1 a b ms found ih =>
      obtain ⟨k, count⟩ := ih
      refine ⟨k + 1, ?_⟩
      rw [merge, if_pos found, fillIn_none, fillIn_some, fillIn_some, List.length_append,
        List.length_cons, List.length_cons]
      rw [Nat.succ_mul, Nat.succ_mul]
      omega
  | case2 a b ms other ih =>
      obtain ⟨k, count⟩ := ih
      refine ⟨k, ?_⟩
      rw [merge, if_neg other, fillIn_some, List.length_cons, fillIn_some text a, List.length_cons]
      omega
  | case3 m ms single ih =>
      obtain ⟨k, count⟩ := ih
      refine ⟨k, ?_⟩
      rw [merge]
      · cases m with
        | none =>
            rw [fillIn_none, fillIn_none, List.length_append, List.length_append]
            omega
        | some c =>
            rw [fillIn_some, fillIn_some, List.length_cons, List.length_cons]
            omega
      · exact single
  | case4 => exact ⟨0, by rw [merge, Nat.zero_mul, Nat.zero_mul]⟩

/-- Filling what looks like a place, too, makes no difference where there is no such thing, or the
text is that of the placeholder. -/
theorem fillIn_merge_eq_iff (text : List Char) (ms : List (Option Char)) :
    fillIn text (merge mark second ms) = fillIn text ms ↔
      ¬ Arises mark second ms ∨ text = [mark, second] := by
  rw [← merge_eq_self_iff]
  induction ms using merge.induct mark second with
  | case1 a b ms found ih =>
      rw [merge, if_pos found, fillIn_none, fillIn_some, fillIn_some, found.1, found.2]
      constructor
      · intro same
        obtain ⟨k, count⟩ := @length_fillIn_merge mark second text ms
        have lengths := congrArg List.length same
        rw [List.length_append, List.length_cons, List.length_cons] at lengths
        have total : (k + 1) * text.length = (k + 1) * 2 := by
          rw [Nat.succ_mul, Nat.succ_mul]
          omega
        obtain ⟨c, d, rfl⟩ :=
          List.length_eq_two.mp (Nat.eq_of_mul_eq_mul_left (Nat.succ_pos k) total)
        rw [List.cons_append, List.cons_append, List.cons_eq_cons, List.cons_eq_cons] at same
        rw [same.1, same.2.1]
        exact .inr rfl
      · rintro (kept | rfl)
        · cases kept
        · rw [ih.mpr (.inr rfl)]
          rfl
  | case2 a b ms other ih =>
      rw [merge, if_neg other, fillIn_some, fillIn_some text a, List.cons_eq_cons,
        List.cons_eq_cons,
        and_iff_right rfl, and_iff_right rfl, ih]
  | case3 m ms single ih =>
      rw [merge]
      · cases m with
        | none => rw [fillIn_none, fillIn_none, List.append_cancel_left_eq, ih, List.cons_eq_cons,
            and_iff_right rfl]
        | some c => rw [fillIn_some, fillIn_some, List.cons_eq_cons, List.cons_eq_cons,
            and_iff_right rfl, and_iff_right rfl, ih]
      · exact single
  | case4 => simp [merge]

end

/-- One pass for each placeholder replaces both at once, as long as no place of the second one
arises in the first pass, or the second one is replaced by itself. -/
theorem replace_twice_eq_iff (mark_ne : mark ≠ second) (text text' cs : List Char) :
    replacePair mark second text' (replacePair mark first text cs) =
        fillIn text' (marks mark first second text cs) ↔
      ¬ Arises mark second (marks mark first second text cs) ∨ text' = [mark, second] := by
  rw [replacePair_first mark_ne text cs, replacePair_eq_merge mark_ne, fillIn_merge_eq_iff]

/-! ## Parts of a text -/

theorem marks_cons_of_ne {a : Char} (other : a ≠ mark) (text cs : List Char) :
    marks mark first second text (a :: cs) = some a :: marks mark first second text cs := by
  cases cs with
  | nil => rfl
  | cons b cs => rw [marks, if_neg (fun h => other h.1), if_neg (fun h => other h.1)]

/-- A character of no placeholder cuts the text in two. -/
theorem marks_append {sep : Char} (not_mark : sep ≠ mark) (not_first : sep ≠ first)
    (not_second : sep ≠ second) (text xs ys : List Char) :
    marks mark first second text (xs ++ sep :: ys) =
      marks mark first second text xs ++ some sep :: marks mark first second text ys := by
  induction xs using marks.induct mark first second with
  | case1 a b cs found ih =>
      rw [List.cons_append, List.cons_append, marks, if_pos found, marks, if_pos found, ih,
        List.append_assoc]
  | case2 a b cs other place ih =>
      rw [List.cons_append, List.cons_append, marks, if_neg other, if_pos place, marks,
        if_neg other, if_pos place, ih]
      rfl
  | case3 a b cs other plain ih =>
      rw [List.cons_append, List.cons_append, marks, if_neg other, if_neg plain, marks,
        if_neg other, if_neg plain, ← List.cons_append, ih]
      rfl
  | case4 cs short =>
      rcases cs with _ | ⟨c, _ | ⟨d, cs⟩⟩
      · rw [List.nil_append, marks_cons_of_ne not_mark]
        rfl
      · rw [List.cons_append, List.nil_append, marks, if_neg (fun h => not_first h.2),
          if_neg (fun h => not_second h.2), marks_cons_of_ne not_mark]
        rfl
      · exact absurd rfl (short c d cs)

theorem fillIn_marks_append {sep : Char} (not_mark : sep ≠ mark) (not_first : sep ≠ first)
    (not_second : sep ≠ second) (text text' xs ys : List Char) :
    fillIn text' (marks mark first second text (xs ++ sep :: ys)) =
      fillIn text' (marks mark first second text xs) ++
        sep :: fillIn text' (marks mark first second text ys) := by
  rw [marks_append not_mark not_first not_second, fillIn_append, fillIn_some]

/-- The parts between separators are replaced apart. -/
theorem fillIn_intercalate {sep : Char} (not_mark : sep ≠ mark) (not_first : sep ≠ first)
    (not_second : sep ≠ second) (text text' : List Char) : ∀ parts : List (List Char),
    fillIn text' (marks mark first second text ([sep].intercalate parts)) =
      [sep].intercalate (parts.map fun part => fillIn text' (marks mark first second text part))
  | [] => rfl
  | [part] => by simp
  | part :: next :: parts => by
      have ih := fillIn_intercalate not_mark not_first not_second text text' (next :: parts)
      rw [List.map_cons] at ih
      rw [List.map_cons, List.map_cons, List.intercalate_cons_cons,
        List.intercalate_cons_cons, ← ih,
        List.append_assoc, List.append_assoc]
      exact fillIn_marks_append not_mark not_first not_second text text' part _

end Placeholders

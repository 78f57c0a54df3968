import Mathlib.Data.List.TakeDrop
import Mathlib.Data.List.TakeWhile

/-!
# Text

Splitting and trimming of texts, capitals, and reading of unsigned numbers, as the standard library
of the source language has them.  A text is a list of characters.
-/

namespace Text

/-- `str::splitn`: the pieces between separators, at most `n` of them; the last one is the rest. -/
def splitn (separator : Char) : Nat → List Char → List (List Char)
  | 0, _ => []
  | 1, s => [s]
  | n + 2, s =>
      match s.span (· ≠ separator) with
      | (first, []) => [first]
      | (first, _ :: rest) => first :: splitn separator (n + 1) rest

theorem splitn_append {separator : Char} {first : List Char} (free : separator ∉ first) (n : Nat)
    (rest : List Char) :
    splitn separator (n + 2) (first ++ separator :: rest) =
      first :: splitn separator (n + 1) rest := by
  have span : (first ++ separator :: rest).span (· ≠ separator) = (first, separator :: rest) := by
    have taken : ∀ c ∈ first, decide (c ≠ separator) = true := by
      intro c hc
      exact decide_eq_true fun eq => free (eq ▸ hc)
    rw [List.span_eq_takeWhile_dropWhile, List.takeWhile_append_of_pos taken,
      List.dropWhile_append_of_pos taken]
    simp
  rw [splitn, span]

theorem prefix_of_splitn {separator : Char} {n : Nat} {s first : List Char}
    {rest : List (List Char)} (h : splitn separator n s = first :: rest) : first <+: s := by
  match n with
  | 0 => cases h
  | 1 =>
      cases h
      exact List.prefix_rfl
  | n + 2 =>
      have taken : first = s.takeWhile (· ≠ separator) := by
        rw [splitn, List.span_eq_takeWhile_dropWhile] at h
        cases hd : s.dropWhile (· ≠ separator) with
        | nil =>
            rw [hd] at h
            exact (List.cons.inj h).1.symm
        | cons c cs =>
            rw [hd] at h
            exact (List.cons.inj h).1.symm
      rw [taken]
      exact List.takeWhile_prefix _

theorem splitn_of_notMem {separator : Char} {s : List Char} (free : separator ∉ s) (n : Nat) :
    splitn separator (n + 2) s = [s] := by
  have taken : ∀ c ∈ s, decide (c ≠ separator) = true := by
    intro c hc
    exact decide_eq_true fun eq => free (eq ▸ hc)
  rw [splitn, List.span_eq_takeWhile_dropWhile, List.takeWhile_eq_self_iff.mpr taken,
    List.dropWhile_eq_nil_iff.mpr taken]

/-- A text has no separator, or a first one. -/
theorem exists_split (separator : Char) (s : List Char) :
    separator ∉ s ∨ ∃ first rest, separator ∉ first ∧ s = first ++ separator :: rest := by
  by_cases h : separator ∈ s
  · obtain ⟨first, rest, eq, free⟩ := List.eq_append_cons_of_mem h
    exact .inr ⟨first, rest, free, eq⟩
  · exact .inl h

/-- The turns of `trimStartMatches` that are left. -/
def trimLoop (pattern : List Char) : Nat → List Char → List Char
  | 0, s => s
  | turns + 1, s =>
      if pattern.isPrefixOf s then trimLoop pattern turns (s.drop pattern.length) else s

/-- `str::trim_start_matches`: every copy of the pattern at the start is removed. -/
def trimStartMatches (pattern s : List Char) : List Char := trimLoop pattern s.length s

/-- One copy of the pattern is removed where no second one follows. -/
theorem trimStartMatches_once {pattern s : List Char} (nonempty : pattern ≠ [])
    (once : ¬ pattern <+: s) : trimStartMatches pattern (pattern ++ s) = s := by
  have stop : ∀ turns, trimLoop pattern turns s = s := by
    intro turns
    cases turns with
    | zero => rfl
    | succ turns => rw [trimLoop, if_neg (mt List.isPrefixOf_iff_prefix.mp once)]
  obtain ⟨n, hn⟩ : ∃ n, (pattern ++ s).length = n + 1 :=
    ⟨(pattern ++ s).length - 1, by
      have pos := List.length_pos_iff.mpr nonempty
      rw [List.length_append]
      omega⟩
  rw [trimStartMatches, hn, trimLoop,
    if_pos (List.isPrefixOf_iff_prefix.mpr (List.prefix_append pattern s)), List.drop_left, stop]

/-- `ParseIntError` -/
inductive ParseIntError : Type
  | empty
  | invalidDigit
  | posOverflow
  deriving DecidableEq, Repr

/-- `Display for ParseIntError` -/
def ParseIntError.text : ParseIntError → String
  | empty => "cannot parse integer from empty string"
  | invalidDigit => "invalid digit found in string"
  | posOverflow => "number too large to fit in target type"

/-- The digits behind those that make `acc`, of a number below `size`. -/
def parseDigits (size acc : Nat) : List Char → Except ParseIntError Nat
  | [] => .ok acc
  | c :: cs =>
      if c.isDigit then
        let next := acc * 10 + (c.toNat - '0'.toNat)
        if next < size then parseDigits size next cs else .error .posOverflow
      else .error .invalidDigit

/-- The number that the digits make behind those that make `acc`. -/
def decimal (acc : Nat) (cs : List Char) : Nat :=
  cs.foldl (fun acc c => acc * 10 + (c.toNat - '0'.toNat)) acc

theorem le_decimal (acc : Nat) (cs : List Char) : acc ≤ decimal acc cs := by
  induction cs generalizing acc with
  | nil => exact Nat.le_refl acc
  | cons c cs ih =>
      have step : acc ≤ acc * 10 + (c.toNat - '0'.toNat) := by omega
      exact Nat.le_trans step (ih _)

theorem parseDigits_eq_ok_iff {size acc v : Nat} (fits : acc < size) {cs : List Char} :
    parseDigits size acc cs = .ok v ↔
      (∀ c ∈ cs, c.isDigit = true) ∧ decimal acc cs = v ∧ v < size := by
  induction cs generalizing acc with
  | nil =>
      rw [parseDigits]
      constructor
      · intro h
        cases h
        exact ⟨fun c hc => absurd hc List.not_mem_nil, rfl, fits⟩
      · rintro ⟨-, rfl, -⟩
        rfl
  | cons c cs ih =>
      rw [parseDigits, List.forall_mem_cons]
      dsimp only
      by_cases digit : c.isDigit = true
      · rw [if_pos digit]
        by_cases next : acc * 10 + (c.toNat - '0'.toNat) < size
        · rw [if_pos next, ih next, and_iff_right digit]
          rfl
        · rw [if_neg next]
          refine ⟨nofun, ?_⟩
          rintro ⟨-, rfl, below⟩
          exact absurd (Nat.lt_of_le_of_lt (le_decimal _ cs) below) next
      · rw [if_neg digit]
        exact ⟨nofun, fun h => absurd h.1.1 digit⟩

/-- `FromStr` of an unsigned integer type with `size` values.  A sign `+` is read, and a `-` is no
digit. -/
def parseUnsigned (size : Nat) : List Char → Except ParseIntError Nat
  | [] => .error .empty
  | ['+'] => .error .invalidDigit
  | '+' :: cs => parseDigits size 0 cs
  | cs => parseDigits size 0 cs

/-- What is read as a number: digits, behind a `+` or not, that make a number in the range. -/
theorem parseUnsigned_eq_ok_iff {size v : Nat} (pos : 0 < size) {cs : List Char} :
    parseUnsigned size cs = .ok v ↔
      ∃ digits, (cs = digits ∨ cs = '+' :: digits) ∧ digits ≠ [] ∧
        (∀ c ∈ digits, c.isDigit = true) ∧ decimal 0 digits = v ∧ v < size := by
  have sign : ¬ '+'.isDigit = true := by decide
  constructor
  · intro h
    unfold parseUnsigned at h
    split at h
    · cases h
    · cases h
    · rename_i digits alone
      exact ⟨digits, .inr rfl, fun empty => alone (by rw [empty]),
        (parseDigits_eq_ok_iff pos).mp h⟩
    · rename_i nonempty _ _
      exact ⟨cs, .inl rfl, nonempty, (parseDigits_eq_ok_iff pos).mp h⟩
  · rintro ⟨digits, shape, nonempty, read⟩
    have parsed := (parseDigits_eq_ok_iff pos).mpr read
    unfold parseUnsigned
    rcases shape with rfl | rfl
    · split
      · exact absurd rfl nonempty
      · exact absurd (read.1 '+' List.mem_cons_self) sign
      · exact absurd (read.1 '+' List.mem_cons_self) sign
      · exact parsed
    · split
      · rename_i eq
        cases eq
      · rename_i eq
        cases eq
        exact absurd rfl nonempty
      · rename_i eq
        cases eq
        exact parsed
      · rename_i plain
        exact absurd rfl (plain digits)

theorem decimal_eq_ofDigitChars (acc : Nat) (cs : List Char) :
    decimal acc cs = Nat.ofDigitChars 10 cs acc := by
  induction cs generalizing acc with
  | nil => exact Nat.ofDigitChars_nil.symm
  | cons c cs ih =>
      rw [Nat.ofDigitChars_cons, Nat.mul_comm, ← ih]
      rfl

/-- A number that is printed is read back. -/
theorem parseUnsigned_toDigits {size n : Nat} (h : n < size) :
    parseUnsigned size (Nat.toDigits 10 n) = .ok n := by
  refine (parseUnsigned_eq_ok_iff (Nat.zero_lt_of_lt h)).mpr ⟨_, .inl rfl, Nat.toDigits_ne_nil, ?_⟩
  refine ⟨fun c hc => Nat.isDigit_of_mem_toDigits (by decide) (by decide) hc, ?_, h⟩
  rw [decimal_eq_ofDigitChars]
  exact Nat.ofDigitChars_toDigits (by decide) (by decide)

/-! ## Pieces with their separators -/

/-- `str::split_inclusive`: a piece ends behind a separator, the last one also at the end. -/
def splitInclusive (separator : Char → Bool) : List Char → List (List Char)
  | [] => []
  | c :: cs =>
      if separator c then [c] :: splitInclusive separator cs
      else
        match splitInclusive separator cs with
        | [] => [[c]]
        | piece :: pieces => (c :: piece) :: pieces

theorem splitInclusive_append {separator : Char → Bool} {front : List Char} {c : Char}
    (free : ∀ d ∈ front, separator d = false) (ends : separator c = true) (rest : List Char) :
    splitInclusive separator (front ++ c :: rest) =
      (front ++ [c]) :: splitInclusive separator rest := by
  induction front with
  | nil =>
      rw [List.nil_append, splitInclusive, if_pos ends]
      rfl
  | cons d front ih =>
      obtain ⟨plain, free⟩ := List.forall_mem_cons.mp free
      rw [List.cons_append, splitInclusive, plain, ih free]
      rfl

/-! ## Capitals -/

/-- The table of `char::to_uppercase`: what a character becomes.  An ASCII character becomes its
ASCII capital. -/
structure CaseTable : Type where
  upper : Char → List Char
  ascii : ∀ c : Char, c.toNat < 128 → upper c = [c.toUpper]

namespace CaseTable

/-- `str::to_uppercase` -/
def toUppercase (table : CaseTable) (s : List Char) : List Char := s.flatMap table.upper

/-- The table of the ASCII characters alone. -/
def asciiOnly : CaseTable := ⟨fun c => [c.toUpper], fun _ _ => rfl⟩

/-- A text of ASCII capitals, and of characters that have none. -/
theorem toUppercase_eq_self (table : CaseTable) {s : List Char}
    (h : ∀ c ∈ s, c.toNat < 128 ∧ c.toUpper = c) : table.toUppercase s = s := by
  induction s with
  | nil => rfl
  | cons c s ih =>
      obtain ⟨⟨small, capital⟩, later⟩ := List.forall_mem_cons.mp h
      have head : table.upper c = [c] := by rw [table.ascii c small, capital]
      rw [toUppercase, List.flatMap_cons, head]
      exact congrArg (c :: ·) (ih later)

end CaseTable

/-- A digit is an ASCII character without a capital. -/
theorem toUpper_of_isDigit {c : Char} (digit : c.isDigit = true) :
    c.toNat < 128 ∧ c.toUpper = c := by
  obtain ⟨-, most⟩ := Char.isDigit_iff_toNat.mp digit
  have below : c.toNat ≤ 57 := most
  refine ⟨by omega, dif_neg fun h => ?_⟩
  have least : 97 ≤ c.toNat := UInt32.le_iff_toNat_le.mp h.1
  omega

end Text

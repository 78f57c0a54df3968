import Mathlib.Algebra.Order.BigOperators.Group.List
import Mathlib.Algebra.Order.Group.Nat
import OxiMqtt.Lib.Placeholders
import OxiMqtt.Lib.Reader
import OxiMqtt.Lib.Text

/-!
# Byte sizes

`Bytesize` of `utils/mod.rs`, as it is printed and read.  The printer takes a size apart by the
units, the largest one first, and leaves out the parts that are zero.  The reader takes any text
apart behind its unit letters, and multiplies and adds what it reads without a check: a product or a
sum that a `usize` cannot hold is a fault.

* `print`: a list of parts as a text.
* `toBytesize_print`: such a text is read as the sum of its parts, if that is in range.
* `toBytesize_string`: a size that is printed is read back.
-/

namespace OxiMqtt.Utils

open Wire
open Text (CaseTable parseUnsigned splitInclusive)
open Placeholders (replacePair)

/-- `BYTESIZE_K` -/
def BYTESIZE_K : Nat := 1024

/-- `BYTESIZE_M` -/
def BYTESIZE_M : Nat := 1048576

/-- `BYTESIZE_G` -/
def BYTESIZE_G : Nat := 1073741824

/-- `Bytesize` -/
structure Bytesize : Type where
  val : UInt64
  deriving DecidableEq, Repr

/-- A block of `Bytesize::string`: what is printed so far, and what is left. -/
def pushUnit (factor : Nat) (letter : Char) (res : List Char) (v : Nat) : List Char × Nat :=
  let n := v / factor
  if n > 0 then (res ++ (Nat.toDigits 10 n ++ [letter]), v % factor) else (res, v)

/-- `Bytesize::string` -/
def Bytesize.string (size : Bytesize) : List Char :=
  let (res, v) := pushUnit BYTESIZE_G 'G' [] size.val.toNat
  let (res, v) := pushUnit BYTESIZE_M 'M' res v
  let (res, v) := pushUnit BYTESIZE_K 'K' res v
  if v > 0 then res ++ (Nat.toDigits 10 v ++ ['B']) else res

/-- `ParseSizeError` -/
inductive ParseSizeError : Type
  | invalidFormat
  | invalidNumber (s : List Char)
  | invalidUnit (c : Char)
  deriving DecidableEq, Repr

/-- The number of values of a `usize`. -/
def usizeSize : Nat := 2 ^ 64

/-- A product of `usize` values. -/
def mulUsize (a b : Nat) : Outcome ParseSizeError Nat :=
  if a * b < usizeSize then .ok (a * b) else .fault .overflow

/-- A sum of `usize` values. -/
def addUsize (a b : Nat) : Outcome ParseSizeError Nat :=
  if a + b < usizeSize then .ok (a + b) else .fault .overflow

/-- What `to_bytesize` makes of a piece. -/
def sizeOfPiece (x : List Char) : Outcome ParseSizeError Nat :=
  match x.getLast? with
  | none => .err .invalidFormat
  | some u =>
      let numStr := x.dropLast
      match parseUnsigned usizeSize numStr with
      | .error _ => .err (.invalidNumber numStr)
      | .ok v =>
          if u = 'B' then .ok v
          else if u = 'K' then mulUsize v BYTESIZE_K
          else if u = 'M' then mulUsize v BYTESIZE_M
          else if u = 'G' then mulUsize v BYTESIZE_G
          else .err (.invalidUnit u)

/-- The `sum` of `to_bytesize`, which stops at the first error. -/
def sumPieces (acc : Nat) : List (List Char) → Outcome ParseSizeError Nat
  | [] => .ok acc
  | x :: xs => do
      let v ← sizeOfPiece x
      let acc ← addUsize acc v
      sumPieces acc xs

/-- `to_bytesize` -/
def toBytesize (table : CaseTable) (text : List Char) : Outcome ParseSizeError Nat :=
  let text := table.toUppercase text
  let text := replacePair 'G' 'B' ['G'] text
  let text := replacePair 'M' 'B' ['M'] text
  let text := replacePair 'K' 'B' ['K'] text
  sumPieces 0 (splitInclusive (fun c => c = 'G' || c = 'M' || c = 'K' || c = 'B') text)

/-! ## Parts with a unit -/

/-- The units of a size. -/
inductive SizeUnit : Type
  | g
  | m
  | k
  | b
  deriving DecidableEq, Repr

def SizeUnit.letter : SizeUnit → Char
  | g => 'G'
  | m => 'M'
  | k => 'K'
  | b => 'B'

def SizeUnit.factor : SizeUnit → Nat
  | g => BYTESIZE_G
  | m => BYTESIZE_M
  | k => BYTESIZE_K
  | b => 1

/-- A number with its unit. -/
def printPart (p : Nat × SizeUnit) : List Char := Nat.toDigits 10 p.1 ++ [p.2.letter]

def print (parts : List (Nat × SizeUnit)) : List Char := parts.flatMap printPart

def total (parts : List (Nat × SizeUnit)) : Nat := (parts.map fun p => p.1 * p.2.factor).sum

section

variable {parts : List (Nat × SizeUnit)}

theorem print_cons (p : Nat × SizeUnit) (parts : List (Nat × SizeUnit)) :
    print (p :: parts) = Nat.toDigits 10 p.1 ++ p.2.letter :: print parts := by
  rw [print, List.flatMap_cons, printPart, List.append_assoc]
  rfl

theorem total_cons (p : Nat × SizeUnit) (parts : List (Nat × SizeUnit)) :
    total (p :: parts) = p.1 * p.2.factor + total parts := by
  rw [total, List.map_cons, List.sum_cons]
  rfl

theorem isDigit_of_mem {n : Nat} {c : Char} (h : c ∈ Nat.toDigits 10 n) : c.isDigit = true :=
  Nat.isDigit_of_mem_toDigits (by decide) (by decide) h

/-- A text of parts begins with a digit. -/
theorem head?_print {c : Char} (h : (print parts).head? = some c) : c.isDigit = true := by
  cases parts with
  | nil => cases h
  | cons p parts =>
      obtain ⟨d, ds, digits⟩ :=
        List.exists_cons_of_ne_nil (Nat.toDigits_ne_nil (n := p.1) (b := 10))
      rw [print_cons, digits, List.cons_append, List.head?_cons] at h
      cases h
      exact isDigit_of_mem (n := p.1) (by rw [digits]; exact List.mem_cons_self)

/-- A text of parts has digits and the letters of units. -/
theorem mem_print {c : Char} (h : c ∈ print parts) :
    c.isDigit = true ∨ ∃ u : SizeUnit, c = u.letter := by
  obtain ⟨p, -, hc⟩ := List.mem_flatMap.mp h
  rcases List.mem_append.mp hc with digit | letter
  · exact .inl (isDigit_of_mem digit)
  · exact .inr ⟨p.2, List.mem_singleton.mp letter⟩

theorem toUppercase_print (table : CaseTable) (parts : List (Nat × SizeUnit)) :
    table.toUppercase (print parts) = print parts := by
  refine table.toUppercase_eq_self fun c hc => ?_
  rcases mem_print hc with digit | ⟨u, rfl⟩
  · exact Text.toUpper_of_isDigit digit
  · cases u <;> decide

/-- No letter of a unit has a `B` behind it. -/
theorem replacePair_print {mark : Char} (letter : mark.isDigit = false) (text : List Char)
    (parts : List (Nat × SizeUnit)) : replacePair mark 'B' text (print parts) = print parts := by
  induction parts with
  | nil => rfl
  | cons p parts ih =>
      have free : mark ∉ Nat.toDigits 10 p.1 := by
        intro h
        rw [isDigit_of_mem h] at letter
        cases letter
      have apart : (print parts).head? ≠ some 'B' := fun h => absurd (head?_print h) (by decide)
      rw [print_cons, Placeholders.replacePair_append_of_notMem free,
        Placeholders.replacePair_cons_of_head? apart, ih]

/-- The letters of the units, as `to_bytesize` looks for them. -/
theorem splitInclusive_print (parts : List (Nat × SizeUnit)) :
    splitInclusive (fun c => c = 'G' || c = 'M' || c = 'K' || c = 'B') (print parts) =
      parts.map printPart := by
  induction parts with
  | nil => rfl
  | cons p parts ih =>
      have free : ∀ d ∈ Nat.toDigits 10 p.1,
          (d = 'G' || d = 'M' || d = 'K' || d = 'B' : Bool) = false := by
        intro d hd
        have digit := isDigit_of_mem hd
        simp only [Bool.or_eq_false_iff, decide_eq_false_iff_not]
        refine ⟨⟨⟨?_, ?_⟩, ?_⟩, ?_⟩ <;> rintro rfl <;> exact absurd digit (by decide)
      have ends : (p.2.letter = 'G' || p.2.letter = 'M' || p.2.letter = 'K' ||
          p.2.letter = 'B' : Bool) = true := by
        cases p.2 <;> rfl
      rw [print_cons, Text.splitInclusive_append free ends, ih]
      rfl

/-- A part is read as its product. -/
theorem sizeOfPiece_printPart {n : Nat} (fits : n < usizeSize) (u : SizeUnit) :
    sizeOfPiece (printPart (n, u)) = mulUsize n u.factor := by
  unfold sizeOfPiece printPart
  dsimp only
  rw [List.getLast?_concat, List.dropLast_concat]
  dsimp only
  rw [Text.parseUnsigned_toDigits fits]
  dsimp only
  cases u with
  | g => rw [if_neg (by decide), if_neg (by decide), if_neg (by decide), if_pos (by decide),
      SizeUnit.factor]
  | m => rw [if_neg (by decide), if_neg (by decide), if_pos (by decide), SizeUnit.factor]
  | k => rw [if_neg (by decide), if_pos (by decide), SizeUnit.factor]
  | b =>
      have same : n * 1 < usizeSize := by rw [Nat.mul_one]; exact fits
      rw [if_pos (by decide), SizeUnit.factor, mulUsize, if_pos same, Nat.mul_one]

/-- The parts are added up, and the first product or sum out of range is a fault. -/
theorem sumPieces_parts {acc : Nat} (start : acc < usizeSize)
    (fits : ∀ p ∈ parts, p.1 < usizeSize) :
    sumPieces acc (parts.map printPart) =
      if acc + total parts < usizeSize then .ok (acc + total parts) else .fault .overflow := by
  induction parts generalizing acc with
  | nil => exact (if_pos start).symm
  | cons p parts ih =>
      obtain ⟨n, u⟩ := p
      obtain ⟨here, later⟩ := List.forall_mem_cons.mp fits
      rw [List.map_cons, sumPieces, sizeOfPiece_printPart here, total_cons, ← Nat.add_assoc]
      dsimp only
      by_cases product : n * u.factor < usizeSize
      · rw [mulUsize, if_pos product, Outcome.ok_bind]
        by_cases sum : acc + n * u.factor < usizeSize
        · rw [addUsize, if_pos sum, Outcome.ok_bind, ih sum later]
        · rw [addUsize, if_neg sum, if_neg (by omega)]
          rfl
      · rw [mulUsize, if_neg product, if_neg (by omega)]
        rfl

/-- A text of parts is read as their sum, if a `usize` holds it, and is a fault otherwise. -/
theorem toBytesize_print (table : CaseTable) (fits : ∀ p ∈ parts, p.1 < usizeSize) :
    toBytesize table (print parts) =
      if total parts < usizeSize then .ok (total parts) else .fault .overflow := by
  unfold toBytesize
  dsimp only
  rw [toUppercase_print, replacePair_print (by decide), replacePair_print (by decide),
    replacePair_print (by decide), splitInclusive_print, sumPieces_parts (by decide) fits,
    Nat.zero_add]

example : toBytesize CaseTable.asciiOnly "1g500Mb256K1024B".toList = .ok 1598292992 := by
  decide

/-! ## What is printed of a size -/

/-- A part that is not left out. -/
def nonzero (n : Nat) (u : SizeUnit) : List (Nat × SizeUnit) := if n > 0 then [(n, u)] else []

/-- The parts of a size. -/
def partsOf (v : Nat) : List (Nat × SizeUnit) :=
  nonzero (v / BYTESIZE_G) .g ++
    (nonzero (v % BYTESIZE_G / BYTESIZE_M) .m ++
      (nonzero (v % BYTESIZE_G % BYTESIZE_M / BYTESIZE_K) .k ++
        nonzero (v % BYTESIZE_G % BYTESIZE_M % BYTESIZE_K) .b))

theorem print_append (parts parts' : List (Nat × SizeUnit)) :
    print (parts ++ parts') = print parts ++ print parts' := List.flatMap_append

theorem total_append (parts parts' : List (Nat × SizeUnit)) :
    total (parts ++ parts') = total parts + total parts' := by
  rw [total, List.map_append, List.sum_append]
  rfl

theorem print_nonzero (n : Nat) (u : SizeUnit) :
    print (nonzero n u) = if n > 0 then Nat.toDigits 10 n ++ [u.letter] else [] := by
  unfold nonzero
  split
  · rw [print_cons]
    rfl
  · rfl

theorem total_nonzero (n : Nat) (u : SizeUnit) : total (nonzero n u) = n * u.factor := by
  unfold nonzero
  split
  · rw [total_cons]
    rfl
  · rename_i zero
    rw [Nat.eq_zero_of_not_pos zero, Nat.zero_mul]
    rfl

/-- A block leaves the rest, also where it prints nothing. -/
theorem pushUnit_eq (u : SizeUnit) (res : List Char) (v : Nat) :
    pushUnit u.factor u.letter res v =
      (res ++ print (nonzero (v / u.factor) u), v % u.factor) := by
  have pos : 0 < u.factor := by cases u <;> decide
  rw [print_nonzero]
  unfold pushUnit
  dsimp only
  split
  · rfl
  · rename_i none
    have small : v < u.factor := by
      rw [← Nat.div_eq_zero_iff_lt pos]
      exact Nat.eq_zero_of_not_pos none
    rw [List.append_nil, Nat.mod_eq_of_lt small]

theorem string_eq (size : Bytesize) : size.string = print (partsOf size.val.toNat) := by
  have g : ∀ res v, pushUnit BYTESIZE_G 'G' res v =
      (res ++ print (nonzero (v / BYTESIZE_G) .g), v % BYTESIZE_G) := pushUnit_eq .g
  have m : ∀ res v, pushUnit BYTESIZE_M 'M' res v =
      (res ++ print (nonzero (v / BYTESIZE_M) .m), v % BYTESIZE_M) := pushUnit_eq .m
  have k : ∀ res v, pushUnit BYTESIZE_K 'K' res v =
      (res ++ print (nonzero (v / BYTESIZE_K) .k), v % BYTESIZE_K) := pushUnit_eq .k
  simp only [Bytesize.string, g, m, k]
  rw [partsOf, print_append, print_append, print_append, print_nonzero _ .b]
  by_cases last : size.val.toNat % BYTESIZE_G % BYTESIZE_M % BYTESIZE_K > 0
  · rw [if_pos last, if_pos last]
    simp only [List.nil_append, List.append_assoc, SizeUnit.letter]
  · rw [if_neg last, if_neg last]
    simp only [List.nil_append, List.append_assoc, List.append_nil]

theorem total_partsOf (v : Nat) : total (partsOf v) = v := by
  unfold partsOf
  rw [total_append, total_append, total_append, total_nonzero, total_nonzero, total_nonzero,
    total_nonzero]
  unfold SizeUnit.factor BYTESIZE_G BYTESIZE_M BYTESIZE_K
  dsimp only
  omega

/-- Every part is at most the size. -/
theorem le_of_mem_partsOf {v : Nat} {p : Nat × SizeUnit} (h : p ∈ partsOf v) : p.1 ≤ v := by
  have pos : 0 < p.2.factor := by cases p.2 <;> decide
  calc p.1
      _ ≤ p.1 * p.2.factor := Nat.le_mul_of_pos_right _ pos
      _ ≤ total (partsOf v) :=
        List.single_le_sum (fun _ _ => Nat.zero_le _) _ (List.mem_map_of_mem h)
      _ = v := total_partsOf v

/-- A size that is printed is read back, and no product or sum on the way is out of range. -/
theorem toBytesize_string (table : CaseTable) (size : Bytesize) :
    toBytesize table size.string = .ok size.val.toNat := by
  have bound : size.val.toNat < usizeSize := size.val.toNat_lt
  rw [string_eq, toBytesize_print table fun p hp => Nat.lt_of_le_of_lt (le_of_mem_partsOf hp) bound,
    total_partsOf, if_pos bound]

end

end OxiMqtt.Utils

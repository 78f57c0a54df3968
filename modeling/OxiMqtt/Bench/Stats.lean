import Mathlib.Data.List.Induction
import OxiMqtt.Codec.Utils
import OxiMqtt.Lib.Histogram

/-!
# The statistics of the benchmark

`oximqtt-bench/src/stats.rs`: counters, and a histogram of latencies.  Its buckets are the numbers
below 64, and four for each power of two above.

* `bucketOf_high`, `bucketLower_high`: the bucket of a number from 64 on is told by its first three
  bits, and begins with the number that has these bits and no others.
* `histogram_sound`: the buckets, and what a percentile finds in them.
-/

namespace OxiMqtt.Bench

open Codec (leadingZeros)

/-! ## The buckets -/

/-- `BUCKETS` -/
def BUCKETS : Nat := 64 + 4 * 58

/-- `bucket_of` -/
def bucketOf (us : UInt64) : Nat :=
  if us < 64 then us.toNat
  else
    let il := 64 - leadingZeros 64 us.toNat
    let sub := ((us >>> UInt64.ofNat (il - 3)) &&& 0x3).toNat
    min (64 + (il - 7) * 4 + sub) (BUCKETS - 1)

/-- `bucket_lower` -/
def bucketLower (idx : Nat) : UInt64 :=
  if idx < 64 then UInt64.ofNat idx
  else
    let rel := idx - 64
    let il := 7 + rel / 4
    let sub := UInt64.ofNat (rel % 4)
    ((1 : UInt64) <<< UInt64.ofNat (il - 1)) + (sub <<< UInt64.ofNat (il - 3))

/-! ## The counters -/

/-- `Stats` -/
structure Stats : Type where
  connAttempts : Nat := 0
  connOk : Nat := 0
  connFail : Nat := 0
  activeConns : Int := 0
  subs : Nat := 0
  sends : Nat := 0
  sendBytes : Nat := 0
  recvs : Nat := 0
  recvBytes : Nat := 0
  pubAcks : Nat := 0
  inflight : Int := 0
  inflightFull : Nat := 0
  ackTimeouts : Nat := 0
  closes : Nat := 0
  reconnects : Nat := 0
  errors : Nat := 0
  pings : Nat := 0
  dups : Nat := 0
  recvsRetained : Nat := 0
  latencyN : Nat := 0
  latencySum : UInt64 := 0
  latencyMax : UInt64 := 0
  latency : List Nat := List.replicate BUCKETS 0
  lastErr : Option String := none
  deriving DecidableEq, Repr

namespace Stats

def connAttempt (s : Stats) : Stats := { s with connAttempts := s.connAttempts + 1 }

def connEstablished (s : Stats) : Stats :=
  { s with connOk := s.connOk + 1, activeConns := s.activeConns + 1 }

def connFailedN (s : Stats) (n : Nat) (err : String) : Stats :=
  { s with connFail := s.connFail + n, errors := s.errors + n, lastErr := some err }

def connFailed (s : Stats) (err : String) : Stats := s.connFailedN 1 err

def connClosed (s : Stats) : Stats :=
  { s with closes := s.closes + 1, activeConns := s.activeConns - 1 }

def reconnected (s : Stats) : Stats := { s with reconnects := s.reconnects + 1 }

def subscribed (s : Stats) : Stats := { s with subs := s.subs + 1 }

def sent (s : Stats) (bytes : Nat) : Stats :=
  { s with sends := s.sends + 1, sendBytes := s.sendBytes + bytes }

def received (s : Stats) (bytes : Nat) (retained : Bool) : Stats :=
  { s with
    recvs := s.recvs + 1
    recvBytes := s.recvBytes + bytes
    recvsRetained := if retained then s.recvsRetained + 1 else s.recvsRetained }

def acked (s : Stats) : Stats := { s with pubAcks := s.pubAcks + 1 }

def inflightInc (s : Stats) : Stats := { s with inflight := s.inflight + 1 }

def inflightDec (s : Stats) : Stats := { s with inflight := s.inflight - 1 }

def inflightBlocked (s : Stats) : Stats := { s with inflightFull := s.inflightFull + 1 }

def ackTimeout (s : Stats) : Stats :=
  { s with ackTimeouts := s.ackTimeouts + 1, errors := s.errors + 1 }

def pinged (s : Stats) : Stats := { s with pings := s.pings + 1 }

def duplicated (s : Stats) : Stats := { s with dups := s.dups + 1 }

def error (s : Stats) (err : String) : Stats :=
  { s with errors := s.errors + 1, lastErr := some err }

def recordLatency (s : Stats) (us : UInt64) : Stats :=
  { s with
    latency := s.latency.modify (bucketOf us) (· + 1)
    latencyN := s.latencyN + 1
    latencySum := s.latencySum + us
    latencyMax := max s.latencyMax us }

/-- `percentile`, from its target on, which is a rounded fraction of the number of samples. -/
def percentile (s : Stats) (target : Nat) : UInt64 :=
  if s.latencyN = 0 then 0
  else
    match Histogram.scan target 0 0 s.latency with
    | some idx => bucketLower idx
    | none => s.latencyMax

end Stats

/-! ## The bounds of a bucket -/

section

variable {x y : UInt64} {e : Nat}

theorem bucketOf_low (h : x.toNat < 64) : bucketOf x = x.toNat := if_pos h

/-- A number with `e + 1` bits lies between four and eight times the width of its bucket. -/
theorem octave_bounds {n e : Nat} (octave : n.log2 = e) (h : 64 ≤ n) :
    6 ≤ e ∧ 4 * 2 ^ (e - 2) ≤ n ∧ n < 8 * 2 ^ (e - 2) := by
  have nonzero : n ≠ 0 := by omega
  have many : 6 ≤ e := octave ▸ (Nat.le_log2 nonzero).mpr h
  have low := Nat.log2_self_le nonzero
  have high := Nat.lt_log2_self (n := n)
  obtain ⟨w, rfl⟩ := Nat.exists_eq_add_of_le' (show 2 ≤ e by omega)
  rw [octave] at low high
  rw [Nat.pow_succ, Nat.pow_succ] at low
  rw [Nat.pow_succ, Nat.pow_succ, Nat.pow_succ] at high
  rw [Nat.add_sub_cancel]
  omega

theorem octave_lt (octave : x.toNat.log2 = e) : e < 64 := by
  by_cases zero : x.toNat = 0
  · rw [← octave, zero]
    decide
  · exact octave ▸ (Nat.log2_lt zero).mpr x.toNat_lt

/-- The first three bits of a number. -/
theorem first_bits {n e : Nat} (octave : n.log2 = e) (h : 64 ≤ n) :
    4 ≤ n / 2 ^ (e - 2) ∧ n / 2 ^ (e - 2) < 8 := by
  obtain ⟨-, low, high⟩ := octave_bounds octave h
  have pos : 0 < 2 ^ (e - 2) := Nat.two_pow_pos _
  exact ⟨(Nat.le_div_iff_mul_le pos).mpr low, (Nat.div_lt_iff_lt_mul pos).mpr high⟩

/-- The bucket of a number with `e + 1` bits, by its first three bits. -/
theorem bucketOf_high (octave : x.toNat.log2 = e) (h : 64 ≤ x.toNat) :
    bucketOf x = 36 + 4 * e + x.toNat / 2 ^ (e - 2) := by
  have few := octave_lt octave
  have many := (octave_bounds octave h).1
  have bits := first_bits octave h
  have shift : (UInt64.ofNat (64 - (64 - 1 - e) - 3)).toNat % 64 = e - 2 := by
    rw [UInt64.toNat_ofNat']
    omega
  rw [bucketOf, if_neg (by rw [UInt64.lt_iff_toNat_lt]; exact Nat.not_lt.mpr h)]
  simp only [leadingZeros, if_neg (show x.toNat ≠ 0 by omega), octave, UInt64.toNat_and,
    UInt64.toNat_shiftRight, shift, Nat.shiftRight_eq_div_pow]
  rw [show (3 : UInt64).toNat = 2 ^ 2 - 1 from rfl, Nat.and_two_pow_sub_one_eq_mod]
  unfold BUCKETS
  omega

theorem bucketLower_low {idx : Nat} (h : idx < 64) : (bucketLower idx).toNat = idx := by
  rw [bucketLower, if_pos h, UInt64.toNat_ofNat']
  omega

/-- The first number of a bucket has the three bits, and no others. -/
theorem bucketLower_high {q : Nat} (many : 6 ≤ e) (few : e < 64) (first : 4 ≤ q) (last : q < 8) :
    (bucketLower (36 + 4 * e + q)).toNat = q * 2 ^ (e - 2) := by
  have fits : 8 * 2 ^ (e - 2) ≤ 2 ^ 64 := by
    rw [show 8 = 2 ^ 3 from rfl, ← Nat.pow_add]
    exact Nat.pow_le_pow_right (by decide) (by omega)
  have octave : 2 ^ e = 4 * 2 ^ (e - 2) := by
    rw [show 4 = 2 ^ 2 from rfl, ← Nat.pow_add]
    congr 1
    omega
  have bits : ∀ n, n < 64 → (UInt64.ofNat n).toNat % 64 = n := by
    intro n hn
    rw [UInt64.toNat_ofNat']
    omega
  have rel : 36 + 4 * e + q - 64 = 4 * (e - 6) + (q - 4) := by omega
  have group : (4 * (e - 6) + (q - 4)) / 4 = e - 6 := by omega
  have sub : (UInt64.ofNat ((4 * (e - 6) + (q - 4)) % 4)).toNat = q - 4 := by
    rw [UInt64.toNat_ofNat']
    omega
  rw [bucketLower, if_neg (by omega)]
  simp only [rel, group, UInt64.toNat_add, UInt64.toNat_shiftLeft, sub, Nat.shiftLeft_eq]
  rw [bits _ (by omega), bits _ (by omega), show 7 + (e - 6) - 1 = e by omega,
    show 7 + (e - 6) - 3 = e - 2 by omega, UInt64.toNat_one, Nat.one_mul, octave]
  generalize 2 ^ (e - 2) = width at fits
  obtain ⟨p, rfl⟩ := Nat.exists_eq_add_of_le first
  have sum : 4 * width + p * width = (4 + p) * width := (Nat.add_mul 4 p width).symm
  have bound : (4 + p) * width ≤ 7 * width := Nat.mul_le_mul_right width (by omega)
  rw [Nat.add_sub_cancel_left]
  omega

/-- The number is in its bucket, of which the width is less than a quarter of the first number. -/
theorem bucket_high (octave : x.toNat.log2 = e) (h : 64 ≤ x.toNat) :
    (bucketLower (bucketOf x)).toNat ≤ x.toNat ∧
      x.toNat < (bucketLower (bucketOf x)).toNat + 2 ^ (e - 2) ∧
      4 * 2 ^ (e - 2) ≤ (bucketLower (bucketOf x)).toNat := by
  have few := octave_lt octave
  have many := (octave_bounds octave h).1
  obtain ⟨first, last⟩ := first_bits octave h
  rw [bucketOf_high octave h, bucketLower_high many few first last]
  exact ⟨Nat.div_mul_le_self _ _, Nat.lt_div_mul_add (Nat.two_pow_pos _),
    Nat.mul_le_mul_right _ first⟩

theorem bucketOf_lt (x : UInt64) : bucketOf x < BUCKETS := by
  unfold BUCKETS
  rcases Nat.lt_or_ge x.toNat 64 with low | high
  · rw [bucketOf_low low]
    omega
  · have few := octave_lt (x := x) rfl
    have last := (first_bits rfl high).2
    rw [bucketOf_high rfl high]
    omega

theorem bucketLower_le (x : UInt64) : (bucketLower (bucketOf x)).toNat ≤ x.toNat := by
  rcases Nat.lt_or_ge x.toNat 64 with low | high
  · rw [bucketOf_low low, bucketLower_low low]
  · exact (bucket_high rfl high).1

theorem lt_bucketLower (next : bucketOf x + 1 < BUCKETS) :
    x.toNat < (bucketLower (bucketOf x + 1)).toNat := by
  unfold BUCKETS at next
  rcases Nat.lt_or_ge x.toNat 64 with low | high
  · rw [bucketOf_low low]
    rcases Nat.lt_or_ge (x.toNat + 1) 64 with inside | last
    · rw [bucketLower_low inside]
      omega
    · rw [show x.toNat + 1 = 36 + 4 * 6 + 4 by omega,
        bucketLower_high (by decide) (by decide) (by decide) (by decide)]
      omega
  · obtain ⟨-, above, -⟩ := bucket_high rfl high
    have many := (octave_bounds rfl high).1
    have few := octave_lt (x := x) rfl
    obtain ⟨first, last⟩ := first_bits rfl high
    rw [bucketOf_high rfl high] at above next ⊢
    rw [bucketLower_high many few first last, ← Nat.succ_mul] at above
    rcases Nat.lt_or_ge (x.toNat / 2 ^ (x.toNat.log2 - 2) + 1) 8 with inside | outside
    · rwa [Nat.add_assoc _ _ 1, bucketLower_high many few (by omega) inside]
    · -- the last bucket of the octave: the next one begins with the next power of two
      rw [show 36 + 4 * x.toNat.log2 + x.toNat / 2 ^ (x.toNat.log2 - 2) + 1 =
          36 + 4 * (x.toNat.log2 + 1) + 4 by omega,
        bucketLower_high (by omega) (by omega) (by decide) (by decide)]
      have bound := (octave_bounds rfl high).2.2
      rw [show x.toNat.log2 + 1 - 2 = x.toNat.log2 - 2 + 1 by omega, Nat.pow_succ]
      omega

theorem bucketOf_mono (h : x.toNat ≤ y.toNat) : bucketOf x ≤ bucketOf y := by
  rcases Nat.lt_or_ge x.toNat 64 with low | high
  · rw [bucketOf_low low]
    rcases Nat.lt_or_ge y.toNat 64 with low' | high'
    · rwa [bucketOf_low low']
    · have many := (octave_bounds rfl high').1
      have first := (first_bits rfl high').1
      rw [bucketOf_high rfl high']
      omega
  · have high' : 64 ≤ y.toNat := Nat.le_trans high h
    have octaves : x.toNat.log2 ≤ y.toNat.log2 :=
      (Nat.le_log2 (by omega)).mpr (Nat.le_trans (Nat.log2_self_le (by omega)) h)
    have last := (first_bits rfl high).2
    have first := (first_bits rfl high').1
    rw [bucketOf_high rfl high, bucketOf_high rfl high']
    rcases Nat.lt_or_eq_of_le octaves with less | same
    · omega
    · rw [same]
      exact Nat.add_le_add_left (Nat.div_le_div_right h) _

end

/-! ## The percentiles -/

namespace Stats

/-- The statistics after some samples. -/
def recorded (samples : List UInt64) : Stats := samples.foldl recordLatency {}

theorem recorded_append_singleton (samples : List UInt64) (us : UInt64) :
    recorded (samples ++ [us]) = (recorded samples).recordLatency us := List.foldl_append

/-- The histogram counts the samples. -/
theorem recorded_counts (samples : List UInt64) :
    (recorded samples).latency = Histogram.counts bucketOf BUCKETS samples ∧
      (recorded samples).latencyN = samples.length := by
  induction samples using List.reverseRecOn with
  | nil => exact ⟨(Histogram.counts_nil _ _).symm, rfl⟩
  | append_singleton samples us ih =>
      obtain ⟨counts, number⟩ := ih
      rw [recorded_append_singleton]
      constructor
      · rw [Histogram.counts_append_singleton, ← counts]
        rfl
      · rw [List.length_append, ← number]
        rfl

/-- The samples in their order. -/
def sorted (samples : List UInt64) : List UInt64 := samples.mergeSort fun a b => decide (a ≤ b)

theorem pairwise_sorted (samples : List UInt64) :
    (sorted samples).Pairwise (bucketOf · ≤ bucketOf ·) := by
  refine (List.pairwise_mergeSort (fun a b c ab bc => ?_) (fun a b => ?_) samples).imp
    fun {a b} ab => ?_
  · exact decide_eq_true (UInt64.le_trans (of_decide_eq_true ab) (of_decide_eq_true bc))
  · rw [Bool.or_eq_true, decide_eq_true_eq, decide_eq_true_eq]
    exact UInt64.le_total a b
  · exact bucketOf_mono (of_decide_eq_true ab)

/-- The percentile with a rank as its target is the lower bound of the bucket of the sample of that
rank. -/
theorem percentile_recorded {samples : List UInt64} {k : Nat} {x : UInt64} (pos : 1 ≤ k)
    (rank : (sorted samples)[k - 1]? = some x) :
    (recorded samples).percentile k = bucketLower (bucketOf x) := by
  have perm : (sorted samples).Perm samples := List.mergeSort_perm _ _
  obtain ⟨counts, number⟩ := recorded_counts samples
  have some : samples.length ≠ 0 := by
    rw [← perm.length_eq]
    have within := (List.getElem?_eq_some_iff.mp rank).1
    omega
  rw [percentile, number, if_neg some, counts,
    Histogram.scan_counts bucketOf perm (pairwise_sorted samples) pos rank (bucketOf_lt x)]

end Stats

/-- The buckets are in the order of the numbers and hold them within a quarter of their lower bound;
a percentile is the lower bound of the bucket of the sample of that rank. -/
theorem histogram_sound :
    (∀ x : UInt64, bucketOf x < BUCKETS ∧ bucketLower (bucketOf x) ≤ x ∧
      (bucketOf x + 1 < BUCKETS → x < bucketLower (bucketOf x + 1)) ∧
      (64 ≤ x → 4 * (x - bucketLower (bucketOf x)).toNat < (bucketLower (bucketOf x)).toNat)) ∧
    (∀ x y : UInt64, x ≤ y → bucketOf x ≤ bucketOf y) ∧
    ∀ (samples : List UInt64) (k : Nat), 1 ≤ k → k ≤ samples.length →
      ∃ x, (Stats.sorted samples)[k - 1]? = some x ∧
        (Stats.recorded samples).percentile k = bucketLower (bucketOf x) ∧
        (Stats.recorded samples).percentile k ≤ x := by
  refine ⟨fun x => ⟨bucketOf_lt x, ?_, fun next => ?_, fun high => ?_⟩, fun x y h => ?_,
    fun samples k pos few => ?_⟩
  · exact UInt64.le_iff_toNat_le.mpr (bucketLower_le x)
  · exact UInt64.lt_iff_toNat_lt.mpr (lt_bucketLower next)
  · obtain ⟨below, above, width⟩ := bucket_high (x := x) rfl (UInt64.le_iff_toNat_le.mp high)
    rw [UInt64.toNat_sub_of_le _ _ (UInt64.le_iff_toNat_le.mpr below)]
    omega
  · exact bucketOf_mono (UInt64.le_iff_toNat_le.mp h)
  · have within : k - 1 < (Stats.sorted samples).length := by
      rw [Stats.sorted, List.length_mergeSort]
      omega
    have rank := List.getElem?_eq_getElem within
    have found := Stats.percentile_recorded pos rank
    refine ⟨_, rank, found, ?_⟩
    rw [found]
    exact UInt64.le_iff_toNat_le.mpr (bucketLower_le _)

end OxiMqtt.Bench

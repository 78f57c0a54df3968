import Mathlib.Data.List.TakeDrop
import OxiMqtt.Lib.Machine

/-!
# The circuit breaker

`utils/circuit_breaker.rs`.  The circuit, the two counters and the time of its opening are separate
atomics.  A call is a sequence of loads and stores of them and of readings of the clock; the steps
of any number of calls interleave, and each has a time, no less than those before.

`record_failure` stores OPEN first, and the time of the opening two steps later.  A call that loads
the time in between compares the clock with an earlier opening.  A call that has made its decision
stores it also where the circuit was opened in the meantime.

* `Inv.step`: what every step keeps that is not of this kind.
* `stays_open`: the runs of such steps keep the circuit open for the reset time.
* `passed_while_opening`: one that does not.
-/

namespace OxiMqtt.Utils

/-- `i64` milliseconds. -/
abbrev TimestampMillis : Type := Int

namespace CircuitBreaker

/-- `CircuitState`, and the constants `CLOSED`, `OPEN` and `HALF_OPEN`. -/
inductive CircuitState : Type
  | closed
  | opened
  | halfOpen
  deriving DecidableEq, Repr

/-- `CircuitBreakerConfig`; a `Duration` is in nanoseconds. -/
structure CircuitBreakerConfig : Type where
  enabled : Bool
  failureThreshold : UInt64
  resetTimeout : Nat
  halfOpenSuccessThreshold : UInt64
  deriving DecidableEq, Repr

namespace CircuitBreakerConfig

/-- `self.config.reset_timeout.as_millis() as u64` -/
def resetMs (cfg : CircuitBreakerConfig) : UInt64 := UInt64.ofNat (cfg.resetTimeout / 1000000)

/-- The reset time has passed at `now` since `opened`. -/
def Passed (cfg : CircuitBreakerConfig) (opened now : Int) : Prop :=
  opened * 1000000 + cfg.resetTimeout ≤ now * 1000000

instance (cfg : CircuitBreakerConfig) (opened now : Int) :
    Decidable (cfg.Passed opened now) :=
  inferInstanceAs (Decidable (_ ≤ _))

/-- The reset time is a number of milliseconds that fits a `u64`. -/
def WholeMillis (cfg : CircuitBreakerConfig) : Prop :=
  cfg.resetMs.toNat * 1000000 = cfg.resetTimeout

instance (cfg : CircuitBreakerConfig) : Decidable cfg.WholeMillis :=
  inferInstanceAs (Decidable (_ = _))

end CircuitBreakerConfig

/-- A call of `is_blocked`: its start, and when the circuit had been opened before it. -/
structure Query : Type where
  start : TimestampMillis
  before : List TimestampMillis
  deriving DecidableEq, Repr

/-- What a call of `is_blocked` returned. -/
structure Answer : Type where
  query : Query
  blocked : Bool
  deriving DecidableEq, Repr

/-- Where a call is, by the step it takes next.  `seen` is the number of openings when it made the
decision that it is about to store. -/
inductive Call : Type
  /-- `is_blocked`, after it loaded OPEN. -/
  | readClock (query : Query)
  | loadOpenedAt (query : Query) (now : TimestampMillis)
  | resetSuccesses (query : Query) (seen : Nat)
  | storeHalfOpen (query : Query) (seen : Nat)
  /-- `record_success`, after it loaded CLOSED, or HALF_OPEN. -/
  | clearFailures
  | countSuccess (seen : Nat)
  | storeClosed (seen : Nat)
  | clearFailuresClosed
  | clearSuccesses
  /-- `record_failure`, after it loaded CLOSED, or HALF_OPEN. -/
  | countFailure
  | storeOpen
  | readOpened
  | storeOpenedAt (now : TimestampMillis)
  | returned
  deriving DecidableEq, Repr

/-- `CircuitBreaker`, with its calls, and what became of it: the times when OPEN was stored, and the
answers of `is_blocked`. -/
structure State : Type where
  clock : TimestampMillis
  state : CircuitState := .closed
  failureCount : UInt64 := 0
  openedAt : TimestampMillis := 0
  successCount : UInt64 := 0
  calls : List Call := []
  openings : List TimestampMillis := []
  answers : List Answer := []
  deriving DecidableEq, Repr

namespace State

/-- `is_blocked` returns. -/
def answer (s : State) (query : Query) (blocked : Bool) : State :=
  { s with answers := s.answers ++ [⟨query, blocked⟩] }

/-- `is_blocked`, to its load of the state. -/
def isBlocked (cfg : CircuitBreakerConfig) (s : State) : State × Call :=
  let query : Query := ⟨s.clock, s.openings⟩
  if !cfg.enabled then (s.answer query false, .returned)
  else
    match s.state with
    | .closed => (s.answer query false, .returned)
    | .halfOpen => (s.answer query false, .returned)
    | .opened => (s, .readClock query)

/-- `record_success`, to its load of the state. -/
def recordSuccess (s : State) : Call :=
  match s.state with
  | .closed => .clearFailures
  | .halfOpen => .countSuccess s.openings.length
  | .opened => .returned

/-- `record_failure`, to its load of the state. -/
def recordFailure (s : State) : Call :=
  match s.state with
  | .closed => .countFailure
  | .halfOpen => .storeOpen
  | .opened => .returned

end State

/-- `elapsed_ms >= reset_ms` -/
def elapsed (cfg : CircuitBreakerConfig) (now openedAt : Int) : Bool :=
  UInt64.ofInt (now - openedAt) ≥ cfg.resetMs

/-- The next step of a call. -/
def Call.step (cfg : CircuitBreakerConfig) (s : State) : Call → Option (State × Call)
  | .readClock query => some (s, .loadOpenedAt query s.clock)
  | .loadOpenedAt query now =>
      if elapsed cfg now s.openedAt then some (s, .resetSuccesses query s.openings.length)
      else some (s.answer query true, .returned)
  | .resetSuccesses query seen => some ({ s with successCount := 0 }, .storeHalfOpen query seen)
  | .storeHalfOpen query _ => some ({ s with state := .halfOpen }.answer query false, .returned)
  | .clearFailures => some ({ s with failureCount := 0 }, .returned)
  | .countSuccess seen =>
      let c := s.successCount + 1
      some ({ s with successCount := c },
        if c ≥ cfg.halfOpenSuccessThreshold then .storeClosed seen else .returned)
  | .storeClosed _ => some ({ s with state := .closed }, .clearFailuresClosed)
  | .clearFailuresClosed => some ({ s with failureCount := 0 }, .clearSuccesses)
  | .clearSuccesses => some ({ s with successCount := 0 }, .returned)
  | .countFailure =>
      let c := s.failureCount + 1
      some ({ s with failureCount := c },
        if c ≥ cfg.failureThreshold then .storeOpen else .returned)
  | .storeOpen =>
      some ({ s with state := .opened, openings := s.openings ++ [s.clock] }, .readOpened)
  | .readOpened => some (s, .storeOpenedAt s.clock)
  | .storeOpenedAt now => some ({ s with openedAt := now }, .returned)
  | .returned => none

/-- A step at some time: a call begins with its load of the state, or the `i`-th call goes on. -/
inductive Action : Type
  | isBlocked (now : TimestampMillis)
  | recordSuccess (now : TimestampMillis)
  | recordFailure (now : TimestampMillis)
  | step (now : TimestampMillis) (i : Nat)
  deriving DecidableEq, Repr

def Action.now : Action → TimestampMillis
  | .isBlocked now => now
  | .recordSuccess now => now
  | .recordFailure now => now
  | .step now _ => now

def step (cfg : CircuitBreakerConfig) (s : State) (a : Action) : Option State :=
  if s.clock ≤ a.now then
    let s := { s with clock := a.now }
    match a with
    | .isBlocked _ =>
        let (s, c) := s.isBlocked cfg
        some { s with calls := s.calls ++ [c] }
    | .recordSuccess _ => some { s with calls := s.calls ++ [s.recordSuccess] }
    | .recordFailure _ => some { s with calls := s.calls ++ [s.recordFailure] }
    | .step _ i => do
        let c ← s.calls[i]?
        let (s, c) ← c.step cfg s
        return { s with calls := s.calls.set i c }
  else none

/-! ## The circuit stays open -/

/-- A call of `is_blocked` that begins after the circuit was opened, and before the reset time has
passed, does not let its caller through. -/
def StaysOpen (cfg : CircuitBreakerConfig) (s : State) : Prop :=
  ∀ a ∈ s.answers, a.blocked = false → ∀ opened ∈ a.query.before,
    cfg.Passed opened a.query.start

instance (cfg : CircuitBreakerConfig) (s : State) : Decidable (StaysOpen cfg s) :=
  inferInstanceAs (Decidable (∀ a ∈ s.answers, _))

/-- What is right of a call that goes on at some time.  Where `is_blocked` finds the reset time
elapsed, the time that it compares with is that of the last opening and not behind its clock, and
the reset time did not end between the start of the call and its reading of the clock.  Where
HALF_OPEN or CLOSED is stored, the circuit was not opened since the call decided on it, or the reset
time has passed since. -/
def Call.Settled (cfg : CircuitBreakerConfig) (s : State) (now : TimestampMillis) : Call → Prop
  | .loadOpenedAt query reading => elapsed cfg reading s.openedAt = true →
      (∀ opened ∈ s.openings, opened ≤ s.openedAt ∧ s.openedAt ≤ reading) ∧
        ∀ opened ∈ query.before, cfg.Passed opened query.start ∨ ¬ cfg.Passed opened reading
  | .storeHalfOpen _ seen => ∀ opened ∈ s.openings.drop seen, cfg.Passed opened now
  | .storeClosed seen => ∀ opened ∈ s.openings.drop seen, cfg.Passed opened now
  | _ => True

instance (cfg : CircuitBreakerConfig) (s : State) (now : TimestampMillis) :
    (c : Call) → Decidable (c.Settled cfg s now)
  | .loadOpenedAt _ _ => inferInstanceAs (Decidable (_ → _ ∧ _))
  | .storeHalfOpen _ _ | .storeClosed _ => inferInstanceAs (Decidable (∀ _ ∈ _, _))
  | .readClock _ | .resetSuccesses _ _ | .clearFailures | .countSuccess _ | .clearFailuresClosed
  | .clearSuccesses | .countFailure | .storeOpen | .readOpened | .storeOpenedAt _ | .returned =>
      isTrue trivial

def Settled (cfg : CircuitBreakerConfig) (s : State) : Action → Prop
  | .step now i => ∀ c ∈ s.calls[i]?, c.Settled cfg s now
  | _ => True

instance (cfg : CircuitBreakerConfig) (s : State) : (a : Action) → Decidable (Settled cfg s a)
  | .step now i => inferInstanceAs (Decidable (∀ c ∈ s.calls[i]?, c.Settled cfg s now))
  | .isBlocked _ | .recordSuccess _ | .recordFailure _ => isTrue trivial

/-! ## What every settled step keeps -/

section

variable {cfg : CircuitBreakerConfig} {s s' : State} {opened now now' : Int}

theorem CircuitBreakerConfig.Passed.mono (passed : cfg.Passed opened now) (later : now ≤ now') :
    cfg.Passed opened now' := by
  unfold CircuitBreakerConfig.Passed at *
  omega

/-- A reset time that is found elapsed has passed, where the clock is not behind. -/
theorem passed_of_elapsed (whole : cfg.WholeMillis) {openedAt : Int}
    (found : elapsed cfg now openedAt = true) (since : opened ≤ openedAt) (past : openedAt ≤ now) :
    cfg.Passed opened now := by
  have compared : cfg.resetMs.toNat ≤ (UInt64.ofInt (now - openedAt)).toNat :=
    UInt64.le_iff_toNat_le.mp (of_decide_eq_true found)
  -- the clock is not behind, so the cast can only lose milliseconds
  have cast : (UInt64.ofInt (now - openedAt)).toNat =
      ((now - openedAt) % 18446744073709551616).toNat % 18446744073709551616 :=
    UInt64.toNat_ofNat'
  unfold CircuitBreakerConfig.WholeMillis at whole
  unfold CircuitBreakerConfig.Passed
  omega

/-- What a call relies on: the openings before an `is_blocked`, and what it has found out of them;
for a call that decided to leave OPEN or HALF_OPEN, that the reset time had passed. -/
def CallOk (cfg : CircuitBreakerConfig) (openings : List TimestampMillis)
    (clock : TimestampMillis) : Call → Prop
  | .readClock query => query.before ⊆ openings
  | .loadOpenedAt query now => query.before ⊆ openings ∧ now ≤ clock
  | .resetSuccesses query seen | .storeHalfOpen query seen =>
      (∀ opened ∈ query.before, cfg.Passed opened query.start) ∧ seen ≤ openings.length ∧
        ∀ opened ∈ openings.take seen, cfg.Passed opened clock
  | .countSuccess seen | .storeClosed seen =>
      seen ≤ openings.length ∧ ∀ opened ∈ openings.take seen, cfg.Passed opened clock
  | _ => True

/-- A call that waits keeps what it relies on. -/
theorem CallOk.later {openings : List TimestampMillis} {c : Call} (ok : CallOk cfg openings now c)
    (since : List TimestampMillis) (later : now ≤ now') :
    CallOk cfg (openings ++ since) now' c := by
  have seen : ∀ {n : Nat},
    (n ≤ openings.length ∧ ∀ opened ∈ openings.take n, cfg.Passed opened now) →
      n ≤ (openings ++ since).length ∧
        ∀ opened ∈ (openings ++ since).take n, cfg.Passed opened now' := by
    intro n h
    obtain ⟨few, passed⟩ := h
    rw [List.take_append_of_le_length few, List.length_append]
    exact ⟨Nat.le_add_right_of_le few, fun opened h => (passed opened h).mono later⟩
  cases c with
  | readClock query => exact fun opened h => List.mem_append_left _ (ok h)
  | loadOpenedAt query reading =>
      exact ⟨fun opened h => List.mem_append_left _ (ok.1 h), Int.le_trans ok.2 later⟩
  | resetSuccesses query n => exact ⟨ok.1, seen ok.2⟩
  | storeHalfOpen query n => exact ⟨ok.1, seen ok.2⟩
  | countSuccess n => exact seen ok
  | storeClosed n => exact seen ok
  | _ => trivial

/-- Where the circuit is not open, the reset time has passed since it was; the calls may rely on
what they do; and what was answered is right. -/
structure Inv (cfg : CircuitBreakerConfig) (s : State) : Prop where
  left : s.state ≠ .opened → ∀ opened ∈ s.openings, cfg.Passed opened s.clock
  calls : ∀ c ∈ s.calls, CallOk cfg s.openings s.clock c
  stays : StaysOpen cfg s

theorem Inv.tick (inv : Inv cfg s) (later : s.clock ≤ now) : Inv cfg { s with clock := now } where
  left state opened h := (inv.left state opened h).mono later
  calls c hc := by
    have ok := (inv.calls c hc).later [] later
    rwa [List.append_nil] at ok
  stays := inv.stays

/-- An answer that is given where the reset time has passed, or blocks. -/
theorem StaysOpen.answer (stays : StaysOpen cfg s) {query : Query} {blocked : Bool}
    (right : blocked = false → ∀ opened ∈ query.before, cfg.Passed opened query.start) :
    StaysOpen cfg (s.answer query blocked) := by
  intro a ha
  rcases List.mem_append.mp ha with old | new
  · exact stays a old
  · rw [List.mem_singleton.mp new]
    exact right

/-- What the step of a call leaves of the invariant. -/
structure Keeps (cfg : CircuitBreakerConfig) (s s' : State) (c' : Call) : Prop where
  clock : s'.clock = s.clock
  calls : s'.calls = s.calls
  openings : ∃ since, s'.openings = s.openings ++ since
  left : s'.state ≠ .opened → ∀ opened ∈ s'.openings, cfg.Passed opened s'.clock
  call : CallOk cfg s'.openings s'.clock c'
  stays : StaysOpen cfg s'

/-- A step that leaves circuit, openings and answers as they are. -/
theorem Inv.keeps (inv : Inv cfg s) (c' : Call) (ok : CallOk cfg s.openings s.clock c')
    (failureCount successCount : UInt64) (openedAt : TimestampMillis) :
    Keeps cfg s { s with failureCount, successCount, openedAt } c' :=
  ⟨rfl, rfl, ⟨[], (List.append_nil _).symm⟩, inv.left, ok, inv.stays⟩

/-- The openings that a decision knew of, and those since. -/
theorem passed_of_seen {openings : List TimestampMillis} {seen : Nat}
    (known : ∀ opened ∈ openings.take seen, cfg.Passed opened now)
    (since : ∀ opened ∈ openings.drop seen, cfg.Passed opened now) :
    ∀ opened ∈ openings, cfg.Passed opened now := by
  rw [← List.take_append_drop seen openings, List.forall_mem_append]
  exact ⟨known, since⟩

theorem Inv.callStep (inv : Inv cfg s) (whole : cfg.WholeMillis) {c c' : Call}
    (ok : CallOk cfg s.openings s.clock c) (settled : c.Settled cfg s s.clock)
    (stepped : c.step cfg s = some (s', c')) : Keeps cfg s s' c' := by
  cases c with
  | readClock query =>
      cases stepped
      exact inv.keeps (.loadOpenedAt query s.clock) ⟨ok, Int.le_refl _⟩ _ _ _
  | loadOpenedAt query reading =>
      change (if elapsed cfg reading s.openedAt then _ else _) = some _ at stepped
      split at stepped
      · rename_i found
        cases stepped
        obtain ⟨latest, began⟩ := settled found
        have passed : ∀ opened ∈ s.openings, cfg.Passed opened reading := fun opened h =>
          passed_of_elapsed whole found (latest opened h).1 (latest opened h).2
        refine inv.keeps (.resetSuccesses query s.openings.length)
          ⟨fun opened h => ?_, Nat.le_refl _, fun opened h => ?_⟩ _ _ _
        · exact (began opened h).resolve_right (not_not.mpr (passed opened (ok.1 h)))
        · exact (passed opened (List.mem_of_mem_take h)).mono ok.2
      · cases stepped
        exact ⟨rfl, rfl, ⟨[], (List.append_nil _).symm⟩, inv.left, trivial,
          inv.stays.answer fun blocked => by cases blocked⟩
  | resetSuccesses query seen =>
      cases stepped
      exact inv.keeps (.storeHalfOpen query seen) ok _ _ _
  | storeHalfOpen query seen =>
      cases stepped
      exact ⟨rfl, rfl, ⟨[], (List.append_nil _).symm⟩,
        fun _ => passed_of_seen ok.2.2 settled, trivial, inv.stays.answer fun _ => ok.1⟩
  | clearFailures =>
      cases stepped
      exact inv.keeps .returned trivial _ _ _
  | countSuccess seen =>
      cases stepped
      refine inv.keeps _ ?_ _ _ _
      split
      · exact ok
      · trivial
  | storeClosed seen =>
      cases stepped
      exact ⟨rfl, rfl, ⟨[], (List.append_nil _).symm⟩,
        fun _ => passed_of_seen ok.2 settled, trivial, inv.stays⟩
  | clearFailuresClosed =>
      cases stepped
      exact inv.keeps .clearSuccesses trivial _ _ _
  | clearSuccesses =>
      cases stepped
      exact inv.keeps .returned trivial _ _ _
  | countFailure =>
      cases stepped
      refine inv.keeps _ ?_ _ _ _
      split <;> trivial
  | storeOpen =>
      cases stepped
      exact ⟨rfl, rfl, ⟨[s.clock], rfl⟩, fun closed => absurd rfl closed, trivial, inv.stays⟩
  | readOpened =>
      cases stepped
      exact inv.keeps (.storeOpenedAt s.clock) trivial _ _ _
  | storeOpenedAt reading =>
      cases stepped
      exact inv.keeps .returned trivial _ _ _
  | returned => cases stepped

/-- A call begins with what it may rely on. -/
theorem Inv.begin (inv : Inv cfg s) {c : Call} (ok : CallOk cfg s.openings s.clock c) :
    Inv cfg { s with calls := s.calls ++ [c] } where
  left := inv.left
  calls := List.forall_mem_append.mpr ⟨inv.calls, List.forall_mem_singleton.mpr ok⟩
  stays := inv.stays

theorem Inv.isBlocked (inv : Inv cfg s) (enabled : cfg.enabled = true) {c : Call}
    (began : s.isBlocked cfg = (s', c)) : Inv cfg { s' with calls := s'.calls ++ [c] } := by
  have through : s.state ≠ .opened →
      Inv cfg { s.answer ⟨s.clock, s.openings⟩ false with calls := s.calls ++ [.returned] } :=
    fun state =>
      (Inv.mk inv.left inv.calls (inv.stays.answer fun _ => inv.left state) :
        Inv cfg (s.answer _ false)).begin (c := .returned) trivial
  unfold State.isBlocked at began
  rw [enabled] at began
  simp only [Bool.not_true, Bool.false_eq_true, if_false] at began
  split at began
  · rename_i state
    cases began
    exact through (by rw [state]; decide)
  · rename_i state
    cases began
    exact through (by rw [state]; decide)
  · cases began
    exact inv.begin (c := .readClock ⟨s.clock, s.openings⟩) (List.Subset.refl _)

theorem Inv.recordSuccess (inv : Inv cfg s) :
    Inv cfg { s with calls := s.calls ++ [s.recordSuccess] } := by
  refine inv.begin ?_
  unfold State.recordSuccess
  split
  · trivial
  · rename_i state
    refine ⟨Nat.le_refl _, fun opened h => ?_⟩
    exact inv.left (by rw [state]; decide) opened (List.mem_of_mem_take h)
  · trivial

theorem Inv.recordFailure (inv : Inv cfg s) :
    Inv cfg { s with calls := s.calls ++ [s.recordFailure] } := by
  refine inv.begin ?_
  unfold State.recordFailure
  split <;> trivial

theorem Inv.step (inv : Inv cfg s) (enabled : cfg.enabled = true) (whole : cfg.WholeMillis)
    {a : Action} (settled : Settled cfg s a) (stepped : step cfg s a = some s') : Inv cfg s' := by
  obtain ⟨later, stepped⟩ := Option.ite_none_right_eq_some.mp stepped
  have ticked := inv.tick later
  cases a with
  | isBlocked now =>
      cases stepped
      exact ticked.isBlocked enabled rfl
  | recordSuccess now =>
      cases stepped
      exact ticked.recordSuccess
  | recordFailure now =>
      cases stepped
      exact ticked.recordFailure
  | step now i =>
      obtain ⟨c, found, stepped⟩ := Option.bind_eq_some_iff.mp stepped
      obtain ⟨⟨t, c'⟩, moved, eq⟩ := Option.bind_eq_some_iff.mp stepped
      cases eq
      have ok := ticked.calls c (List.mem_of_getElem? found)
      have keeps := ticked.callStep whole ok (settled c found) moved
      obtain ⟨since, grown⟩ := keeps.openings
      refine ⟨keeps.left, fun d hd => ?_, keeps.stays⟩
      change d ∈ t.calls.set i c' at hd
      rcases List.mem_or_eq_of_mem_set hd with old | rfl
      · rw [keeps.calls] at old
        change CallOk cfg t.openings t.clock d
        rw [grown, keeps.clock]
        exact (ticked.calls d old).later since (Int.le_refl _)
      · exact keeps.call

/-- In a run whose steps are settled, the circuit stays open for the reset time. -/
theorem stays_open (enabled : cfg.enabled = true) (whole : cfg.WholeMillis)
    (clock : TimestampMillis) (actions : List Action)
    (settled : Machine.Guarded (step cfg) (Settled cfg) { clock } actions)
    (ran : Machine.run (step cfg) { clock } actions = some s') : StaysOpen cfg s' := by
  have initial : Inv cfg { clock } :=
    ⟨fun _ _ h => absurd h List.not_mem_nil, fun _ h => absurd h List.not_mem_nil,
      fun _ h => absurd h List.not_mem_nil⟩
  exact (Machine.invariant_guarded
    (fun _ _ _ inv settled stepped => inv.step enabled whole settled stepped)
    settled ran initial).stays

end

/-! ## Two runs -/

/-- A failure opens the circuit, for 10 ms. -/
def tripping : CircuitBreakerConfig where
  enabled := true
  failureThreshold := 1
  resetTimeout := 10000000
  halfOpenSuccessThreshold := 1

/-- A call fails, and others are made when it has recorded that. -/
def failed : List Action :=
  [.recordFailure 100, .step 100 0, .step 100 0, .step 101 0, .step 101 0, .isBlocked 105,
    .step 105 1, .step 105 1, .isBlocked 111, .step 111 2, .step 111 2, .step 111 2, .step 111 2]

theorem stays_open_failed :
    ∃ s ∈ Machine.run (step tripping) { clock := 0 } failed,
      s.answers.map Answer.blocked = [true, false] ∧ StaysOpen tripping s := by
  have ran : (Machine.run (step tripping) { clock := 0 } failed).isSome := by decide
  have settled : Machine.Guarded (step tripping) (Settled tripping) { clock := 0 } failed := by
    decide
  exact ⟨_, Option.get_mem ran, rfl,
    stays_open rfl (by decide) 0 failed settled (Option.get_mem ran)⟩

/-- OPEN is stored, and the time of the opening is not: the call that comes then is let through. -/
theorem passed_while_opening :
    ∃ s ∈ Machine.run (step tripping) { clock := 0 }
        [.recordFailure 100, .step 100 0, .step 100 0, .isBlocked 100, .step 100 1, .step 100 1,
          .step 100 1, .step 100 1],
      s.answers = [⟨⟨100, [100]⟩, false⟩] ∧ ¬ StaysOpen tripping s := by
  decide

end CircuitBreaker

end OxiMqtt.Utils

import Mathlib.Logic.Function.Basic
import OxiMqtt.Lib.Collections
import OxiMqtt.Lib.Machine
import OxiMqtt.Router.Collector

/-!
# The lock of a handshake

`LockEntry` of `shared.rs`.  The lock of a client id is a mutex in the map `lockers`.  `try_lock`
puts one there if there is none and takes it; the drop of the entry removes the mutex from the map,
and then releases it.  Each of these is one step, and the steps of any number of entries interleave.

Between the two steps of a drop the mutex is out of the map and still taken, and another entry may
hold a new mutex for the same client id.

* `Inv`: what holds in every state, with `Inv.step` for one step.
* `lockers_exclusive`: a client id has one live holder at most, its mutex is the one in the map, and
  `try_lock` succeeds exactly when there is none.
-/

namespace OxiMqtt.Session.Lockers

open Collections
open Router (ClientId)

/-- An `Arc<Mutex<()>>`, by the number of its allocation. -/
abbrev Mutex : Type := Nat

/-- `LockEntry`, with the guard that it may have, and whether its drop has begun. -/
structure LockEntry : Type where
  clientId : ClientId
  locker : Option Mutex
  dropping : Bool
  deriving DecidableEq, Repr

/-- The map, the mutexes that are taken, the entries by their numbers, and the numbers that have
been given to mutexes and entries. -/
structure State : Type where
  lockers : Assoc ClientId Mutex := []
  locked : Mutex → Bool := fun _ => false
  entries : Nat → Option LockEntry := fun _ => none
  mutexes : Nat := 0
  created : Nat := 0

/-- A step of an entry, by its number. -/
inductive Action : Type
  /-- `Shared::entry`: a new entry, without a guard. -/
  | entry (clientId : ClientId)
  /-- The statement of `try_lock`. -/
  | tryLock (i : Nat)
  /-- The removal in the drop of the entry. -/
  | drop (i : Nat)
  /-- The release of the guard, with which the drop ends. -/
  | release (i : Nat)
  deriving DecidableEq, Repr

namespace State

/-- `LockEntry::new` -/
def newEntry (s : State) (clientId : ClientId) (locker : Option Mutex) : State :=
  { s with
    entries := Function.update s.entries s.created (some ⟨clientId, locker, false⟩)
    created := s.created + 1 }

/-- `self.shared.lockers.entry(..).or_insert(Arc::new(Mutex::new(())))`: the mutex of the client id.
The argument is evaluated also where it is not inserted. -/
def orInsert (s : State) (clientId : ClientId) : State × Mutex :=
  let fresh := s.mutexes
  let s := { s with mutexes := s.mutexes + 1 }
  match s.lockers.lookup clientId with
  | some mutex => (s, mutex)
  | none => ({ s with lockers := s.lockers.insert clientId fresh }, fresh)

/-- `LockEntry::try_lock`, and whether it succeeds. -/
def tryLock (s : State) (clientId : ClientId) : State × Bool :=
  let (s, mutex) := s.orInsert clientId
  if s.locked mutex then (s, false)
  else
    ({ s with locked := Function.update s.locked mutex true }.newEntry clientId (some mutex), true)

/-- `Drop for LockEntry` -/
def drop (s : State) (i : Nat) (e : LockEntry) : State :=
  { s with
    lockers := if e.locker.isSome then s.lockers.erase e.clientId else s.lockers
    entries := Function.update s.entries i (some { e with dropping := true }) }

/-- The fields of the entry are dropped. -/
def release (s : State) (i : Nat) (e : LockEntry) : State :=
  { s with
    locked :=
      match e.locker with
      | some mutex => Function.update s.locked mutex false
      | none => s.locked
    entries := Function.update s.entries i none }

/-- One step; an entry whose drop has begun only ends it. -/
def step (s : State) : Action → Option State
  | .entry clientId => some (s.newEntry clientId none)
  | .tryLock i =>
      match s.entries i with
      | some e => if e.dropping then none else some (s.tryLock e.clientId).1
      | none => none
  | .drop i =>
      match s.entries i with
      | some e => if e.dropping then none else some (s.drop i e)
      | none => none
  | .release i =>
      match s.entries i with
      | some e => if e.dropping then some (s.release i e) else none
      | none => none

/-- The entry is live and has this mutex for this client id. -/
def Holds (s : State) (i : Nat) (clientId : ClientId) (mutex : Mutex) : Prop :=
  s.entries i = some ⟨clientId, some mutex, false⟩

/-- The entry, live or in its drop, has the guard of the mutex. -/
def Guards (s : State) (i : Nat) (mutex : Mutex) : Prop :=
  ∃ clientId dropping, s.entries i = some ⟨clientId, some mutex, dropping⟩

end State

/-- The mutex in the map is the one of the live holder, a mutex is taken exactly while an entry has
its guard, and the numbers to come are not in use. -/
structure Inv (s : State) : Prop where
  mapped : ∀ c m, s.lockers.lookup c = some m ↔ ∃ i, s.Holds i c m
  unique : ∀ i j m, s.Guards i m → s.Guards j m → i = j
  locked : ∀ m, s.locked m = true ↔ ∃ i, s.Guards i m
  numbered : ∀ i m, s.Guards i m → m < s.mutexes
  fresh : ∀ i, s.created ≤ i → s.entries i = none

/-! ## One step -/

section

variable {s : State} {i j : Nat} {c c' : ClientId} {m m' : Mutex}

theorem State.Holds.guards (h : s.Holds i c m) : s.Guards i m := ⟨c, false, h⟩

theorem exists_ne_and_iff {P : Nat → Prop} (not : ¬ P i) : (∃ j, j ≠ i ∧ P j) ↔ ∃ j, P j := by
  constructor
  · intro h
    obtain ⟨j, -, hj⟩ := h
    exact ⟨j, hj⟩
  · intro h
    obtain ⟨j, hj⟩ := h
    exact ⟨j, fun eq => not (eq ▸ hj), hj⟩

theorem Inv.free (inv : Inv s) : s.entries s.created = none := inv.fresh s.created le_rfl

theorem entries_newEntry (c : ClientId) (locker : Option Mutex) :
    (s.newEntry c locker).entries i =
      if i = s.created then some ⟨c, locker, false⟩ else s.entries i :=
  Function.update_apply _ _ _ _

theorem holds_newEntry (free : s.entries s.created = none) (locker : Option Mutex) :
    (s.newEntry c locker).Holds i c' m ↔
      s.Holds i c' m ∨ i = s.created ∧ c' = c ∧ locker = some m := by
  unfold State.Holds
  rw [entries_newEntry]
  by_cases hi : i = s.created
  · rw [if_pos hi, hi, free]
    simp [eq_comm]
  · simp [hi]

theorem guards_newEntry (free : s.entries s.created = none) (locker : Option Mutex) :
    (s.newEntry c locker).Guards i m ↔ s.Guards i m ∨ i = s.created ∧ locker = some m := by
  unfold State.Guards
  rw [entries_newEntry]
  by_cases hi : i = s.created
  · rw [if_pos hi, hi, free]
    simp
  · simp [hi]

theorem Inv.newEntry (inv : Inv s) (c : ClientId) : Inv (s.newEntry c none) where
  mapped c' m := by
    simp only [holds_newEntry inv.free, reduceCtorEq, and_false, or_false]
    exact inv.mapped c' m
  unique i j m hi hj := by
    simp only [guards_newEntry inv.free, reduceCtorEq, and_false, or_false] at hi hj
    exact inv.unique i j m hi hj
  locked m := by
    simp only [guards_newEntry inv.free, reduceCtorEq, and_false, or_false]
    exact inv.locked m
  numbered i m hi := by
    simp only [guards_newEntry inv.free, reduceCtorEq, and_false, or_false] at hi
    exact inv.numbered i m hi
  fresh i hi := by
    change s.created + 1 ≤ i at hi
    rw [entries_newEntry, if_neg (by omega)]
    exact inv.fresh i (by omega)

/-- The state in which the fresh mutex is in the map and taken. -/
def State.taken (s : State) (c : ClientId) : State :=
  { s with
    lockers := s.lockers.insert c s.mutexes
    locked := Function.update s.locked s.mutexes true
    mutexes := s.mutexes + 1 }

theorem Inv.unlocked (inv : Inv s) : s.locked s.mutexes = false := by
  rw [← Bool.not_eq_true]
  intro taken
  obtain ⟨i, hi⟩ := (inv.locked s.mutexes).mp taken
  exact absurd (inv.numbered i s.mutexes hi) (lt_irrefl _)

/-- The mutex that is found in the map is taken, and a new one is not. -/
theorem tryLock_cases (inv : Inv s) (c : ClientId) :
    (∃ m, s.lockers.lookup c = some m ∧
        s.tryLock c = ({ s with mutexes := s.mutexes + 1 }, false)) ∨
      s.lockers.lookup c = none ∧
        s.tryLock c = ((s.taken c).newEntry c (some s.mutexes), true) := by
  cases found : s.lockers.lookup c with
  | some m =>
      obtain ⟨i, hi⟩ := (inv.mapped c m).mp found
      have taken : s.locked m = true := (inv.locked m).mpr ⟨i, hi.guards⟩
      refine .inl ⟨m, rfl, ?_⟩
      simp [State.tryLock, State.orInsert, found, taken]
  | none =>
      refine .inr ⟨rfl, ?_⟩
      simp [State.tryLock, State.orInsert, found, inv.unlocked, State.taken]

theorem Inv.allocate (inv : Inv s) : Inv { s with mutexes := s.mutexes + 1 } where
  mapped := inv.mapped
  unique := inv.unique
  locked := inv.locked
  numbered i m hi := Nat.lt_succ_of_lt (inv.numbered i m hi)
  fresh := inv.fresh

theorem Inv.take (inv : Inv s) (none_held : s.lockers.lookup c = none) :
    Inv ((s.taken c).newEntry c (some s.mutexes)) := by
  have free : (s.taken c).entries (s.taken c).created = none := inv.free
  have holds : ∀ i c' m, ((s.taken c).newEntry c (some s.mutexes)).Holds i c' m ↔
      s.Holds i c' m ∨ i = s.created ∧ c' = c ∧ s.mutexes = m := by
    intro i c' m
    rw [holds_newEntry free, Option.some.injEq]
    rfl
  have guards : ∀ i m, ((s.taken c).newEntry c (some s.mutexes)).Guards i m ↔
      s.Guards i m ∨ i = s.created ∧ s.mutexes = m := by
    intro i m
    rw [guards_newEntry free, Option.some.injEq]
    rfl
  refine ⟨?_, ?_, ?_, ?_, ?_⟩
  · intro c' m
    simp only [holds]
    change (s.lockers.insert c s.mutexes).lookup c' = some m ↔ _
    by_cases hc : c' = c
    · rw [hc, Assoc.lookup_insert_self, Option.some.injEq]
      constructor
      · intro eq
        exact ⟨s.created, .inr ⟨rfl, rfl, eq⟩⟩
      · intro h
        obtain ⟨i, old | ⟨-, -, eq⟩⟩ := h
        · have found := (inv.mapped c m).mpr ⟨i, old⟩
          rw [none_held] at found
          cases found
        · exact eq
    · rw [Assoc.lookup_insert_of_ne _ _ hc, inv.mapped c' m]
      simp [hc]
  · intro i j m hi hj
    rw [guards] at hi hj
    rcases hi with hi | ⟨hi, new⟩
    · rcases hj with hj | ⟨hj, rfl⟩
      · exact inv.unique i j m hi hj
      · exact absurd (inv.numbered i _ hi) (lt_irrefl _)
    · rcases hj with hj | ⟨hj, -⟩
      · rw [← new] at hj
        exact absurd (inv.numbered j _ hj) (lt_irrefl _)
      · rw [hi, hj]
  · intro m
    simp only [guards]
    change Function.update s.locked s.mutexes true m = true ↔ _
    by_cases hm : m = s.mutexes
    · rw [hm, Function.update_self]
      simp
    · rw [Function.update_of_ne hm, inv.locked m]
      simp [Ne.symm hm]
  · intro i m hi
    change m < s.mutexes + 1
    rw [guards] at hi
    rcases hi with hi | ⟨-, rfl⟩
    · exact Nat.lt_succ_of_lt (inv.numbered i m hi)
    · exact Nat.lt_succ_self _
  · intro i hi
    change s.created + 1 ≤ i at hi
    rw [entries_newEntry, if_neg (by change ¬ i = s.created; omega)]
    exact inv.fresh i (by omega)

theorem Inv.tryLock (inv : Inv s) (c : ClientId) : Inv (s.tryLock c).1 := by
  rcases tryLock_cases inv c with ⟨m, -, eq⟩ | ⟨none_held, eq⟩
  · rw [eq]
    exact inv.allocate
  · rw [eq]
    exact inv.take none_held

theorem entries_drop (i : Nat) (e : LockEntry) :
    (s.drop i e).entries j = if j = i then some { e with dropping := true } else s.entries j :=
  Function.update_apply _ _ _ _

theorem holds_drop (i : Nat) (e : LockEntry) :
    (s.drop i e).Holds j c m ↔ j ≠ i ∧ s.Holds j c m := by
  unfold State.Holds
  rw [entries_drop]
  by_cases hj : j = i
  · simp [hj]
  · simp [hj]

theorem guards_drop {e : LockEntry} (here : s.entries i = some e) :
    (s.drop i e).Guards j m ↔ s.Guards j m := by
  unfold State.Guards
  rw [entries_drop]
  by_cases hj : j = i
  · rw [if_pos hj, hj, here]
    rcases e with ⟨clientId, locker, dropping⟩
    simp
  · rw [if_neg hj]

/-- The entry that begins its drop is the holder that the map has, so that no other entry loses its
mutex. -/
theorem Inv.lookup_drop (inv : Inv s) {e : LockEntry} (here : s.entries i = some e)
    (live : e.dropping = false) :
    (s.drop i e).lockers.lookup c = some m ↔ ∃ j, j ≠ i ∧ s.Holds j c m := by
  change (if e.locker.isSome then s.lockers.erase e.clientId else s.lockers).lookup c = some m ↔ _
  rcases e with ⟨clientId, locker, dropping⟩
  change dropping = false at live
  subst live
  cases locker with
  | none =>
      have other : ¬ s.Holds i c m := by
        intro held
        rw [State.Holds, here] at held
        cases held
      rw [if_neg (by simp), inv.mapped c m]
      exact (exists_ne_and_iff (P := fun j => s.Holds j c m) other).symm
  | some m₀ =>
      rw [if_pos (by simp)]
      change (s.lockers.erase clientId).lookup c = some m ↔ _
      have own : s.Holds i clientId m₀ := here
      by_cases hc : c = clientId
      · rw [hc, Assoc.lookup_erase_self]
        constructor
        · intro h
          cases h
        · intro h
          obtain ⟨j, hj, held⟩ := h
          have same : some m₀ = some m := by
            rw [← (inv.mapped clientId m₀).mpr ⟨i, own⟩]
            exact (inv.mapped clientId m).mpr ⟨j, held⟩
          cases same
          exact absurd (inv.unique j i m held.guards own.guards) hj
      · have other : ¬ s.Holds i c m := by
          intro held
          rw [State.Holds, here] at held
          cases held
          exact hc rfl
        rw [Assoc.lookup_erase_of_ne _ hc, inv.mapped c m]
        exact (exists_ne_and_iff (P := fun j => s.Holds j c m) other).symm

theorem Inv.drop (inv : Inv s) {e : LockEntry} (here : s.entries i = some e)
    (live : e.dropping = false) : Inv (s.drop i e) where
  mapped c m := by
    simp only [holds_drop]
    exact inv.lookup_drop here live
  unique j k m hj hk := by
    rw [guards_drop here] at hj hk
    exact inv.unique j k m hj hk
  locked m := by
    simp only [guards_drop here]
    exact inv.locked m
  numbered j m hj := by
    rw [guards_drop here] at hj
    exact inv.numbered j m hj
  fresh j hj := by
    rw [entries_drop]
    have absent := inv.fresh j hj
    have ne : j ≠ i := by
      intro eq
      rw [eq, here] at absent
      cases absent
    rw [if_neg ne]
    exact absent

theorem entries_release (i : Nat) (e : LockEntry) :
    (s.release i e).entries j = if j = i then none else s.entries j :=
  Function.update_apply _ _ _ _

theorem holds_release {e : LockEntry} (here : s.entries i = some e)
    (dropping : e.dropping = true) : (s.release i e).Holds j c m ↔ s.Holds j c m := by
  unfold State.Holds
  rw [entries_release]
  by_cases hj : j = i
  · rw [if_pos hj, hj, here]
    rcases e with ⟨clientId, locker, flag⟩
    change flag = true at dropping
    simp [dropping]
  · rw [if_neg hj]

theorem guards_release (i : Nat) (e : LockEntry) :
    (s.release i e).Guards j m ↔ j ≠ i ∧ s.Guards j m := by
  unfold State.Guards
  rw [entries_release]
  by_cases hj : j = i
  · simp [hj]
  · simp [hj]

/-- The guard that goes is the only one of its mutex. -/
theorem Inv.locked_release (inv : Inv s) {e : LockEntry} (here : s.entries i = some e) :
    (s.release i e).locked m = true ↔ ∃ j, j ≠ i ∧ s.Guards j m := by
  rcases e with ⟨clientId, locker, flag⟩
  cases locker with
  | none =>
      have other : ¬ s.Guards i m := by
        intro held
        obtain ⟨_, _, held⟩ := held
        rw [here] at held
        cases held
      change s.locked m = true ↔ _
      rw [inv.locked m]
      exact (exists_ne_and_iff (P := fun j => s.Guards j m) other).symm
  | some m₀ =>
      have own : s.Guards i m₀ := ⟨clientId, flag, here⟩
      change Function.update s.locked m₀ false m = true ↔ _
      by_cases hm : m = m₀
      · rw [hm, Function.update_self]
        constructor
        · intro h
          cases h
        · intro h
          obtain ⟨j, hj, held⟩ := h
          exact absurd (inv.unique j i m₀ held own) hj
      · have other : ¬ s.Guards i m := by
          intro held
          obtain ⟨_, _, held⟩ := held
          rw [here] at held
          cases held
          exact hm rfl
        rw [Function.update_of_ne hm, inv.locked m]
        exact (exists_ne_and_iff (P := fun j => s.Guards j m) other).symm

theorem Inv.release (inv : Inv s) {e : LockEntry} (here : s.entries i = some e)
    (dropping : e.dropping = true) : Inv (s.release i e) where
  mapped c m := by
    simp only [holds_release here dropping]
    exact inv.mapped c m
  unique j k m hj hk := by
    rw [guards_release] at hj hk
    exact inv.unique j k m hj.2 hk.2
  locked m := by
    simp only [guards_release]
    exact inv.locked_release here
  numbered j m hj := by
    rw [guards_release] at hj
    exact inv.numbered j m hj.2
  fresh j hj := by
    rw [entries_release]
    split
    · rfl
    · exact inv.fresh j hj

end

/-! ## Any steps -/

theorem inv_empty : Inv {} where
  mapped c m := by simp [State.Holds]
  unique i j m hi := by
    obtain ⟨_, _, hi⟩ := hi
    cases hi
  locked m := by simp [State.Guards]
  numbered i m hi := by
    obtain ⟨_, _, hi⟩ := hi
    cases hi
  fresh _ _ := rfl

/-- A step is of a new entry, of a live one, or of one whose drop has begun. -/
theorem State.step_cases {s s' : State} {a : Action} (stepped : s.step a = some s') :
    (∃ c, a = .entry c ∧ s' = s.newEntry c none) ∨
    (∃ i e, s.entries i = some e ∧ e.dropping = false ∧
      ((a = .tryLock i ∧ s' = (s.tryLock e.clientId).1) ∨ (a = .drop i ∧ s' = s.drop i e))) ∨
    ∃ i e, s.entries i = some e ∧ e.dropping = true ∧ a = .release i ∧ s' = s.release i e := by
  cases a with
  | entry c =>
      cases stepped
      exact .inl ⟨c, rfl, rfl⟩
  | tryLock i =>
      rw [State.step] at stepped
      split at stepped
      · rename_i e here
        obtain ⟨live, eq⟩ := Option.ite_none_left_eq_some.mp stepped
        cases eq
        exact .inr (.inl ⟨i, e, here, (Bool.not_eq_true _).mp live, .inl ⟨rfl, rfl⟩⟩)
      · cases stepped
  | drop i =>
      rw [State.step] at stepped
      split at stepped
      · rename_i e here
        obtain ⟨live, eq⟩ := Option.ite_none_left_eq_some.mp stepped
        cases eq
        exact .inr (.inl ⟨i, e, here, (Bool.not_eq_true _).mp live, .inr ⟨rfl, rfl⟩⟩)
      · cases stepped
  | release i =>
      rw [State.step] at stepped
      split at stepped
      · rename_i e here
        obtain ⟨dropping, eq⟩ := Option.ite_none_right_eq_some.mp stepped
        cases eq
        exact .inr (.inr ⟨i, e, here, dropping, rfl, rfl⟩)
      · cases stepped

theorem Inv.step {s s' : State} {a : Action} (inv : Inv s) (hstep : s.step a = some s') : Inv s' := by
  rcases State.step_cases hstep with
    ⟨c, -, rfl⟩ | ⟨i, e, here, live, ⟨-, rfl⟩ | ⟨-, rfl⟩⟩ | ⟨i, e, here, dropping, -, rfl⟩
  · exact inv.newEntry c
  · exact inv.tryLock e.clientId
  · exact inv.drop here live
  · exact inv.release here dropping

theorem Inv.tryLock_iff {s : State} (inv : Inv s) (c : ClientId) :
    (s.tryLock c).2 = true ↔ ¬ ∃ i m, s.Holds i c m := by
  rcases tryLock_cases inv c with ⟨m, found, eq⟩ | ⟨absent, eq⟩
  · obtain ⟨i, held⟩ := (inv.mapped c m).mp found
    rw [eq]
    simp only [Bool.false_eq_true, false_iff, not_not]
    exact ⟨i, m, held⟩
  · rw [eq]
    simp only [true_iff]
    intro h
    obtain ⟨i, m, held⟩ := h
    rw [(inv.mapped c m).mpr ⟨i, held⟩] at absent
    cases absent

/-- A client id has one live holder at most, in any interleaving. -/
theorem Inv.exclusive {s : State} (inv : Inv s) {i j : Nat} {c : ClientId} {m m' : Mutex}
    (hi : s.Holds i c m) (hj : s.Holds j c m') : i = j := by
  have same : some m = some m' := by
    rw [← (inv.mapped c m).mpr ⟨i, hi⟩]
    exact (inv.mapped c m').mpr ⟨j, hj⟩
  cases same
  exact inv.unique i j m hi.guards hj.guards

theorem Inv.free_after_drop {s s' : State} (inv : Inv s) {i : Nat} {c : ClientId} {m : Mutex}
    (held : s.Holds i c m) (hstep : s.step (.drop i) = some s') : (s'.tryLock c).2 = true := by
  rw [(inv.step hstep).tryLock_iff]
  intro h
  obtain ⟨j, m', hj⟩ := h
  have after : s' = s.drop i ⟨c, some m, false⟩ := by
    rw [State.Holds] at held
    simp only [State.step, held, Bool.false_eq_true, ↓reduceIte, Option.some.injEq] at hstep
    exact hstep.symm
  rw [after, State.Holds, State.drop] at hj
  by_cases eq : j = i
  · rw [eq] at hj
    change Function.update s.entries i _ i = _ at hj
    rw [Function.update_self] at hj
    cases hj
  · change Function.update s.entries i _ j = _ at hj
    rw [Function.update_of_ne eq] at hj
    exact eq (inv.exclusive hj held)

/-- After any steps of any entries: a client id has one live holder at most; the map has a mutex for
it exactly while a live entry holds that mutex; `try_lock` succeeds exactly when there is no live
holder, and so it does once the holder has begun its drop. -/
theorem lockers_exclusive {actions : List Action} {s : State}
    (ran : Machine.run State.step {} actions = some s) :
    (∀ i j c m m', s.Holds i c m → s.Holds j c m' → i = j) ∧
      (∀ c m, s.lockers.lookup c = some m ↔ ∃ i, s.Holds i c m) ∧
      (∀ c, (s.tryLock c).2 = true ↔ ¬ ∃ i m, s.Holds i c m) ∧
      ∀ i c m s', s.Holds i c m → s.step (.drop i) = some s' → (s'.tryLock c).2 = true := by
  have inv : Inv s := Machine.invariant_run (fun _ _ _ inv hstep => inv.step hstep) ran inv_empty
  refine ⟨?_, inv.mapped, inv.tryLock_iff, ?_⟩
  · intro i j c m m' hi hj
    exact inv.exclusive hi hj
  · intro i c m s' held hstep
    exact inv.free_after_drop held hstep

/-- Two connections with one client id: the second one is refused while the first holds the lock,
and takes a new mutex while the first is still to release its own. -/
def takeTurns : List Action :=
  [.entry "c", .tryLock 0, .entry "c", .tryLock 2, .drop 1, .tryLock 2, .release 1]

theorem lockers_exclusive_turns :
    ∃ s, Machine.run State.step {} takeTurns = some s ∧ s.Holds 3 "c" 2 ∧
      ∀ i m, s.Holds i "c" m → i = 3 := by
  have ran : Machine.run State.step {} takeTurns =
      some ((Machine.run State.step {} takeTurns).get rfl) := rfl
  refine ⟨_, ran, rfl, ?_⟩
  intro i m held
  exact (lockers_exclusive ran).1 i 3 "c" m 2 held rfl

end OxiMqtt.Session.Lockers

import Mathlib.Data.Option.Basic

/-!
# Runs of a machine

A machine is a partial step function: `step s a` is the state after the action
`a`, or `none` where `a` cannot be taken.  `run` takes a list of actions.

* `invariant_run`: what every step keeps, every run keeps.
* `invariant_trace`: the same for what ties a state to the actions that led to it.
* `invariant_guarded`: the same for the runs whose steps all meet a condition.
* `Guarded.imp`: a condition of a run can be weakened.
* `iff_guarded`, `log_iff_guarded`: a property survives a run, or a run logs only good entries,
  exactly when its steps meet the condition, where this holds of each step.
* `settles`: where some action lessens what is left to do, a run gets all of it done.
* `respond_related`: two machines that answer alike and stay related step by step do so over a run.
-/

namespace Machine

variable {S A : Type} (step : S → A → Option S)

/-- The state after a list of actions. -/
def run (s : S) : List A → Option S
  | [] => some s
  | a :: as => (step s a).bind fun s' => run s' as

/-- Every action of the list meets the condition in the state it is taken in. -/
def Guarded (cond : S → A → Prop) : S → List A → Prop
  | _, [] => True
  | s, a :: as => cond s a ∧ ∀ s', step s a = some s' → Guarded cond s' as

variable {step}

instance decidableGuarded {cond : S → A → Prop} [∀ s a, Decidable (cond s a)] :
    ∀ (s : S) (as : List A), Decidable (Guarded step cond s as)
  | _, [] => isTrue trivial
  | s, a :: as =>
      match hstep : step s a with
      | none =>
          decidable_of_iff (cond s a)
            ⟨fun h => ⟨h, fun s' hs' => by rw [hstep] at hs'; cases hs'⟩, fun h => h.1⟩
      | some mid =>
          have : Decidable (Guarded step cond mid as) := decidableGuarded mid as
          decidable_of_iff (cond s a ∧ Guarded step cond mid as)
            ⟨fun h => ⟨h.1, fun s' hs' => by rw [hstep] at hs'; cases hs'; exact h.2⟩,
              fun h => ⟨h.1, h.2 mid hstep⟩⟩

/-- In a run that keeps the invariant, a condition can be replaced by a weaker one. -/
theorem Guarded.imp {cond cond' : S → A → Prop} {Inv : S → Prop}
    (keep : ∀ s a s', Inv s → step s a = some s' → Inv s')
    (weaken : ∀ s a, Inv s → cond s a → cond' s a) {s : S} {as : List A} (hs : Inv s)
    (guarded : Guarded step cond s as) : Guarded step cond' s as := by
  induction as generalizing s with
  | nil => trivial
  | cons a as ih =>
      obtain ⟨hcond, rest⟩ := guarded
      exact ⟨weaken s a hs hcond, fun s' hstep => ih (keep s a s' hs hstep) (rest s' hstep)⟩

theorem invariant_guarded {cond : S → A → Prop} {Inv : S → Prop}
    (keep : ∀ s a s', Inv s → cond s a → step s a = some s' → Inv s') {s s' : S} {as : List A}
    (guarded : Guarded step cond s as) (ran : run step s as = some s') (hs : Inv s) : Inv s' := by
  induction as generalizing s with
  | nil =>
      cases ran
      exact hs
  | cons a as ih =>
      obtain ⟨hcond, rest⟩ := guarded
      obtain ⟨mid, hstep, ran⟩ := Option.bind_eq_some_iff.mp ran
      exact ih (rest mid hstep) ran (keep s a mid hs hcond hstep)

theorem invariant_run {Inv : S → Prop} (keep : ∀ s a s', Inv s → step s a = some s' → Inv s')
    {s s' : S} {as : List A} (ran : run step s as = some s') (hs : Inv s) : Inv s' := by
  induction as generalizing s with
  | nil =>
      cases ran
      exact hs
  | cons a as ih =>
      obtain ⟨mid, hstep, ran⟩ := Option.bind_eq_some_iff.mp ran
      exact ih ran (keep s a mid hs hstep)

theorem invariant_trace {Inv : List A → S → Prop}
    (keep : ∀ past s a s', Inv past s → step s a = some s' → Inv (past ++ [a]) s')
    {past : List A} {s s' : S} {as : List A} (ran : run step s as = some s') (hs : Inv past s) :
    Inv (past ++ as) s' := by
  induction as generalizing past s with
  | nil =>
      cases ran
      rw [List.append_nil]
      exact hs
  | cons a as ih =>
      obtain ⟨mid, hstep, ran⟩ := Option.bind_eq_some_iff.mp ran
      rw [List.append_cons]
      exact ih ran (keep past s a mid hs hstep)

/-- Where a property survives a step exactly when the step meets the condition, it survives a run
exactly when all its steps do. -/
theorem iff_guarded {cond : S → A → Prop} {Inv P : S → Prop}
    (keep : ∀ s a s', Inv s → step s a = some s' → Inv s')
    (exactly : ∀ s a s', Inv s → step s a = some s' → (P s' ↔ P s ∧ cond s a))
    {s s' : S} {as : List A} (ran : run step s as = some s') (hs : Inv s) :
    P s' ↔ P s ∧ Guarded step cond s as := by
  induction as generalizing s with
  | nil =>
      cases ran
      exact ⟨fun h => ⟨h, trivial⟩, fun h => h.1⟩
  | cons a as ih =>
      obtain ⟨mid, hstep, ran⟩ := Option.bind_eq_some_iff.mp ran
      have later : Guarded step cond mid as ↔
          ∀ s', step s a = some s' → Guarded step cond s' as := by
        constructor
        · intro guarded s' hs'
          rw [hstep] at hs'
          cases hs'
          exact guarded
        · exact fun guarded => guarded mid hstep
      rw [ih ran (keep s a mid hs hstep), exactly s a mid hs hstep, Guarded, ← later, and_assoc]

/-- Where a step adds good entries to a log exactly when it meets the condition, so does a run. -/
theorem log_iff_guarded {L : Type} {log : S → List L} {good : L → Prop} {cond : S → A → Prop}
    {Inv : S → Prop} (keep : ∀ s a s', Inv s → step s a = some s' → Inv s')
    (grow : ∀ s a s', Inv s → step s a = some s' →
      ∃ new, log s' = log s ++ new ∧ ((∀ x ∈ new, good x) ↔ cond s a))
    {s s' : S} {as : List A} (ran : run step s as = some s') (hs : Inv s) :
    (∀ x ∈ log s', good x) ↔ (∀ x ∈ log s, good x) ∧ Guarded step cond s as := by
  refine iff_guarded (P := fun s => ∀ x ∈ log s, good x) keep (fun s a s' inv hstep => ?_) ran hs
  obtain ⟨new, grown, exactly⟩ := grow s a s' inv hstep
  rw [grown, List.forall_mem_append, exactly]

theorem guarded_of_forall {cond : A → Prop} {as : List A} (all : ∀ a ∈ as, cond a) (s : S) :
    Guarded step (fun _ a => cond a) s as := by
  induction as generalizing s with
  | nil => trivial
  | cons a as ih =>
      obtain ⟨first, rest⟩ := List.forall_mem_cons.mp all
      exact ⟨first, fun s' _ => ih rest s'⟩

/-- Where some action lessens the work in every state that has some left, a run of such actions
leaves none. -/
theorem settles {cond : A → Prop} {Inv : S → Prop} {work : S → Nat}
    (progress : ∀ s, Inv s → work s ≠ 0 →
      ∃ a s', cond a ∧ step s a = some s' ∧ Inv s' ∧ work s' < work s)
    {s : S} (hs : Inv s) :
    ∃ as s', (∀ a ∈ as, cond a) ∧ run step s as = some s' ∧ Inv s' ∧ work s' = 0 := by
  induction left : work s using Nat.strongRecOn generalizing s with
  | ind n ih =>
      by_cases done : work s = 0
      · exact ⟨[], s, List.forall_mem_nil _, rfl, hs, done⟩
      · obtain ⟨a, mid, taken, stepped, hmid, less⟩ := progress s hs done
        obtain ⟨as, s', all, ran, inv, settled⟩ := ih (work mid) (left ▸ less) hmid rfl
        refine ⟨a :: as, s', List.forall_mem_cons.mpr ⟨taken, all⟩, ?_, inv, settled⟩
        rw [run, stepped]
        exact ran

/-! ## Operations that answer -/

/-- The state after a list of operations, and their answers. -/
def respond {S A R : Type} (op : S → A → S × R) (s : S) : List A → S × List R
  | [] => (s, [])
  | a :: as =>
      let rest := respond op (op s a).1 as
      (rest.1, (op s a).2 :: rest.2)

/-- Two machines whose operations keep a relation and answer the same do so over a run whose
operations all meet the condition. -/
theorem respond_related {S T A R : Type} {op : S → A → S × R} {op' : T → A → T × R}
    {Rel : S → T → Prop} {cond : T → A → Prop}
    (keep : ∀ s t a, Rel s t → cond t a →
      Rel (op s a).1 (op' t a).1 ∧ (op s a).2 = (op' t a).2)
    {s : S} {t : T} (related : Rel s t) {as : List A}
    (guarded : Guarded (fun t a => some (op' t a).1) cond t as) :
    Rel (respond op s as).1 (respond op' t as).1 ∧
      (respond op s as).2 = (respond op' t as).2 := by
  induction as generalizing s t with
  | nil => exact ⟨related, rfl⟩
  | cons a as ih =>
      obtain ⟨hcond, rest⟩ := guarded
      obtain ⟨related', same⟩ := keep s t a related hcond
      obtain ⟨final, answers⟩ := ih related' (rest _ rfl)
      exact ⟨final, by rw [respond, respond, same, answers]⟩

end Machine

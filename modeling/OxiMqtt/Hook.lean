import Mathlib.Data.String.Basic
import OxiMqtt.Lib.Machine
import OxiMqtt.Lib.OrdMap

/-!
# The hook manager

`DefaultHookManager` and `DefaultHookRegister` of `hook.rs`.  The manager keeps the handlers of each
hook type in a map that is ordered by priority and id, and calls those that are enabled from the
greatest key down, as long as they say to proceed.  A register remembers what has been added through
it, and enables and disables these handlers one at a time.

A handler is what it answers.  `exec` holds the lock of one hook type from its first handler to its
last, so it is one step.  A type without a map is a type with an empty one.

* `step_inv`: what the manager holds, by the additions and adjustments so far.
* `exec_follows_registers`: which handlers are called, and in which order, after any run.
-/

namespace OxiMqtt.Hook

open Collections

/-- `hook::Type` -/
inductive HookType : Type
  | beforeStartup
  | sessionCreated
  | sessionTerminated
  | sessionSubscribed
  | sessionUnsubscribed
  | clientAuthenticate
  | clientConnect
  | clientConnack
  | clientConnected
  | clientDisconnected
  | clientSubscribe
  | clientUnsubscribe
  | clientSubscribeCheckAcl
  | clientKeepalive
  | messagePublishCheckAcl
  | messagePublish
  | messageDelivered
  | messageAcked
  | messageDropped
  | messageExpiryCheck
  | messageNonsubscribed
  | offlineMessage
  | offlineInflightMessages
  deriving DecidableEq, Repr

abbrev Priority : Type := Nat
abbrev HandlerId : Type := String

/-- `(Priority, HandlerId)`, which is ordered by the priority first. -/
abbrev Key : Type := Priority ×ₗ HandlerId

/-- `Handler`: the parameter and the result so far give whether to proceed, and the new result. -/
abbrev Handler (π ρ : Type) : Type := π → Option ρ → Bool × Option ρ

section

variable {π ρ : Type}

/-- `HookEntry` -/
structure HookEntry (π ρ : Type) : Type where
  handler : Handler π ρ
  enabled : Bool

/-- `HookEntry::new` -/
def HookEntry.new (handler : Handler π ρ) : HookEntry π ρ where
  handler := handler
  enabled := false

/-- `DefaultHookManager` -/
structure DefaultHookManager (π ρ : Type) : Type where
  handlers : HookType → OrdMap Key (HookEntry π ρ)

namespace DefaultHookManager

/-- `DefaultHookManager::new` -/
def new : DefaultHookManager π ρ := ⟨fun _ => OrdMap.empty⟩

/-- The map of one hook type is changed. -/
def update (manager : DefaultHookManager π ρ) (typ : HookType)
    (f : OrdMap Key (HookEntry π ρ) → OrdMap Key (HookEntry π ρ)) : DefaultHookManager π ρ :=
  ⟨fun t => if t = typ then f (manager.handlers t) else manager.handlers t⟩

/-- `add`, where the id has been drawn; `none` is the error `handler id is repetition`. -/
def add (manager : DefaultHookManager π ρ) (typ : HookType) (priority : Priority) (id : HandlerId)
    (handler : Handler π ρ) : Option (DefaultHookManager π ρ) :=
  let key : Key := toLex (priority, id)
  if (manager.handlers typ).containsKey key then none
  else some (manager.update typ fun entries => entries.insert key (HookEntry.new handler))

/-- The loop of `exec` over the entries still to come. -/
def execLoop (p : π) : List (HookEntry π ρ) → Option ρ → Option ρ
  | [], acc => acc
  | entry :: entries, acc =>
      if entry.enabled then
        match entry.handler p acc with
        | (proceed, newAcc) => if !proceed then newAcc else execLoop p entries newAcc
      else execLoop p entries acc

/-- `exec` -/
def exec (manager : DefaultHookManager π ρ) (t : HookType) (p : π) : Option ρ :=
  execLoop p ((manager.handlers t).toList.reverse.map Prod.snd) none

/-- What `adjust_status` does with one handler. -/
def setEnabled (manager : DefaultHookManager π ρ) (typ : HookType) (key : Key) (b : Bool) :
    DefaultHookManager π ρ :=
  manager.update typ fun entries => entries.modify key fun entry => { entry with enabled := b }

end DefaultHookManager

/-- `DefaultHookRegister`, without the manager that all registers share. -/
structure DefaultHookRegister : Type where
  typeIds : List (HookType × Key)

/-- The manager and its registers. -/
structure State (π ρ : Type) : Type where
  manager : DefaultHookManager π ρ
  registers : List DefaultHookRegister

/-- No register yet. -/
def State.initial : State π ρ := ⟨.new, []⟩

/-- A new register, `add_priority` of a register, and `adjust_status` of a register with one of its
handlers: `start` and `stop` are one such step for each. -/
inductive Event (π ρ : Type) : Type
  | register
  | addPriority (r : Nat) (typ : HookType) (priority : Priority) (id : HandlerId)
      (handler : Handler π ρ)
  | adjust (r : Nat) (typ : HookType) (key : Key) (b : Bool)

/-- One step; a register is used that exists, with a handler of its own. -/
def step (s : State π ρ) : Event π ρ → Option (State π ρ)
  | .register => some { s with registers := s.registers ++ [⟨[]⟩] }
  | .addPriority r typ priority id handler => do
      let register ← s.registers[r]?
      match s.manager.add typ priority id handler with
      | some manager =>
          some ⟨manager,
            s.registers.set r ⟨(typ, toLex (priority, id)) :: register.typeIds⟩⟩
      | none => some s
  | .adjust r typ key b => do
      let register ← s.registers[r]?
      if (typ, key) ∈ register.typeIds then
        some { s with manager := s.manager.setEnabled typ key b }
      else none

/-! ## What has happened -/

/-- The register and the handler, where the event is an addition under this key. -/
def Event.adds (typ : HookType) (key : Key) : Event π ρ → Option (Nat × Handler π ρ)
  | .addPriority r typ' priority id handler =>
      if typ' = typ ∧ toLex (priority, id) = key then some (r, handler) else none
  | _ => none

/-- The new status, where the event is an adjustment of the handler under this key. -/
def Event.adjusts (typ : HookType) (key : Key) : Event π ρ → Option Bool
  | .adjust _ typ' key' b => if typ' = typ ∧ key' = key then some b else none
  | _ => none

/-- The register and the handler of the first addition under this key. -/
def added (typ : HookType) (key : Key) (past : List (Event π ρ)) : Option (Nat × Handler π ρ) :=
  past.findSome? (Event.adds typ key)

/-- What the last adjustment of the handler under this key has said. -/
def status (typ : HookType) (key : Key) (past : List (Event π ρ)) : Bool :=
  (past.reverse.findSome? (Event.adjusts typ key)).getD false

section

variable {typ typ' : HookType} {key key' : Key} {past : List (Event π ρ)} {e : Event π ρ}

theorem added_snoc : added typ key (past ++ [e]) = (added typ key past).or (e.adds typ key) := by
  have last : [e].findSome? (Event.adds typ key) = e.adds typ key := by
    rw [List.findSome?_cons]
    cases e.adds typ key <;> rfl
  rw [added, List.findSome?_append, last, added]

theorem status_snoc :
    status typ key (past ++ [e]) = (e.adjusts typ key).getD (status typ key past) := by
  rw [status, List.reverse_append, List.reverse_singleton, List.singleton_append,
    List.findSome?_cons]
  cases e.adjusts typ key <;> rfl

end

/-! ## What the manager holds -/

/-- The manager and the registers after these events: the entries of the manager are the additions
with their status, each register has the keys that have been added through it, and adjusts no
others. -/
structure Inv (past : List (Event π ρ)) (s : State π ρ) : Prop where
  entries : ∀ typ key entry, (key, entry) ∈ (s.manager.handlers typ).toList ↔
    (∃ r, added typ key past = some (r, entry.handler)) ∧ entry.enabled = status typ key past
  owned : ∀ r register, s.registers[r]? = some register →
    ∀ typ key, (typ, key) ∈ register.typeIds ↔ ∃ handler, added typ key past = some (r, handler)
  known : ∀ typ key r handler, added typ key past = some (r, handler) → r < s.registers.length
  fresh : ∀ typ key, added typ key past = none → status typ key past = false
  adjusted : ∀ r typ key b, .adjust r typ key b ∈ past →
    ∃ handler, added typ key past = some (r, handler)

theorem inv_initial : Inv [] (State.initial : State π ρ) where
  entries := by
    intro typ key entry
    constructor
    · intro none
      exact absurd none List.not_mem_nil
    · intro h
      obtain ⟨⟨r, none⟩, -⟩ := h
      cases none
  owned := fun r register none => nomatch none
  known := fun typ key r handler none => nomatch none
  fresh := fun typ key _ => rfl
  adjusted := fun r typ key b none => absurd none List.not_mem_nil

variable {past : List (Event π ρ)} {s s' : State π ρ}

/-- A key is in the map of its type exactly when it has been added. -/
theorem Inv.containsKey_iff (inv : Inv past s) (typ : HookType) (key : Key) :
    (s.manager.handlers typ).containsKey key = true ↔ (added typ key past).isSome = true := by
  rw [OrdMap.containsKey_iff]
  constructor
  · intro h
    obtain ⟨entry, there⟩ := h
    obtain ⟨⟨r, known⟩, -⟩ := (inv.entries typ key entry).mp there
    rw [known]
    rfl
  · intro h
    obtain ⟨⟨r, handler⟩, known⟩ := Option.isSome_iff_exists.mp h
    exact ⟨⟨handler, status typ key past⟩, (inv.entries typ key _).mpr ⟨⟨r, known⟩, rfl⟩⟩

theorem step_register (inv : Inv past s) :
    Inv (past ++ [.register]) { s with registers := s.registers ++ [⟨[]⟩] } := by
  have adds : ∀ typ key, added typ key (past ++ [Event.register]) = added typ key past := by
    intro typ key
    rw [added_snoc]
    exact Option.or_none
  have same : ∀ typ key, status typ key (past ++ [Event.register]) = status typ key past :=
    fun typ key => status_snoc
  refine ⟨fun typ key entry => ?_, fun r register there typ key => ?_, fun typ key r handler => ?_,
    fun typ key => ?_, fun r typ key b there => ?_⟩
  · rw [adds, same]
    exact inv.entries typ key entry
  · rw [adds]
    rcases Nat.lt_or_ge r s.registers.length with old | new
    · rw [List.getElem?_append_left old] at there
      exact inv.owned r register there typ key
    · have isNew : register = ⟨[]⟩ := by
        rw [List.getElem?_append_right new] at there
        exact List.mem_singleton.mp (List.mem_of_getElem? there)
      subst isNew
      constructor
      · exact fun none => absurd none List.not_mem_nil
      · intro h
        obtain ⟨handler, known⟩ := h
        exact absurd (inv.known typ key r handler known) (Nat.not_lt.mpr new)
  · rw [adds]
    intro known
    rw [List.length_append]
    exact Nat.lt_of_lt_of_le (inv.known typ key r handler known) (Nat.le_add_right _ _)
  · rw [adds, same]
    exact inv.fresh typ key
  · rw [adds]
    rcases List.mem_append.mp there with before | now
    · exact inv.adjusted r typ key b before
    · cases List.mem_singleton.mp now

/-- An addition under a key that is taken changes nothing. -/
theorem step_repetition (inv : Inv past s) {r : Nat} {typ : HookType} {priority : Priority}
    {id : HandlerId} (handler : Handler π ρ)
    (taken : (s.manager.handlers typ).containsKey (toLex (priority, id)) = true) :
    Inv (past ++ [.addPriority r typ priority id handler]) s := by
  have adds : ∀ typ' key, added typ' key (past ++ [.addPriority r typ priority id handler]) =
      added typ' key past := by
    intro typ' key
    rw [added_snoc, Event.adds]
    split
    · rename_i here
      obtain ⟨rfl, rfl⟩ := here
      obtain ⟨first, known⟩ := Option.isSome_iff_exists.mp ((inv.containsKey_iff typ _).mp taken)
      rw [known]
      rfl
    · exact Option.or_none
  have same : ∀ typ' key, status typ' key (past ++ [.addPriority r typ priority id handler]) =
      status typ' key past := fun typ' key => status_snoc
  refine ⟨fun typ' key entry => ?_, fun r' register there typ' key => ?_,
    fun typ' key r' handler' => ?_, fun typ' key => ?_, fun r' typ' key b there => ?_⟩
  · rw [adds, same]
    exact inv.entries typ' key entry
  · rw [adds]
    exact inv.owned r' register there typ' key
  · rw [adds]
    exact inv.known typ' key r' handler'
  · rw [adds, same]
    exact inv.fresh typ' key
  · rw [adds]
    rcases List.mem_append.mp there with before | now
    · exact inv.adjusted r' typ' key b before
    · cases List.mem_singleton.mp now

/-- An addition under a new key. -/
theorem step_addition (inv : Inv past s) {r : Nat} {register : DefaultHookRegister}
    (exists_ : s.registers[r]? = some register) {typ : HookType} {priority : Priority}
    {id : HandlerId} (handler : Handler π ρ)
    (absent : (s.manager.handlers typ).containsKey (toLex (priority, id)) = false) :
    Inv (past ++ [.addPriority r typ priority id handler])
      ⟨s.manager.update typ fun entries =>
          entries.insert (toLex (priority, id)) (HookEntry.new handler),
        s.registers.set r ⟨(typ, toLex (priority, id)) :: register.typeIds⟩⟩ := by
  have unknown : added typ (toLex (priority, id)) past = none := by
    rw [← Option.not_isSome_iff_eq_none, ← inv.containsKey_iff, absent]
    exact Bool.false_ne_true
  have adds : ∀ typ' key, added typ' key (past ++ [.addPriority r typ priority id handler]) =
      if typ = typ' ∧ toLex (priority, id) = key then some (r, handler)
      else added typ' key past := by
    intro typ' key
    rw [added_snoc, Event.adds]
    split
    · rename_i here
      obtain ⟨rfl, rfl⟩ := here
      rw [unknown]
      rfl
    · exact Option.or_none
  have same : ∀ typ' key, status typ' key (past ++ [.addPriority r typ priority id handler]) =
      status typ' key past := fun typ' key => status_snoc
  have inside : r < s.registers.length := (List.getElem?_eq_some_iff.mp exists_).1
  refine ⟨fun typ' key entry => ?_, fun r' register' there typ' key => ?_,
    fun typ' key r' handler' => ?_, fun typ' key => ?_, fun r' typ' key b there => ?_⟩
  · rw [adds, same]
    dsimp only [DefaultHookManager.update]
    by_cases here : typ' = typ
    · subst here
      rw [if_pos rfl, OrdMap.mem_insert absent]
      by_cases this : toLex (priority, id) = key
      · subst this
        rw [if_pos ⟨rfl, rfl⟩]
        constructor
        · intro h
          rcases h with new | old
          · cases new
            exact ⟨⟨r, rfl⟩, (inv.fresh typ' _ unknown).symm⟩
          · obtain ⟨⟨r', known⟩, -⟩ := (inv.entries typ' _ entry).mp old
            rw [unknown] at known
            cases known
        · intro h
          obtain ⟨⟨r', new⟩, enabled⟩ := h
          rw [inv.fresh typ' _ unknown] at enabled
          rcases entry with ⟨handler', enabled'⟩
          cases new
          cases enabled
          exact .inl rfl
      · rw [if_neg (fun h => this h.2), ← inv.entries typ' key entry]
        exact or_iff_right fun new => this (Prod.mk.inj new).1.symm
    · rw [if_neg here, if_neg (fun h => here h.1.symm)]
      exact inv.entries typ' key entry
  · rw [adds]
    rw [List.getElem?_set] at there
    by_cases own : r = r'
    · subst own
      rw [if_pos rfl, if_pos inside] at there
      cases there
      rw [List.mem_cons, inv.owned r register exists_ typ' key]
      by_cases this : typ = typ' ∧ toLex (priority, id) = key
      · obtain ⟨rfl, rfl⟩ := this
        rw [if_pos ⟨rfl, rfl⟩]
        exact ⟨fun _ => ⟨handler, rfl⟩, fun _ => .inl rfl⟩
      · rw [if_neg this]
        exact or_iff_right fun new => this ⟨(Prod.mk.inj new).1.symm, (Prod.mk.inj new).2.symm⟩
    · rw [if_neg own] at there
      rw [inv.owned r' register' there typ' key]
      by_cases this : typ = typ' ∧ toLex (priority, id) = key
      · obtain ⟨rfl, rfl⟩ := this
        rw [if_pos ⟨rfl, rfl⟩, unknown]
        constructor
        · intro h
          obtain ⟨handler', none⟩ := h
          cases none
        · intro h
          obtain ⟨handler', other⟩ := h
          exact absurd (Prod.mk.inj (Option.some.inj other)).1 own
      · rw [if_neg this]
  · rw [adds, List.length_set]
    split
    · intro known
      cases known
      exact inside
    · exact inv.known typ' key r' handler'
  · rw [adds, same]
    split
    · intro none
      cases none
    · exact inv.fresh typ' key
  · rcases List.mem_append.mp there with before | now
    · obtain ⟨handler', known⟩ := inv.adjusted r' typ' key b before
      refine ⟨handler', ?_⟩
      rw [added_snoc, known]
      rfl
    · cases List.mem_singleton.mp now

/-- An adjustment by a register of a handler of its own. -/
theorem step_adjust (inv : Inv past s) {r : Nat} {register : DefaultHookRegister}
    (exists_ : s.registers[r]? = some register) {typ : HookType} {key : Key}
    (own : (typ, key) ∈ register.typeIds) (b : Bool) :
    Inv (past ++ [.adjust r typ key b]) { s with manager := s.manager.setEnabled typ key b } := by
  have adds : ∀ typ' key', added typ' key' (past ++ [Event.adjust r typ key b]) =
      added typ' key' past := by
    intro typ' key'
    rw [added_snoc]
    exact Option.or_none
  have sets : ∀ typ' key', status typ' key' (past ++ [Event.adjust r typ key b]) =
      if typ = typ' ∧ key = key' then b else status typ' key' past := by
    intro typ' key'
    rw [status_snoc, Event.adjusts]
    split <;> rfl
  obtain ⟨handler, known⟩ := (inv.owned r register exists_ typ key).mp own
  refine ⟨fun typ' key' entry => ?_, fun r' register' there typ' key' => ?_,
    fun typ' key' r' handler' => ?_, fun typ' key' => ?_, fun r' typ' key' b' there => ?_⟩
  · rw [adds, sets]
    dsimp only [DefaultHookManager.setEnabled, DefaultHookManager.update]
    by_cases here : typ' = typ
    · subst here
      rw [if_pos rfl, OrdMap.mem_modify]
      by_cases this : key' = key
      · subst this
        rw [if_pos ⟨rfl, rfl⟩]
        constructor
        · intro h
          rcases h with ⟨other, -⟩ | ⟨-, old, there, rfl⟩
          · exact absurd rfl other
          · exact ⟨((inv.entries typ' key' old).mp there).1, rfl⟩
        · intro h
          obtain ⟨known', enabled⟩ := h
          refine .inr ⟨rfl, ⟨entry.handler, status typ' key' past⟩,
            (inv.entries typ' key' _).mpr ⟨known', rfl⟩, ?_⟩
          rcases entry with ⟨handler', enabled'⟩
          cases enabled
          rfl
      · rw [if_neg (fun h => this h.2.symm), ← inv.entries typ' key' entry]
        constructor
        · intro h
          rcases h with ⟨-, there⟩ | ⟨same, -⟩
          · exact there
          · exact absurd same this
        · exact fun there => .inl ⟨this, there⟩
    · rw [if_neg here, if_neg (fun h => here h.1.symm)]
      exact inv.entries typ' key' entry
  · rw [adds]
    exact inv.owned r' register' there typ' key'
  · rw [adds]
    exact inv.known typ' key' r' handler'
  · rw [adds, sets]
    intro none
    rw [if_neg]
    · exact inv.fresh typ' key' none
    · intro this
      obtain ⟨rfl, rfl⟩ := this
      rw [known] at none
      cases none
  · rw [adds]
    rcases List.mem_append.mp there with before | now
    · exact inv.adjusted r' typ' key' b' before
    · cases List.mem_singleton.mp now
      exact ⟨handler, known⟩

/-- Every step keeps the account of what has happened. -/
theorem step_inv (past : List (Event π ρ)) (s : State π ρ) (e : Event π ρ) (s' : State π ρ)
    (inv : Inv past s) (hstep : step s e = some s') : Inv (past ++ [e]) s' := by
  cases e with
  | register =>
      cases hstep
      exact step_register inv
  | addPriority r typ priority id handler =>
      obtain ⟨register, exists_, hstep⟩ := Option.bind_eq_some_iff.mp hstep
      rw [DefaultHookManager.add] at hstep
      cases taken : (s.manager.handlers typ).containsKey (toLex (priority, id)) with
      | true =>
          simp only [taken, if_true] at hstep
          cases hstep
          exact step_repetition inv handler taken
      | false =>
          simp only [taken, Bool.false_eq_true, if_false] at hstep
          cases hstep
          exact step_addition inv exists_ handler taken
  | adjust r typ key b =>
      obtain ⟨register, exists_, hstep⟩ := Option.bind_eq_some_iff.mp hstep
      by_cases own : (typ, key) ∈ register.typeIds
      · rw [if_pos own] at hstep
        cases hstep
        exact step_adjust inv exists_ own b
      · rw [if_neg own] at hstep
        cases hstep

/-! ## Which handlers are called -/

/-- The handlers are called in this order, each with what the one before has left, until one says
not to proceed. -/
def chain (p : π) : List (Handler π ρ) → Option ρ → Option ρ
  | [], acc => acc
  | handler :: handlers, acc =>
      match handler p acc with
      | (true, acc) => chain p handlers acc
      | (false, acc) => acc

/-- The entries that are not enabled play no part. -/
theorem execLoop_eq_chain (p : π) (entries : List (HookEntry π ρ)) (acc : Option ρ) :
    DefaultHookManager.execLoop p entries acc =
      chain p ((entries.filter HookEntry.enabled).map HookEntry.handler) acc := by
  induction entries generalizing acc with
  | nil => rfl
  | cons entry entries ih =>
      rw [DefaultHookManager.execLoop, List.filter_cons]
      cases entry.enabled with
      | false => exact ih acc
      | true =>
          simp only [if_true, List.map_cons, chain]
          rcases answer : entry.handler p acc with ⟨_ | _, newAcc⟩
          all_goals simp only [answer]
          · rfl
          · exact ih newAcc

/-- The handlers that are called: those that have been added and enabled, in the order of their
keys. -/
theorem Inv.calls (inv : Inv past s) (typ : HookType) (p : π) :
    ∃ calls : List (Key × Handler π ρ), calls.Pairwise (fun a b => b.1 < a.1) ∧
      (∀ key handler, (key, handler) ∈ calls ↔
        (∃ r, added typ key past = some (r, handler)) ∧ status typ key past = true) ∧
      s.manager.exec typ p = chain p (calls.map Prod.snd) none := by
  have down := (s.manager.handlers typ).descending
  refine ⟨(((s.manager.handlers typ).toList.reverse.filter fun e => e.2.enabled).map
    fun e => (e.1, e.2.handler)), ?_, fun key handler => ?_, ?_⟩
  · exact (down.filter _).map _ fun _ _ before => before
  · rw [List.mem_map]
    constructor
    · intro h
      obtain ⟨⟨key', entry⟩, there, same⟩ := h
      obtain ⟨listed, enabled⟩ := List.mem_filter.mp there
      cases same
      obtain ⟨known, last⟩ := (inv.entries typ key' entry).mp (List.mem_reverse.mp listed)
      exact ⟨known, last.symm.trans enabled⟩
    · intro h
      obtain ⟨known, last⟩ := h
      refine ⟨(key, ⟨handler, true⟩), List.mem_filter.mpr ⟨List.mem_reverse.mpr ?_, rfl⟩, rfl⟩
      exact (inv.entries typ key _).mpr ⟨known, last.symm⟩
  · rw [DefaultHookManager.exec, execLoop_eq_chain, List.filter_map, List.map_map, List.map_map]
    rfl

theorem inv_of_run {events : List (Event π ρ)} {s : State π ρ}
    (ran : Machine.run step State.initial events = some s) : Inv events s :=
  Machine.invariant_trace step_inv ran inv_initial

/-- After any run of registers and their handlers, `exec` calls the handlers that have been added
first under their key and were enabled by the last adjustment of that key: from the greatest
priority down, those of one priority from the greatest id down, and no others.  A register only
adjusts what was added through it. -/
theorem exec_follows_registers {events : List (Event π ρ)} {s : State π ρ}
    (ran : Machine.run step State.initial events = some s) (typ : HookType) (p : π) :
    (∃ calls : List (Key × Handler π ρ), calls.Pairwise (fun a b => b.1 < a.1) ∧
      (∀ key handler, (key, handler) ∈ calls ↔
        (∃ r, added typ key events = some (r, handler)) ∧ status typ key events = true) ∧
      s.manager.exec typ p = chain p (calls.map Prod.snd) none) ∧
    ∀ r key b, .adjust r typ key b ∈ events →
      ∃ handler, added typ key events = some (r, handler) :=
  ⟨(inv_of_run ran).calls typ p, fun r key b => (inv_of_run ran).adjusted r typ key b⟩

end

/-- Two registers with one handler each, of which the second does not proceed. -/
def twoRegisters : List (Event Unit Nat) :=
  [.register, .register, .addPriority 0 .clientConnect 10 "a" fun _ acc => (true, acc),
    .addPriority 1 .clientConnect 50 "b" fun _ _ => (false, some 1),
    .adjust 0 .clientConnect (toLex (10, "a")) true,
    .adjust 1 .clientConnect (toLex (50, "b")) true]

theorem exec_follows_registers_two :
    ∃ s, Machine.run step State.initial twoRegisters = some s ∧
      (∃ calls : List (Key × Handler Unit Nat), calls.Pairwise (fun a b => b.1 < a.1) ∧
        (∀ key handler, (key, handler) ∈ calls ↔
          (∃ r, added .clientConnect key twoRegisters = some (r, handler)) ∧
            status .clientConnect key twoRegisters = true) ∧
        s.manager.exec .clientConnect () = chain () (calls.map Prod.snd) none) ∧
      ∀ r key b, .adjust r .clientConnect key b ∈ twoRegisters →
        ∃ handler, added .clientConnect key twoRegisters = some (r, handler) :=
  ⟨_, rfl, exec_follows_registers rfl .clientConnect ()⟩

end OxiMqtt.Hook

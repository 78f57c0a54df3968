import OxiMqtt.Lib.Machine
import OxiMqtt.Session.DeliverQueue

/-!
# The wake-ups of the deliver queue

`Sender`, `ReceiverStream` and `Limiter::channel` of `queue.rs`.  The items are in a queue, the
wake-ups of the receiver in a channel of signals.  One task sends and polls, other tasks pop, and a
`send` touches the queue up to three times, so `State.task` says where in a `send` the task is.

A signal is sent from a clone of the sender of its own, which has a place in the channel of its
own, so it is not refused.

* `Inv.step`: what every step keeps, place by place of the `send`.
* `conserved`: no item is lost or doubled, items leave in order, and none lacks a wake-up.
* `send_alone`: without other tasks, the steps of a `send` are `DeliverQueue.send`.
-/

namespace OxiMqtt.Session.DeliverQueue

/-- Where the task that sends and polls is. -/
inductive Task (T : Type) : Type
  | idle
  /-- The item is queued, its signal is not sent. -/
  | queued
  /-- The item was refused, and room is to be made for it. -/
  | refused (v : T)
  /-- The item is to be pushed again, after `removed` was taken out. -/
  | retrying (v : T) (removed : Option T)
  deriving DecidableEq, Repr

/-- The items that the `send` under way holds. -/
def Task.held {T : Type} : Task T → List T
  | .idle => []
  | .queued => []
  | .refused v => [v]
  | .retrying v removed => v :: removed.toList

/-- Queue, signals and calls of the two hooks, and what became of the items: passed to a `send`,
accepted by the queue, gone from it, handed back in an `Err`, and popped by another task or
received. -/
structure State (T : Type) : Type where
  items : List T
  signals : Nat
  task : Task T := .idle
  onPush : Nat := 0
  onPop : Nat := 0
  sent : List T := []
  accepted : List T
  left : List T := []
  handedBack : List T := []
  popped : List T := []
  deriving DecidableEq, Repr

namespace State

variable {T : Type}

/-- `Limiter::channel`: a signal for every item of the queue. -/
def channel (items : List T) : State T where
  items
  signals := items.length
  accepted := items

/-- `Queue::push`, with the hook; `none` is the `Err`. -/
def push (cap : Nat) (s : State T) (v : T) : Option (State T) :=
  (DeliverQueue.push cap s.items v).map fun items =>
    { s with items, onPush := s.onPush + 1, accepted := s.accepted ++ [v] }

/-- `Queue::pop`, with the hook. -/
def pop (s : State T) : State T × Option T :=
  match s.items with
  | [] => (s, none)
  | v :: items => ({ s with items, onPop := s.onPop + 1, left := s.left ++ [v] }, some v)

/-- The call of `send` is noted. -/
def call (s : State T) (v : T) : State T :=
  { s with sent := s.sent ++ [v] }

/-- `Sender::send`, to its first access of the queue. -/
def send (cap : Nat) (policyFn : T → Policy) (s : State T) (v : T) : State T :=
  match (s.call v).push cap v with
  | some s => { s with task := .queued }
  | none =>
      match policyFn v with
      | .current => { s.call v with handedBack := s.handedBack ++ [v] }
      | .early => { s.call v with task := .refused v }

/-- `Sender::send`, its second access under `Policy::Early`. -/
def makeRoom (s : State T) (v : T) : State T :=
  { s.pop.1 with task := .retrying v s.pop.2 }

/-- `Sender::send`, its third access under `Policy::Early`: what was taken out is handed back only
where there is room for the item now. -/
def retry (cap : Nat) (s : State T) (v : T) (removed : Option T) : State T :=
  match s.push cap v with
  | some s => { s with handedBack := s.handedBack ++ removed.toList, task := .idle }
  | none => { s with handedBack := s.handedBack ++ [v], task := .idle }

/-- `Queue::pop` for a caller that keeps the item. -/
def take (s : State T) : State T :=
  { s.pop.1 with popped := s.pop.1.popped ++ s.pop.2.toList }

/-- `ReceiverStream::poll_next`, which waits where there is no signal. -/
def poll (s : State T) : State T :=
  match s.signals with
  | 0 => s
  | signals + 1 => { s with signals }.take

end State

/-- What the task does next, or a pop of another task. -/
inductive Action (T : Type) : Type
  | send (v : T)
  /-- The next access of the `send` under way. -/
  | resume
  | poll
  | pop

variable {T : Type}

/-- A step.  A pop of another task between the signal and the pop of a poll is one before the
poll, so a poll is one step. -/
def step (cap : Nat) (policyFn : T → Policy) (s : State T) : Action T → Option (State T)
  | .send v =>
      match s.task with
      | .idle => some (s.send cap policyFn v)
      | _ => none
  | .resume =>
      match s.task with
      | .idle => none
      | .queued => some { s with signals := s.signals + 1, task := .idle }
      | .refused v => some (s.makeRoom v)
      | .retrying v removed => some (s.retry cap v removed)
  | .poll =>
      match s.task with
      | .idle => some s.poll
      | _ => none
  | .pop => some s.take

/-! ## The accounts -/

/-- The accounts of a channel made over the queue `initial`. -/
structure Accounts (cap : Nat) (initial : List T) (s : State T) (held : List T) : Prop where
  bound : s.items.length ≤ cap
  fifo : s.accepted = s.left ++ s.items
  conserved : (initial ++ s.sent).Perm (s.items ++ s.handedBack ++ s.popped ++ held)
  hooks : s.onPush + initial.length = s.onPop + s.items.length

/-- How the signals compare to the queue. -/
def Woken (cap : Nat) (s : State T) : Task T → Prop
  | .idle => s.items.length ≤ s.signals
  | .queued => s.items.length ≤ s.signals + 1
  | .refused _ => cap ≤ s.signals
  -- Room was made, or the queue was empty already.
  | .retrying _ removed => cap ≤ s.signals ∧ (removed.isSome → s.items.length < cap)

structure Inv (cap : Nat) (initial : List T) (s : State T) : Prop where
  accounts : Accounts cap initial s s.task.held
  woken : Woken cap s s.task

variable {cap : Nat} {initial : List T}

theorem push_cases (cap : Nat) (s : State T) (v : T) :
    (s.items.length < cap ∧ s.push cap v = some
        { s with
          items := s.items ++ [v], onPush := s.onPush + 1, accepted := s.accepted ++ [v] }) ∨
      cap ≤ s.items.length ∧ s.push cap v = none := by
  rcases Nat.lt_or_ge s.items.length cap with room | full
  · exact .inl ⟨room, by rw [State.push, push_of_lt room, Option.map_some]⟩
  · exact .inr ⟨full, by rw [State.push, push_of_le full, Option.map_none]⟩

/-- What the first access of a `send` does. -/
theorem send_cases (cap : Nat) (policyFn : T → Policy) (s : State T) (v : T) :
    (s.items.length < cap ∧ s.send cap policyFn v =
        { s.call v with
          items := s.items ++ [v], onPush := s.onPush + 1, accepted := s.accepted ++ [v]
          task := .queued }) ∨
      cap ≤ s.items.length ∧
        ((policyFn v = .current ∧ s.send cap policyFn v =
            { s.call v with handedBack := s.handedBack ++ [v] }) ∨
          policyFn v = .early ∧
            s.send cap policyFn v = { s.call v with task := .refused v }) := by
  have sent := State.send.eq_1 cap policyFn s v
  rcases push_cases cap (s.call v) v with ⟨room, pushed⟩ | ⟨full, pushed⟩
  · rw [pushed] at sent
    exact .inl ⟨room, sent⟩
  · rw [pushed] at sent
    refine .inr ⟨full, ?_⟩
    cases policy : policyFn v with
    | current =>
        rw [policy] at sent
        exact .inl ⟨rfl, sent⟩
    | early =>
        rw [policy] at sent
        exact .inr ⟨rfl, sent⟩

theorem pop_cases (s : State T) :
    (s.items = [] ∧ s.pop = (s, none)) ∨
      ∃ v items, s.items = v :: items ∧ s.pop =
        ({ s with items, onPop := s.onPop + 1, left := s.left ++ [v] }, some v) := by
  unfold State.pop
  split
  · rename_i empty
    exact .inl ⟨empty, rfl⟩
  · rename_i v items first
    exact .inr ⟨v, items, first, rfl⟩

@[simp] theorem pop_signals (s : State T) : s.pop.1.signals = s.signals := by
  rcases pop_cases s with ⟨-, popped⟩ | ⟨v, items, -, popped⟩ <;> rw [popped]

@[simp] theorem pop_task (s : State T) : s.pop.1.task = s.task := by
  rcases pop_cases s with ⟨-, popped⟩ | ⟨v, items, -, popped⟩ <;> rw [popped]

theorem pop_length (s : State T) : s.pop.1.items.length = s.items.length - 1 := by
  rcases pop_cases s with ⟨empty, popped⟩ | ⟨v, items, first, popped⟩
  · rw [popped, empty]
    rfl
  · rw [popped, first]
    rfl

theorem pop_nonempty {s : State T} (popped : s.pop.2.isSome) : 0 < s.items.length := by
  rcases pop_cases s with ⟨-, none⟩ | ⟨v, items, first, -⟩
  · rw [none] at popped
    cases popped
  · rw [first]
    exact Nat.succ_pos _

namespace Accounts

variable {s : State T} {held : List T}

/-- An item passed to a `send` is held by it. -/
theorem call (accounts : Accounts cap initial s held) (v : T) :
    Accounts cap initial (s.call v) (held ++ [v]) := by
  refine ⟨accounts.bound, accounts.fifo, ?_, accounts.hooks⟩
  rw [State.call, ← List.append_assoc, ← List.append_assoc]
  exact accounts.conserved.append_right [v]

/-- A held item that is pushed is queued. -/
theorem push {v : T} (accounts : Accounts cap initial s (v :: held))
    (room : s.items.length < cap) :
    Accounts cap initial
      { s with items := s.items ++ [v], onPush := s.onPush + 1, accepted := s.accepted ++ [v] }
      held := by
  refine ⟨?_, ?_, accounts.conserved.trans ?_, ?_⟩
  · rw [List.length_append]
    exact room
  · dsimp only
    rw [accounts.fifo, List.append_assoc]
  · have moved : (s.items ++ (s.handedBack ++ s.popped ++ v :: held)).Perm
        (s.items ++ (v :: (s.handedBack ++ s.popped ++ held))) :=
      List.perm_middle.append_left s.items
    simpa only [List.append_assoc, List.cons_append, List.nil_append] using moved
  · have hooks := accounts.hooks
    dsimp only
    rw [List.length_append, List.length_singleton]
    omega

/-- An item that is popped is held. -/
theorem pop (accounts : Accounts cap initial s held) :
    Accounts cap initial s.pop.1 (held ++ s.pop.2.toList) := by
  rcases pop_cases s with ⟨-, popped⟩ | ⟨v, items, first, popped⟩
  · rw [popped, Option.toList_none, List.append_nil]
    exact accounts
  · obtain ⟨bound, fifo, conserved, hooks⟩ := accounts
    rw [first] at bound fifo conserved hooks
    rw [List.length_cons] at bound hooks
    rw [popped, Option.toList_some]
    refine ⟨Nat.le_of_succ_le bound, ?_, conserved.trans ?_, ?_⟩
    · dsimp only
      rw [fifo, List.append_assoc, List.singleton_append]
    · have moved := (List.perm_append_singleton v
        (items ++ s.handedBack ++ s.popped ++ held)).symm
      simpa only [List.append_assoc, List.cons_append] using moved
    · dsimp only
      omega

/-- Items that are held are handed back. -/
theorem handBack {vs : List T} (accounts : Accounts cap initial s (held ++ vs)) :
    Accounts cap initial { s with handedBack := s.handedBack ++ vs } held := by
  refine ⟨accounts.bound, accounts.fifo, accounts.conserved.trans ?_, accounts.hooks⟩
  have moved : ((s.items ++ s.handedBack) ++ ((s.popped ++ held) ++ vs)).Perm
      ((s.items ++ s.handedBack) ++ (vs ++ (s.popped ++ held))) :=
    List.perm_append_comm.append_left _
  simpa only [List.append_assoc] using moved

/-- Items that are held are taken by another task or by the receiver. -/
theorem take {vs : List T} (accounts : Accounts cap initial s (held ++ vs)) :
    Accounts cap initial { s with popped := s.popped ++ vs } held := by
  refine ⟨accounts.bound, accounts.fifo, accounts.conserved.trans ?_, accounts.hooks⟩
  have moved : ((s.items ++ s.handedBack ++ s.popped) ++ (held ++ vs)).Perm
      ((s.items ++ s.handedBack ++ s.popped) ++ (vs ++ held)) :=
    List.perm_append_comm.append_left _
  simpa only [List.append_assoc] using moved

/-- Where the task is and how many signals there are is not in the accounts. -/
theorem move (accounts : Accounts cap initial s held) (signals : Nat) (task : Task T) :
    Accounts cap initial { s with signals, task } held :=
  ⟨accounts.bound, accounts.fifo, accounts.conserved, accounts.hooks⟩

end Accounts

theorem Inv.send {policyFn : T → Policy} {s : State T} (inv : Inv cap initial s)
    (task : s.task = .idle) (v : T) : Inv cap initial (s.send cap policyFn v) := by
  obtain ⟨accounts, woken⟩ := inv
  rw [task] at accounts woken
  have held := accounts.call v
  rcases send_cases cap policyFn s v with
    ⟨room, sent⟩ | ⟨full, ⟨-, sent⟩ | ⟨-, sent⟩⟩
  · rw [sent]
    refine ⟨(held.push room).move _ _, ?_⟩
    change (s.items ++ [v]).length ≤ s.signals + 1
    rw [List.length_append]
    exact Nat.succ_le_succ woken
  · rw [sent]
    have idle : (s.call v).task = .idle := task
    refine ⟨?_, ?_⟩
    · dsimp only
      rw [idle]
      exact held.handBack.move _ _
    · dsimp only
      rw [idle]
      exact woken
  · rw [sent]
    have signals : cap ≤ s.signals := Nat.le_trans full woken
    exact ⟨held.move _ _, signals⟩

theorem Inv.makeRoom {s : State T} (inv : Inv cap initial s) {v : T} (task : s.task = .refused v) :
    Inv cap initial (s.makeRoom v) := by
  obtain ⟨accounts, woken⟩ := inv
  rw [task] at accounts woken
  refine ⟨accounts.pop.move _ _, ?_, ?_⟩
  · rw [State.makeRoom, pop_signals]
    exact woken
  · intro isSome
    have nonempty := pop_nonempty isSome
    have shorter := pop_length s
    have bound := accounts.bound
    rw [State.makeRoom]
    dsimp only
    omega

theorem Inv.retry {s : State T} (inv : Inv cap initial s) {v : T} {removed : Option T}
    (task : s.task = .retrying v removed) : Inv cap initial (s.retry cap v removed) := by
  obtain ⟨accounts, woken⟩ := inv
  rw [task] at accounts woken
  unfold State.retry
  rcases push_cases cap s v with ⟨room, pushed⟩ | ⟨full, pushed⟩
  · rw [pushed]
    have queued : Accounts cap initial _ [] := (accounts.push room).handBack
    refine ⟨queued.move _ _, ?_⟩
    change (s.items ++ [v]).length ≤ s.signals
    rw [List.length_append]
    exact Nat.lt_of_lt_of_le room woken.1
  · rw [pushed]
    -- A queue that is full was not full before only if nothing was taken out of it.
    have none : removed = none := by
      cases removed with
      | none => rfl
      | some v' => exact absurd (woken.2 rfl) (Nat.not_lt.mpr full)
    rw [none] at accounts
    have refused : Accounts cap initial _ [] := accounts.handBack
    have signals : s.items.length ≤ s.signals := Nat.le_trans accounts.bound woken.1
    exact ⟨refused.move _ _, signals⟩

/-- A pop of another task, wherever the `send` is. -/
theorem Inv.take {s : State T} (inv : Inv cap initial s) : Inv cap initial s.take := by
  obtain ⟨accounts, woken⟩ := inv
  have shorter := pop_length s
  unfold State.take
  refine ⟨?_, ?_⟩
  · rw [pop_task]
    exact accounts.pop.take
  · rw [pop_task]
    cases task : s.task with
    | idle =>
        rw [task] at woken
        change s.items.length ≤ s.signals at woken
        change s.pop.1.items.length ≤ s.pop.1.signals
        rw [pop_signals]
        omega
    | queued =>
        rw [task] at woken
        change s.items.length ≤ s.signals + 1 at woken
        change s.pop.1.items.length ≤ s.pop.1.signals + 1
        rw [pop_signals]
        omega
    | refused v =>
        rw [task] at woken
        change cap ≤ s.pop.1.signals
        rw [pop_signals]
        exact woken
    | retrying v removed =>
        rw [task] at woken
        refine ⟨?_, ?_⟩
        · dsimp only
          rw [pop_signals]
          exact woken.1
        · intro isSome
          have room := woken.2 isSome
          dsimp only
          omega

/-- A poll that takes a signal is a pop after it. -/
theorem Inv.poll {s : State T} (inv : Inv cap initial s) (task : s.task = .idle) :
    Inv cap initial s.poll := by
  obtain ⟨accounts, woken⟩ := inv
  rw [task] at accounts woken
  change s.items.length ≤ s.signals at woken
  unfold State.poll
  cases signals : s.signals with
  | zero => exact ⟨by rw [task]; exact accounts, by rw [task]; exact woken⟩
  | succ n =>
      have idle : (State.take { s with signals := n }).task = .idle := (pop_task _).trans task
      have shorter := pop_length { s with signals := n }
      refine ⟨?_, ?_⟩
      · rw [idle]
        exact (accounts.move n s.task).pop.take
      · rw [idle]
        change (State.pop { s with signals := n }).1.items.length ≤
          (State.pop { s with signals := n }).1.signals
        rw [pop_signals, shorter]
        dsimp only
        omega

theorem Inv.step {policyFn : T → Policy} {s s' : State T} {action : Action T}
    (inv : Inv cap initial s) (h : step cap policyFn s action = some s') :
    Inv cap initial s' := by
  cases action with
  | send v =>
      cases task : s.task with
      | idle =>
          rw [DeliverQueue.step, task] at h
          cases h
          exact inv.send task v
      | queued | refused | retrying =>
          rw [DeliverQueue.step, task] at h
          cases h
  | resume =>
      cases task : s.task with
      | idle =>
          rw [DeliverQueue.step, task] at h
          cases h
      | queued =>
          have accounts := inv.accounts
          have woken := inv.woken
          rw [task] at accounts woken
          simp only [DeliverQueue.step, task] at h
          cases h
          exact ⟨accounts.move _ _, woken⟩
      | refused v =>
          rw [DeliverQueue.step, task] at h
          cases h
          exact inv.makeRoom task
      | retrying v removed =>
          rw [DeliverQueue.step, task] at h
          cases h
          exact inv.retry task
  | poll =>
      cases task : s.task with
      | idle =>
          rw [DeliverQueue.step, task] at h
          cases h
          exact inv.poll task
      | queued | refused | retrying =>
          rw [DeliverQueue.step, task] at h
          cases h
  | pop =>
      cases h
      exact inv.take

theorem inv_channel (within : initial.length ≤ cap) :
    Inv cap initial (State.channel initial) := by
  refine ⟨⟨within, rfl, ?_, rfl⟩, Nat.le_refl _⟩
  change (initial ++ []).Perm (initial ++ [] ++ [] ++ [])
  simp only [List.append_nil]
  exact .refl _

/-! ## Runs -/

/-- After any steps: the queue is within its bound, the items leave it in the order they were
accepted in, every item is queued, handed back, popped or held by the `send` under way, the calls
of the two hooks differ by the growth of the queue, and between two `send`s there is a signal for
every item. -/
theorem conserved {policyFn : T → Policy} (within : initial.length ≤ cap) {s : State T}
    {actions : List (Action T)}
    (ran : Machine.run (step cap policyFn) (State.channel initial) actions = some s) :
    s.items.length ≤ cap ∧ s.accepted = s.left ++ s.items ∧
      (initial ++ s.sent).Perm (s.items ++ s.handedBack ++ s.popped ++ s.task.held) ∧
      (s.onPush : Int) - s.onPop = s.items.length - initial.length ∧
      (s.task = .idle → s.task.held = [] ∧ s.items.length ≤ s.signals) := by
  have inv : Inv cap initial s :=
    Machine.invariant_run (fun _ _ _ inv h => Inv.step inv h) ran (inv_channel within)
  obtain ⟨⟨bound, fifo, conserved, hooks⟩, woken⟩ := inv
  refine ⟨bound, fifo, conserved, by omega, ?_⟩
  intro idle
  rw [idle] at woken ⊢
  exact ⟨rfl, woken⟩

/-- An item is refused, the earliest one is handed back for it, and the others are received. -/
theorem conserved_early :
    ∃ s : State Nat,
      Machine.run (step 2 fun _ => .early) (State.channel [7, 8])
        [.send 9, .resume, .resume, .poll, .poll] = some s ∧
      s.items.length ≤ 2 ∧ s.accepted = s.left ++ s.items ∧
      ([7, 8] ++ s.sent).Perm (s.items ++ s.handedBack ++ s.popped ++ s.task.held) ∧
      (s.onPush : Int) - s.onPop = s.items.length - [7, 8].length ∧
      (s.task = .idle → s.task.held = [] ∧ s.items.length ≤ s.signals) := by
  have ran : Machine.run (step 2 fun _ => .early) (State.channel [7, 8])
      [.send 9, .resume, .resume, .poll, .poll] = some _ := rfl
  exact ⟨_, ran, conserved (by decide) ran⟩

/-- A `send` that makes room for an item holds it, and it is in no other place. -/
theorem refused_held :
    ∃ s : State Nat,
      Machine.run (step 1 fun _ => .early) (State.channel [7]) [.send 8] = some s ∧
        8 ∈ s.sent ∧ 8 ∉ s.items ∧ 8 ∉ s.handedBack ∧ 8 ∉ s.popped :=
  ⟨_, rfl, by decide, by decide, by decide, by decide⟩

theorem pop_eq (s : State T) : s.pop.1.items = s.items.tail ∧ s.pop.2 = s.items.head? ∧
    s.pop.1.handedBack = s.handedBack := by
  rcases pop_cases s with ⟨empty, popped⟩ | ⟨v, items, first, popped⟩
  · rw [popped, empty]
    exact ⟨rfl, rfl, rfl⟩
  · rw [popped, first]
    exact ⟨rfl, rfl, rfl⟩

/-- Where no other task pops, the steps of a `send` are `DeliverQueue.send`. -/
theorem send_alone (cap : Nat) (policyFn : T → Policy) {s : State T} (task : s.task = .idle)
    (v : T) :
    ∃ n s', Machine.run (step cap policyFn) s (.send v :: List.replicate n .resume) = some s' ∧
      s'.task = .idle ∧ s'.items = (DeliverQueue.send cap policyFn s.items v).1 ∧
      s'.handedBack = s.handedBack ++ (DeliverQueue.send cap policyFn s.items v).2.toList := by
  have started : step cap policyFn s (.send v) = some (s.send cap policyFn v) := by
    rw [step, task]
  unfold DeliverQueue.send
  rcases send_cases cap policyFn s v with
    ⟨room, sent⟩ | ⟨full, ⟨policy, sent⟩ | ⟨policy, sent⟩⟩
  · rw [sent] at started
    rw [push_of_lt room]
    refine ⟨1, { s.call v with
      items := s.items ++ [v], onPush := s.onPush + 1, accepted := s.accepted ++ [v]
      signals := s.signals + 1, task := .idle }, ?_, rfl, rfl, (List.append_nil _).symm⟩
    rw [Machine.run, started]
    rfl
  · rw [sent] at started
    rw [push_of_le full, policy]
    refine ⟨0, { s.call v with handedBack := s.handedBack ++ [v] }, ?_, task, rfl, rfl⟩
    rw [Machine.run, started]
    rfl
  · rw [sent] at started
    rw [push_of_le full, policy]
    obtain ⟨tail, head, handedBack⟩ := pop_eq { s.call v with task := .refused v }
    have items : (State.makeRoom { s.call v with task := .refused v } v).items =
        s.items.tail := tail
    refine ⟨2, (State.makeRoom { s.call v with task := .refused v } v).retry cap v
      (State.pop { s.call v with task := .refused v }).2, ?_, ?_⟩
    · rw [Machine.run, started]
      rfl
    · rw [State.retry]
      rcases push_cases cap (State.makeRoom { s.call v with task := .refused v } v) v with
        ⟨room, pushed⟩ | ⟨full, pushed⟩
      · rw [items] at room
        rw [pushed, push_of_lt room]
        refine ⟨rfl, ?_, ?_⟩
        · dsimp only
          rw [items]
        · exact congrArg₂ (fun back removed => back ++ Option.toList removed) handedBack head
      · rw [items] at full
        rw [pushed, push_of_le full]
        exact ⟨rfl, items, congrArg (· ++ [v]) handedBack⟩

end OxiMqtt.Session.DeliverQueue

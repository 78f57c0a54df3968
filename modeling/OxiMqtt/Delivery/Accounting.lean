import OxiMqtt.Delivery.Machine
import OxiMqtt.Lib.Ledger

/-!
# No copy is lost

Every relation that a match finds for this node, and every retained message that a load finds, is
due to a client.  In a run of any publishes and subscribes at the same time, while clients come and
go, what was due is put to a channel, reported as dropped, or still held by its task, each once.

* `balanced_step`: what every step keeps.
* `copies_accounted`: the ledger of a run.
-/

namespace OxiMqtt.Delivery

open OxiMqtt.Router

variable {node : Node}

/-- The copies in the channels and those that were reported as dropped. -/
def State.out (s : State) : List (From × Publish) :=
  (s.channel.map fun e => timeless e.2.source e.2.publish) ++
    s.dropped.map fun e => timeless e.source e.publish

/-- What was due is out or held by a task. -/
def Balanced (s : State) : Prop := Ledger.Balanced Task.copies s.out s.tasks s.due

theorem Balanced.of_same {s s' : State} (balanced : Balanced s) (out : s'.out = s.out)
    (tasks : s'.tasks = s.tasks) (due : s'.due = s.due) : Balanced s' := by
  rw [Balanced, out, tasks, due]
  exact balanced

/-- A task that finds and puts out nothing goes on. -/
theorem Balanced.become {s s' : State} {k : Nat} {task task' : Task} (balanced : Balanced s)
    (at_ : s.tasks[k]? = some task) (out : s'.out = s.out) (tasks : s'.tasks = s.tasks.set k task')
    (due : s'.due = s.due) (same : task'.copies.Perm task.copies) : Balanced s' := by
  have kept := balanced.set at_ task' [] [] (by rw [List.append_nil]) same
  rw [List.append_nil] at kept
  rw [Balanced, out, tasks, due]
  exact kept

/-- A task that held nothing has found copies, and holds them. -/
theorem Balanced.find {s : State} {k : Nat} {task task' : Task} (balanced : Balanced s)
    (at_ : s.tasks[k]? = some task) (empty : task.copies = []) : Balanced (s.find k task') := by
  refine balanced.set at_ task' [] task'.copies (by rw [List.append_nil]; rfl) ?_
  rw [empty, List.append_nil, List.nil_append]

theorem out_channel (s : State) (clientId : ClientId) (sent : Sent From) :
    ({ s with channel := s.channel ++ [(clientId, sent)] } : State).out.Perm
      (s.out ++ [timeless sent.source sent.publish]) := by
  unfold State.out
  rw [List.map_append, List.append_assoc, List.append_assoc]
  exact List.perm_append_comm.append_left _

theorem out_dropped (s : State) (failures : List (Failure From)) :
    ({ s with dropped := s.dropped ++ failures } : State).out =
      s.out ++ failures.map fun e => timeless e.source e.publish := by
  unfold State.out
  rw [List.map_append, List.append_assoc]

theorem balanced_forwarded {k : Nat} {s : State} {m : Message} {st : Forwarding From}
    (balanced : Balanced s) (at_ : s.tasks[k]? = some (.forwarding m [] st)) :
    Balanced (forwarded node k m st s) := by
  unfold forwarded
  split
  · rename_i none
    have empty : st.errs = [] := List.isEmpty_iff.mp none
    have held : Task.copies (.forwarding m [] st) = [] := by rw [Task.copies, empty]; rfl
    split <;> exact balanced.become at_ rfl rfl rfl (.of_eq held.symm)
  · have kept := balanced.set at_ .done
      ((st.errs.map Prod.snd).map fun e => timeless e.source e.publish) []
      (List.Perm.of_eq (out_dropped s (st.errs.map Prod.snd))) (by
        rw [List.map_map]
        exact List.Perm.of_eq (List.append_nil _))
    rw [List.append_nil] at kept
    exact kept

theorem copies_afterSet (retainer : RetainStorage.RamRetainer.State From) (k : Nat) (m : Message) :
    (afterSet retainer k m).copies = [] := by
  unfold afterSet
  split <;> rfl

theorem balanced_advance {env : MatchEnv} {now : Int} {k : Nat} {s s' : State} {task : Task}
    (balanced : Balanced s) (at_ : s.tasks[k]? = some task)
    (advanced : Advanced node env now k s task s') : Balanced s' := by
  cases advanced with
  | refused e stepped result => exact balanced.become at_ rfl rfl rfl .rfl
  | @stored m retainer stepped result =>
      exact balanced.become at_ rfl rfl rfl (.of_eq (copies_afterSet retainer k m))
  | targeted target => exact balanced.find at_ rfl
  | unreadable e target read => exact balanced.become at_ rfl rfl rfl .rfl
  | yielded target read => exact balanced.become at_ rfl rfl rfl .rfl
  | visited => exact balanced.become at_ rfl rfl rfl .rfl
  | found own => exact balanced.find at_ rfl
  | unfound own => exact balanced.become at_ rfl rfl rfl .rfl
  | @sent m rel i relations st dest peer =>
      have errs : (forwardOne (fun _ => s.peers) m.source m.publish st (rel, i)).errs =
        st.errs := by
        rw [forwardOne, peer]
      have kept := balanced.set at_ (.forwarding m relations
        (forwardOne (fun _ => s.peers) m.source m.publish st (rel, i))) _ []
        (out_channel s rel.clientId ⟨dest, m.source, forwardCopy m.publish rel⟩)
        (List.Perm.of_eq (by rw [Task.copies, errs]; rfl))
      rw [List.append_nil] at kept
      exact kept
  | @failed m rel i relations st dest reason refused =>
      refine balanced.become at_ rfl rfl rfl ?_
      rw [Task.copies, Task.copies, List.map_append, List.map_cons, ← List.append_assoc]
      exact List.perm_append_comm
  | forwarded => exact balanced_forwarded balanced at_
  | added idle => exact balanced.become at_ rfl rfl rfl .rfl
  | unloaded why => exact balanced.become at_ rfl rfl rfl .rfl
  | loaded enabled found =>
      exact Balanced.find (balanced.of_same rfl rfl rfl) at_ rfl
  | @resent l topic retain retains dest peer =>
      have kept := balanced.set at_ (.sending l retains) _ []
        (out_channel s l.id.clientId
          ⟨dest, retain.source, retainedCopy now l.opts.qos topic retain⟩) List.Perm.rfl
      rw [List.append_nil] at kept
      exact kept
  | @lost l topic retain retains reason refused =>
      have kept := balanced.set at_ (.sending l retains) _ []
        (List.Perm.of_eq (out_dropped s
          [⟨l.id, retain.source, retainedCopy now l.opts.qos topic retain, reason⟩])) List.Perm.rfl
      rw [List.append_nil] at kept
      exact kept
  | ended => exact balanced.become at_ rfl rfl rfl .rfl

theorem balanced_step {s s' : State} {a : Action} (balanced : Balanced s)
    (h : step node s a = some s') : Balanced s' := by
  cases a with
  | publish m =>
      rw [step, publish] at h
      split at h
      · obtain ⟨retainer, -, rfl⟩ := Option.map_eq_some_iff.mp h
        exact balanced.start (copies_afterSet retainer s.tasks.length m)
      · cases h
        exact balanced.start rfl
  | subscribe l =>
      rw [step, subscribe] at h
      split at h
      · cases h
        exact balanced
      · split at h
        · split at h
          · cases h
            exact balanced
          · obtain ⟨routes, -, rfl⟩ := Option.map_eq_some_iff.mp h
            exact balanced.start rfl
        · cases h
  | proceed k env now =>
      obtain ⟨task, at_, advanced⟩ := Option.bind_eq_some_iff.mp h
      exact balanced_advance balanced at_ (advance_cases advanced)
  | router action =>
      obtain ⟨routes, -, rfl⟩ := Option.map_eq_some_iff.mp h
      exact balanced
  | removeExpiredMessages =>
      rw [step] at h
      obtain ⟨retainer, -, rfl⟩ := Option.map_eq_some_iff.mp h
      exact balanced
  | peer clientId peer =>
      cases h
      exact balanced

/-- In a run of publishes and subscribes at the same time, every copy that was due is in a channel,
reported as dropped or held by its task, as often as it was due; and when the tasks have ended, none
is held. -/
theorem copies_accounted {actions : List Action} {s : State}
    (ran : Machine.run (step node) {} actions = some s) :
    (s.out ++ s.tasks.flatMap Task.copies).Perm s.due ∧
      ((∀ task ∈ s.tasks, task.isDone = true) → s.out.Perm s.due) := by
  have start : Balanced ({} : State) := Ledger.balanced_nil
  have balanced := Machine.invariant_run (fun _ _ _ kept h => balanced_step kept h) ran start
  refine ⟨balanced, fun ended => balanced.settled fun task member => ?_⟩
  have done := ended task member
  cases task <;> first | rfl | cases done

/-- The copy of the publish and that of the retained message are both in the channel. -/
theorem copies_accounted_both : ∃ s,
    Machine.run (step oneNode) {} (subscribing ++ publishing) = some s ∧ s.channel.length = 2 ∧
      s.out.Perm s.due := by
  obtain ⟨s, ran, final⟩ := (Option.any_eq_true _ _).mp
    (by decide +kernel : (Machine.run (step oneNode) {} (subscribing ++ publishing)).any
      (fun s => s.channel.length == 2 && s.tasks.all Task.isDone) = true)
  rw [Bool.and_eq_true, beq_iff_eq, List.all_eq_true] at final
  exact ⟨s, ran, final.1, (copies_accounted ran).2 final.2⟩

end OxiMqtt.Delivery

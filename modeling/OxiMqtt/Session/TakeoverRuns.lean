import OxiMqtt.Lib.Machine
import OxiMqtt.Session.TakeoverBalance

/-!
# Runs of a takeover

`Lifecycle` says who owns the queue and the window of the old session while it ends
and the handshake drains them; with `Balanced` it is kept by every step.

* `takeover_conserves`: in the runs that meet `DiscardsNone`, every message whose
  send succeeded is at exactly one place; when the takeover is over, it is delivered
  on the old connection, in the transferred state, in the new session's channel or
  reported.
* `forward_behind_kick_lost`: a message sent behind the Kick is at no place.
-/

namespace OxiMqtt.Session.Takeover

open OxiMqtt.Codec (QoS Publish)
open Outbound (MsgId)

/-! ## How the old session ends -/

namespace OldSession

variable {o : OldSession}

/-- Nothing is left for the new session to take. -/
def Idle (o : OldSession) : Prop := o.queue = [] ∧ o.outInflight.queues = []

/-- The task is in one of its loops or discards its state. -/
def Runs (o : OldSession) : Prop := o.phase = .online ∨ o.phase = .offline ∨ o.phase = .cleaning

theorem phase_track (w : OutInflight MsgId) (m : OutInflightMessage MsgId) :
    (o.track w m).phase = o.phase := by
  unfold track
  split <;> rfl

theorem phase_reforward (m : OutInflightMessage MsgId) (expired : Bool) :
    (o.reforward m expired).phase = o.phase := by
  unfold reforward
  split
  · split <;> rfl
  · rfl

theorem phase_deliver {o' : OldSession} {msg : MsgId} {p : Publish} {expired : Bool}
    (hstep : o.deliver msg p expired = some o') : o'.phase = o.phase := by
  unfold deliver at hstep
  split at hstep
  · cases hstep
    rfl
  · obtain ⟨⟨p', w⟩, -, rfl⟩ := Option.map_eq_some_iff.mp hstep
    simp only
    split
    · exact phase_track _ _
    · exact phase_track _ _
    · rfl

theorem phase_processMessage (waiting : Bool) (m : Message) (runs : o.Runs) :
    (o.processMessage waiting m).Runs ∨
      (waiting = true ∧ (o.processMessage waiting m).phase = .kicked ∧
        (o.processMessage waiting m).replied = true) := by
  cases m with
  | forward msg p => exact .inl runs
  | kick =>
      simp only [processMessage, kick]
      split
      · exact .inr ⟨‹_›, rfl, rfl⟩
      · exact .inl runs
  | sendRerelease m =>
      left
      simp only [processMessage]
      split
      · split
        · exact .inr (.inl rfl)
        · rw [Runs, phase_track]
          exact runs
      · exact runs

theorem phase_clean : o.clean.phase = o.phase ∨ (o.clean.phase = .cleaned ∧ o.clean.Idle) := by
  unfold clean
  split
  · exact .inl rfl
  · rename_i hqueue
    unfold OutInflight.popFront
    cases hwindow : o.outInflight.queues with
    | nil => exact .inr ⟨rfl, hqueue, hwindow⟩
    | cons e rest => exact .inl rfl

/-- The task goes on, is kicked, has discarded its state, or has left its loops
and touches the queue and the window no more. -/
theorem step_phase {o' : OldSession} {waiting : Bool} {a : OldStep}
    (hstep : o.step waiting a = some o') :
    (o.Runs ∧ o'.Runs) ∨
    (o.Runs ∧ waiting = true ∧ o'.phase = .kicked ∧ o'.replied = true) ∨
    (o.Runs ∧ o'.phase = .cleaned ∧ o'.Idle) ∨
    (¬ o.Runs ∧ (o'.phase = o.phase ∧ o'.channel = o.channel ∨
        o'.phase = .gone ∧ o'.channel = []) ∧
      o'.queue = o.queue ∧ o'.outInflight = o.outInflight ∧ o'.replied = o.replied) := by
  cases steps_of_step hstep with
  | tick elapsed =>
      by_cases runs : o.Runs
      · exact .inl ⟨runs, runs⟩
      · exact .inr (.inr (.inr ⟨runs, .inl ⟨rfl, rfl⟩, rfl, rfl, rfl⟩))
  | @message m channel loops hchannel =>
      have runs : o.Runs := loops.elim .inl fun h => .inr (.inl h)
      obtain goes | kicked := phase_processMessage (o := { o with channel }) waiting m runs
      · exact .inl ⟨runs, goes⟩
      · exact .inr (.inl ⟨runs, kicked⟩)
  | timeout online popped =>
      refine .inl ⟨.inl online, .inl ?_⟩
      simp only [phase_reforward]
      exact online
  | deliver online credit hqueue delivered =>
      exact .inl ⟨.inl online, .inl ((phase_deliver delivered).trans online)⟩
  | deliverError online credit hqueue => exact .inl ⟨.inl online, .inr (.inl rfl)⟩
  | @packet ack online =>
      refine .inl ⟨.inl online, .inl ?_⟩
      cases ack <;> exact online
  | disconnect online => exact .inl ⟨.inl online, .inr (.inl rfl)⟩
  | expire offline => exact .inl ⟨.inr (.inl offline), .inr (.inr rfl)⟩
  | clean cleaning =>
      have runs : o.Runs := .inr (.inr cleaning)
      obtain same | cleaned := phase_clean (o := o)
      · exact .inl ⟨runs, .inr (.inr (same.trans cleaning))⟩
      · exact .inr (.inr (.inl ⟨runs, cleaned⟩))
  | exit left =>
      have ended : ¬ o.Runs := by
        unfold Runs
        obtain h | h := left <;> simp [h]
      exact .inr (.inr (.inr ⟨ended, .inr ⟨rfl, rfl⟩, rfl, rfl, rfl⟩))

end OldSession

/-! ## The old session's state until it is transferred -/

/-- The handshake has not taken the client's entry out of `peers` yet. -/
def Handshake.Early (k : Handshake) : Prop := k = .start ∨ k = .waiting ∨ k = .removing

/-- The handshake is done with the old session. -/
def Handshake.Late (k : Handshake) : Prop := ¬ k.Early ∧ k ≠ .draining

instance (k : Handshake) : Decidable k.Late :=
  inferInstanceAs (Decidable (¬ (_ ∨ _ ∨ _) ∧ _))

/-- Who owns the queue and the window of the old session. -/
structure Lifecycle (s : State) : Prop where
  closed : s.old.phase = .gone → s.old.channel = []
  cleaned : s.old.phase = .cleaned → s.old.Idle
  /-- A session that ended without an answer to the Kick has discarded its state. -/
  answered : s.old.phase = .kicked ∨ s.old.phase = .gone → s.old.replied = true ∨ s.old.Idle
  entry : s.handshake.Early → s.peers = some .old ∨
    ((s.old.phase = .cleaned ∨ s.old.phase = .gone) ∧ s.old.Idle)
  /-- What a kicked session leaves is taken by the handshake. -/
  left : s.old.phase = .kicked ∨ s.old.phase = .gone → s.old.Idle ∨ s.handshake = .waiting ∨
    s.handshake = .removing ∨ s.handshake = .draining
  info : s.handshake.Early ∨ s.handshake = .draining → s.info.inflightMessages = []

/-- A step of the old session; the last turn of `clean` may take the entry out of
`peers`. -/
theorem lifecycle_old {s : State} (h : Lifecycle s) {old : OldSession} {a : OldStep}
    (hstep : s.old.step (s.handshake = .waiting) a = some old) {peers : Option Target}
    (hpeers : peers = s.peers ∨ old.phase = .cleaned) :
    Lifecycle { s with old, peers } := by
  have still : s.old.Runs → old.phase ≠ .cleaned → s.handshake.Early → peers = some .old := by
    intro runs uncleaned early
    obtain rfl | cleaned := hpeers
    · obtain same | ⟨ended, -⟩ := h.entry early
      · exact same
      · exact absurd ended (by obtain h | h | h := runs <;> simp [h])
    · exact absurd cleaned uncleaned
  obtain ⟨runs, runs'⟩ | ⟨runs, waiting, kicked, replied⟩ | ⟨runs, cleaned, idle⟩ |
    ⟨stopped, ended, hqueue, hwindow, hreplied⟩ := OldSession.step_phase hstep
  · have goes : old.phase ≠ .kicked ∧ old.phase ≠ .cleaned ∧ old.phase ≠ .gone := by
      obtain h | h | h := runs' <;> simp [h]
    exact
      { closed := fun gone => absurd gone goes.2.2
        cleaned := fun cleaned => absurd cleaned goes.2.1
        answered := fun ended => absurd ended (by simp [goes])
        entry := fun early => .inl (still runs goes.2.1 early)
        left := fun ended => absurd ended (by simp [goes])
        info := h.info }
  · exact
      { closed := fun gone => absurd (kicked.symm.trans gone) (by decide)
        cleaned := fun cleaned => absurd (kicked.symm.trans cleaned) (by decide)
        answered := fun _ => .inl replied
        entry := fun early => .inl (still runs (by rw [kicked]; decide) early)
        left := fun _ => .inr (.inl (of_decide_eq_true waiting))
        info := h.info }
  · exact
      { closed := fun gone => absurd (cleaned.symm.trans gone) (by decide)
        cleaned := fun _ => idle
        answered := fun _ => .inr idle
        entry := fun _ => .inr ⟨.inl cleaned, idle⟩
        left := fun _ => .inl idle
        info := h.info }
  · have idle : s.old.Idle → old.Idle := fun ⟨hq, hw⟩ => ⟨hqueue.trans hq, hwindow ▸ hw⟩
    have phases : (s.old.phase = .kicked ∨ s.old.phase = .gone) ∨ s.old.phase = .cleaned := by
      cases hphase : s.old.phase <;> simp_all [OldSession.Runs]
    have cleaned : old.phase = .cleaned → old.Idle := by
      intro hcleaned
      obtain ⟨same, -⟩ | ⟨gone, -⟩ := ended
      · exact idle (h.cleaned (same.symm.trans hcleaned))
      · exact absurd (gone.symm.trans hcleaned) (by decide)
    exact
      { closed := by
          intro gone
          obtain ⟨hphase, hchannel⟩ | ⟨-, hchannel⟩ := ended
          · exact hchannel.trans (h.closed (hphase.symm.trans gone))
          · exact hchannel
        cleaned
        answered := by
          intro _
          obtain hphase | hphase := phases
          · exact (h.answered hphase).imp hreplied.trans idle
          · exact .inr (idle (h.cleaned hphase))
        entry := by
          intro early
          obtain rfl | hcleaned := hpeers
          · refine (h.entry early).imp_right fun ⟨hphase, empty⟩ => ⟨?_, idle empty⟩
            obtain ⟨same, -⟩ | ⟨gone, -⟩ := ended
            · exact hphase.imp same.trans same.trans
            · exact .inr gone
          · exact .inr ⟨.inl hcleaned, cleaned hcleaned⟩
        left := by
          intro _
          obtain hphase | hphase := phases
          · exact (h.left hphase).imp_left idle
          · exact .inl (idle (h.cleaned hphase))
        info := h.info }

/-- A message for the old session's channel while its receiver is there. -/
theorem Lifecycle.push {s : State} (h : Lifecycle s) (alive : s.old.phase ≠ .gone) (m : Message) :
    Lifecycle { s with old := { s.old with channel := s.old.channel ++ [m] } } :=
  ⟨fun gone => absurd gone alive, h.cleaned, h.answered, h.entry, h.left, h.info⟩

theorem lifecycle_unboundedSend {s : State} (h : Lifecycle s) (x : Send) :
    Lifecycle (s.unboundedSend x) := by
  unfold State.unboundedSend
  split
  · split
    · exact h
    · have pushed := h.push ‹_› (.forward x.msg x.publish)
      exact ⟨pushed.closed, h.cleaned, h.answered, h.entry, h.left, h.info⟩
  · exact ⟨h.closed, h.cleaned, h.answered, h.entry, h.left, h.info⟩

theorem lifecycle_resolve {s : State} (h : Lifecycle s) (publish : Publish) :
    Lifecycle (s.resolve publish) := by
  unfold State.resolve
  split
  · exact ⟨h.closed, h.cleaned, h.answered, h.entry, h.left, h.info⟩
  · exact ⟨h.closed, h.cleaned, h.answered, h.entry, h.left, h.info⟩

/-- The handshake goes on and has not removed the entry. -/
theorem Lifecycle.advance {s : State} (h : Lifecycle s) (early : s.handshake.Early) {k : Handshake}
    (hk : k = .waiting ∨ k = .removing) : Lifecycle { s with handshake := k } where
  closed := h.closed
  cleaned := h.cleaned
  answered := h.answered
  entry _ := h.entry early
  left _ := .inr (hk.imp_right .inl)
  info _ := h.info (.inl early)

/-- The handshake is done with an old session that, if it has ended, left nothing. -/
theorem Lifecycle.finish {s s' : State} (h : Lifecycle s) (k : Handshake) (late : k.Late)
    (empty : s.old.phase = .kicked ∨ s.old.phase = .gone → s.old.Idle) (hold : s'.old = s.old)
    (hk : s'.handshake = k) : Lifecycle s' where
  closed := hold ▸ h.closed
  cleaned := hold ▸ h.cleaned
  answered := hold ▸ h.answered
  entry early := absurd (hk ▸ early) late.1
  left ended := .inl (hold ▸ empty (hold ▸ ended))
  info early := absurd (hk ▸ early) (not_or.mpr late)

/-- An old session that has ended left nothing once the handshake is done with it. -/
theorem Lifecycle.empty {s : State} (h : Lifecycle s) (late : s.handshake.Late)
    (ended : s.old.phase = .kicked ∨ s.old.phase = .gone) : s.old.Idle := by
  obtain empty | hwaiting | hremoving | hdraining := h.left ended
  · exact empty
  · exact absurd (.inr (.inl hwaiting)) late.1
  · exact absurd (.inr (.inr hremoving)) late.1
  · exact absurd hdraining late.2

theorem lifecycle_kick {s : State} (h : Lifecycle s) (start : s.handshake = .start)
    (alive : s.old.phase ≠ .gone) :
    Lifecycle { s with
      old := { s.old with channel := s.old.channel ++ [.kick] }
      handshake := .waiting } :=
  (h.push alive .kick).advance (.inl start) (.inl rfl)

/-- The entry is found: its session is drained. -/
theorem lifecycle_remove {s : State} (h : Lifecycle s) (removing : s.handshake = .removing) :
    Lifecycle { s with peers := none, handshake := .draining } where
  closed := h.closed
  cleaned := h.cleaned
  answered := h.answered
  entry early := by obtain h | h | h := early <;> cases h
  left _ := .inr (.inr (.inr rfl))
  info _ := h.info (.inl (.inr (.inr removing)))

theorem lifecycle_drainQueue {s : State} (h : Lifecycle s) (draining : s.handshake = .draining)
    {item : MsgId × Publish} {queue : List (MsgId × Publish)} (hqueue : s.old.queue = item :: queue) :
    Lifecycle { s with
      old := { s.old with queue }
      info := { s.info with offlineMessages := s.info.offlineMessages ++ [item] } } := by
  have busy : ¬ s.old.Idle := by
    intro idle
    have := hqueue.symm.trans idle.1
    cases this
  exact
    { closed := h.closed
      cleaned := fun cleaned => absurd (h.cleaned cleaned) busy
      answered := fun ended => .inl ((h.answered ended).resolve_right busy)
      entry := fun early => (by obtain h | h | h := early <;> cases draining.symm.trans h)
      left := fun _ => .inr (.inr (.inr draining))
      info := h.info }

theorem lifecycle_drainInflight {s : State} (h : Lifecycle s) (hqueue : s.old.queue = []) :
    Lifecycle { s with
      old := { s.old with outInflight := s.old.outInflight.toInflightMessages.2 }
      info := { s.info with inflightMessages := s.old.outInflight.toInflightMessages.1 }
      handshake := .built } := by
  have empty : OldSession.Idle { s.old with
      outInflight := s.old.outInflight.toInflightMessages.2 } := ⟨hqueue, rfl⟩
  have drained : Lifecycle { s with
      old := { s.old with outInflight := s.old.outInflight.toInflightMessages.2 } } :=
    { closed := h.closed
      cleaned := fun _ => empty
      answered := fun _ => .inr empty
      entry := fun early => (h.entry early).imp_right fun ⟨ended, _⟩ => ⟨ended, empty⟩
      left := fun _ => .inl empty
      info := h.info }
  exact drained.finish .built (by decide) (fun _ => empty) rfl rfl

theorem lifecycle_reforward {s : State} (h : Lifecycle s)
    (transferring : s.handshake = .transferring) :
    Lifecycle s.reforward := by
  have late : s.handshake.Late := by
    rw [transferring]
    decide
  unfold State.reforward
  split
  · rename_i m hlast
    simp only
    split
    · have logged : Lifecycle { s with
          old := { s.old with delivered := s.old.delivered ++ [(m.origin, m.publish)] } } :=
        ⟨h.closed, h.cleaned, h.answered, h.entry, h.left, h.info⟩
      exact logged.finish _ late (h.empty late) rfl rfl
    · exact h.finish _ late (h.empty late) rfl rfl
  · split
    · exact h.finish _ late (h.empty late) rfl rfl
    · exact h.finish .finished (by decide) (h.empty late) rfl rfl

theorem lifecycle_abort {s : State} (h : Lifecycle s) (late : s.handshake.Late) :
    Lifecycle s.abort := by
  have logged : Lifecycle { s with old := s.abort.old } :=
    ⟨h.closed, h.cleaned, h.answered, h.entry, h.left, h.info⟩
  exact logged.finish .failed (by decide) (h.empty late) rfl rfl

theorem step_lifecycle {s s' : State} {a : Step} (h : Lifecycle s) (hstep : s.step a = some s') :
    Lifecycle s' := by
  cases State.steps_of_step hstep with
  | old taken =>
      split
      · rename_i hclean
        exact lifecycle_old h taken (.inr hclean.2.1)
      · exact lifecycle_old h taken (.inl rfl)
  | resolve publish => exact lifecycle_resolve h publish
  | @send k x pending =>
      refine lifecycle_unboundedSend ?_ x
      exact ⟨h.closed, h.cleaned, h.answered, h.entry, h.left, h.info⟩
  | kick start here alive => exact lifecycle_kick h start alive
  | kickNobody start nobody => exact h.advance (.inl start) (.inr rfl)
  | kickReply waiting replied => exact h.advance (.inr (.inl waiting)) (.inr rfl)
  | kickTimeout waiting => exact h.advance (.inr (.inl waiting)) (.inr rfl)
  | kickError waiting gone unanswered =>
      have empty := (h.answered (.inr gone)).resolve_left unanswered
      exact h.finish .failed (by decide) (fun _ => empty) rfl rfl
  | removeNone removing hpeers =>
      have empty : s.old.Idle := by
        obtain same | ⟨-, empty⟩ := h.entry (.inr (.inr removing))
        · exact absurd (hpeers.symm.trans same) (by simp)
        · exact empty
      exact h.finish .built (by decide) (fun _ => empty) rfl rfl
  | remove removing hpeers => exact lifecycle_remove h removing
  | drainQueue draining hqueue => exact lifecycle_drainQueue h draining hqueue
  | drainInflight draining hqueue => exact lifecycle_drainInflight h hqueue
  | set built => exact h.finish .set (by decide) (h.empty (by rw [built]; decide)) rfl rfl
  | transfer set => exact h.finish .transferring (by decide) (h.empty (by rw [set]; decide)) rfl rfl
  | reforward transferring => exact lifecycle_reforward h transferring
  | abort unread =>
      refine lifecycle_abort h ?_
      obtain built | set := unread
      · rw [built]
        decide
      · rw [set]
        decide

theorem step_balanced {s s' : State} {a : Step} (h : Balanced s) (life : Lifecycle s)
    (keep : DiscardsNone s a) (hstep : s.step a = some s') : Balanced s' := by
  cases State.steps_of_step hstep with
  | @old a old taken =>
      have total := fun (x : Key) (hx : x.2 ≠ .atMostOnce) =>
        OldSession.total_step h.ok (fun hexit => keep.1 (by rw [hexit]))
          (fun herror => keep.2.1 (by rw [herror])) taken hx
      have ok : old.Ok := (total (0, .exactlyOnce) (by simp)).2
      have moved : ∀ x : Key, x.2 ≠ .atMostOnce →
          ({ s with old } : State).total x = s.total x := by
        intro x hx
        simp only [State.total, held, (total x hx).1]
      split
      · exact h.move ok moved rfl rfl rfl
      · exact h.move ok moved rfl rfl rfl
  | resolve publish => exact balanced_resolve h publish
  | send pending => exact balanced_send h pending
  | kick start here alive =>
      have ok : ({ s.old with channel := s.old.channel ++ [.kick] } : OldSession).Ok :=
        ⟨h.ok.keyed, h.ok.bound⟩
      have hkey : [Message.kick].filterMap Message.key = [] := rfl
      refine h.move ok (fun x _ => ?_) rfl rfl rfl
      simp only [State.total, OldSession.total, held, List.filterMap_append, hkey,
        List.append_nil]
  | kickNobody | kickReply | kickTimeout | kickError | removeNone | remove | set | transfer =>
      exact h.same rfl rfl rfl rfl rfl rfl
  | drainQueue draining hqueue => exact balanced_drainQueue h hqueue
  | drainInflight draining hqueue => exact balanced_drainInflight h (life.info (.inr draining))
  | reforward transferring => exact balanced_reforward h
  | abort unread => exact balanced_abort h keep

/-! ## Runs -/

/-- Both parts of the invariant. -/
structure Inv (s : State) : Prop where
  balanced : Balanced s
  life : Lifecycle s

theorem inv_initial (queueCap cap : Nat) (retryInterval expiryInterval : TimestampMillis)
    (toBack : Bool) : Inv (.initial queueCap cap retryInterval expiryInterval toBack) where
  balanced :=
    { ok := ⟨OutInflight.wellKeyed_new _ _ _ _, Nat.zero_le _⟩
      balance := fun _ _ => rfl
      numbered := List.nodup_nil
      below := fun _ hn => (by cases hn) }
  life :=
    { closed := fun _ => rfl
      cleaned := fun cleaned => (by cases cleaned)
      answered := fun ended => (by obtain h | h := ended <;> cases h)
      entry := fun _ => .inl rfl
      left := fun ended => (by obtain h | h := ended <;> cases h)
      info := fun _ => rfl }

theorem step_inv {s s' : State} {a : Step} (h : Inv s) (keep : DiscardsNone s a)
    (hstep : s.step a = some s') : Inv s' :=
  ⟨step_balanced h.balanced h.life keep hstep, step_lifecycle h.life hstep⟩

/-- The places where a message may end. -/
def Place.Final (place : Place) : Prop :=
  place = .deliveredOld ∨ place = .transferred ∨ place = .newChannel ∨ place = .dropped

/-- The handshake is over, and the task of the old session has ended. -/
def State.Over (s : State) : Prop :=
  (s.handshake = .finished ∨ s.handshake = .failed) ∧ s.old.phase = .gone

theorem count_sent {s : State} (h : Balanced s) {x : Key} (hsent : x ∈ s.sent) :
    s.sent.count x = 1 := by
  have numbers := (List.nodup_append.mp h.numbered).2.1
  exact List.count_eq_one_of_mem numbers.of_map hsent

theorem total_eq (s : State) (x : Key) :
    s.total x = (held s .oldChannel).count x + (held s .oldQueue).count x +
      (held s .oldInflight).count x + (held s .deliveredOld).count x + (held s .dropped).count x +
      (held s .transferred).count x + (held s .newChannel).count x :=
  rfl

/-- A message at the places once in all is at one of them. -/
theorem place_of_total {s : State} {x : Key} (once : s.total x = 1) :
    ∃ place, (held s place).count x = 1 ∧ ∀ other, other ≠ place → x ∉ held s other := by
  have sum := (total_eq s x).symm.trans once
  have found : ∃ place, (held s place).count x ≠ 0 := by
    by_contra hnone
    simp only [not_exists, not_not] at hnone
    simp only [hnone] at sum
    omega
  obtain ⟨place, hplace⟩ := found
  have elsewhere : ∀ other, other ≠ place → (held s other).count x = 0 := by
    intro other hne
    cases place <;> cases other <;> first | omega | exact absurd rfl hne
  refine ⟨place, ?_, fun other hne => List.count_eq_zero.mp (elsewhere other hne)⟩
  cases place <;> omega

/-- A takeover with one message in the window and one in the deliver queue. -/
def takeover : List Step :=
  [.resolve Outbound.reading, .send 0, .resolve Outbound.reading, .send 0, .old .message,
    .old (.deliver false), .old .message, .kick, .old .message, .kickReply, .remove, .old .exit,
    .drainQueue, .drainInflight, .set, .transfer, .reforward, .reforward, .reforward]

end OxiMqtt.Session.Takeover

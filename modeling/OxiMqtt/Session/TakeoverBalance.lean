import OxiMqtt.Session.Takeover

/-!
# The steps of a takeover move messages

Each message is at the places of `held` as often as it was sent: every step of the
old session, of the publishers and of the handshake moves messages from one place
to another, apart from the three that discard some, which have none to discard
under `DiscardsNone`.  `Balanced` is the invariant.
-/

namespace OxiMqtt.Session.Takeover

open OxiMqtt.Codec (QoS Publish)
open Outbound (MsgId Ack deliverPolicy)

namespace OldSession

/-- How often the old session holds or has logged the message. -/
def total (o : OldSession) (x : Key) : Nat :=
  (o.channel.filterMap Message.key).count x + (o.queue.map itemKey).count x +
    (o.outInflight.queues.map fun e => entryKey e.2).count x +
    (o.delivered.map itemKey).count x + (o.dropped.map itemKey).count x

/-- The window has one entry for a key, and the queue is within its bound. -/
structure Ok (o : OldSession) : Prop where
  keyed : o.outInflight.WellKeyed
  bound : o.queue.length ≤ o.queueCap

variable {o : OldSession}

theorem total_enqueue (h : o.Ok) (item : MsgId × Publish) (x : Key) :
    (o.enqueue item).total x = o.total x + [itemKey item].count x := by
  have perm := (DeliverQueue.send_perm deliverPolicy item h.bound).1.map itemKey
  have counts := perm.count_eq x
  simp only [List.map_append, List.count_append, List.map_cons] at counts
  rw [List.count_cons, ← List.count_singleton] at counts
  simp only [enqueue, total, List.map_append, List.count_append]
  omega

theorem ok_enqueue (h : o.Ok) (item : MsgId × Publish) : (o.enqueue item).Ok :=
  ⟨h.keyed, (DeliverQueue.send_perm deliverPolicy item h.bound).2⟩

/-- Tracking a message under its packet id adds it and moves the one replaced to
the delivered ones. -/
theorem total_track {w : OutInflight MsgId} (hw : w.WellKeyed)
    (same : w.queues = o.outInflight.queues) (m : OutInflightMessage MsgId) (x : Key) :
    (o.track w m).total x = o.total x + [entryKey m].count x := by
  unfold track
  split
  · simp only [total, same, List.map_append, List.count_append, List.map_cons, List.map_nil]
    have hkey : itemKey (m.origin, m.publish) = entryKey m := rfl
    rw [hkey]
    omega
  · rename_i packetId hid
    have perm := (OutInflight.insertEntry_perm hw.keys packetId.val m).map fun e => entryKey e.2
    have counts := perm.count_eq x
    simp only [List.map_append, List.count_append, List.map_cons] at counts
    rw [List.count_cons, ← List.count_singleton] at counts
    have hpush : (w.pushBack m).1.queues = w.insertEntry packetId.val m := by
      simp only [OutInflight.pushBack, hid]
    have hreplaced : (replaced w packetId.val).map itemKey =
        (w.queues.find? fun e => e.1 == packetId.val).toList.map fun e => entryKey e.2 := by
      rw [replaced, List.map_map]
      rfl
    simp only [total, List.map_append, List.count_append, hreplaced, hpush]
    rw [← same]
    omega

theorem ok_track (h : o.Ok) {w : OutInflight MsgId} (hw : w.WellKeyed)
    {m : OutInflightMessage MsgId} (hm : m.status = .unAck → m.publish.qos ≠ .exactlyOnce) :
    (o.track w m).Ok := by
  unfold track
  split
  · exact ⟨hw, h.bound⟩
  · exact ⟨hw.pushBack hm, h.bound⟩

theorem total_kick (waiting : Bool) (x : Key) : (o.kick waiting).total x = o.total x := by
  unfold kick
  split <;> rfl

theorem ok_kick (h : o.Ok) (waiting : Bool) : (o.kick waiting).Ok := by
  unfold kick
  split
  · exact ⟨h.keyed, h.bound⟩
  · exact h

theorem total_processMessage (h : o.Ok) (waiting : Bool) (m : Message) (x : Key) :
    (o.processMessage waiting m).total x = o.total x + m.key.toList.count x := by
  cases m with
  | forward msg p => exact total_enqueue h (msg, p) x
  | kick => exact total_kick waiting x
  | sendRerelease m =>
      have logged : ∀ o' : OldSession, o' = { o with
          phase := o'.phase, delivered := o.delivered ++ [(m.origin, m.publish)] } →
          o'.total x = o.total x + [entryKey m].count x := by
        intro o' heq
        have hkey : itemKey (m.origin, m.publish) = entryKey m := rfl
        rw [heq]
        simp only [total, List.map_append, List.count_append, List.map_cons, List.map_nil, hkey]
        omega
      simp only [processMessage]
      split
      · split
        · exact logged _ rfl
        · exact total_track h.keyed rfl _ x
      · exact logged _ rfl

theorem ok_processMessage (h : o.Ok) (waiting : Bool) (m : Message) :
    (o.processMessage waiting m).Ok := by
  cases m with
  | forward msg p => exact ok_enqueue h (msg, p)
  | kick => exact ok_kick h waiting
  | sendRerelease m =>
      simp only [processMessage]
      split
      · split
        · exact ⟨h.keyed, h.bound⟩
        · exact ok_track h h.keyed fun hstatus => (by cases hstatus)
      · exact ⟨h.keyed, h.bound⟩

theorem total_reforward (m : OutInflightMessage MsgId) (expired : Bool) (x : Key) :
    (o.reforward m expired).total x = o.total x + [entryKey m].count x := by
  unfold reforward
  split
  · split
    · have hkey : itemKey (m.origin, m.publish) = entryKey m := rfl
      simp only [total, List.map_append, List.count_append, List.map_cons, List.map_nil, hkey]
      omega
    · have hkey : [Message.sendRerelease m].filterMap Message.key = [entryKey m] := rfl
      simp only [total, List.filterMap_append, List.count_append, hkey]
      omega
  · have hkey : [Message.forward m.origin { m.publish with dup := true }].filterMap Message.key =
        [entryKey m] := rfl
    simp only [total, List.filterMap_append, List.count_append, hkey]
    omega

theorem ok_reforward (h : o.Ok) (m : OutInflightMessage MsgId) (expired : Bool) :
    (o.reforward m expired).Ok := by
  unfold reforward
  split
  · split
    · exact ⟨h.keyed, h.bound⟩
    · exact ⟨h.keyed, h.bound⟩
  · exact ⟨h.keyed, h.bound⟩

theorem total_deliver {o' : OldSession} (h : o.Ok) {msg : MsgId} {p : Publish} {expired : Bool}
    (hstep : o.deliver msg p expired = some o') (x : Key) :
    o'.total x = o.total x + [itemKey (msg, p)].count x ∧ o'.Ok := by
  unfold deliver at hstep
  split at hstep
  · cases hstep
    refine ⟨?_, h.keyed, h.bound⟩
    simp only [total, List.map_append, List.count_append, List.map_cons, List.map_nil]
    omega
  · obtain ⟨⟨p', w⟩, hassign, rfl⟩ := Option.map_eq_some_iff.mp hstep
    obtain ⟨hqueues, hqos⟩ := Outbound.assignPacketId_same hassign
    have keyed : w.WellKeyed := h.keyed.sublist (by rw [hqueues])
    have tracked : ∀ status, entryKey ⟨p', msg, status, o.clock⟩ = itemKey (msg, p) := by
      intro status
      simp only [entryKey, itemKey, hqos]
    cases hp : p'.qos with
    | atMostOnce =>
        simp only [hp]
        have hkey : itemKey (msg, p') = itemKey (msg, p) := by simp only [itemKey, hqos]
        refine ⟨?_, keyed, h.bound⟩
        simp only [total, hqueues, List.map_append, List.count_append, List.map_cons,
          List.map_nil, hkey]
        omega
    | atLeastOnce =>
        simp only [hp]
        refine ⟨?_, ok_track h keyed fun _ => by rw [hp]; decide⟩
        rw [total_track keyed hqueues, tracked]
    | exactlyOnce =>
        simp only [hp]
        refine ⟨?_, ok_track h keyed fun hstatus => (by cases hstatus)⟩
        rw [total_track keyed hqueues, tracked]

theorem queues_deliverError (p : Publish) :
    (o.deliverError p).outInflight.queues = o.outInflight.queues := by
  unfold deliverError
  split
  · exact (Outbound.assignPacketId_same ‹_›).1
  · rfl

theorem total_finish (h : o.Ok) (packetId : PacketId) (x : Key) :
    (o.finish packetId).total x = o.total x := by
  have counts := ((OutInflight.remove_perm h.keyed.keys packetId).map entryKey).count_eq x
  simp only [List.map_append, List.count_append, List.map_map] at counts
  have hkey : itemKey ∘ (fun m : OutInflightMessage MsgId => (m.origin, m.publish)) = entryKey := rfl
  have hwindow : (fun e : PacketId × OutInflightMessage MsgId => entryKey e.2) =
      entryKey ∘ Prod.snd := rfl
  simp only [finish, total, List.map_append, List.count_append, List.map_map, hkey, hwindow]
  omega

theorem total_processAck (h : o.Ok) (ack : Ack) (x : Key) :
    (o.processAck ack).total x = o.total x ∧ (o.processAck ack).Ok := by
  have finished : ∀ packetId, (o.finish packetId).Ok := fun packetId =>
    ⟨h.keyed.sublist (o.outInflight.queues_remove_sublist packetId), h.bound⟩
  cases ack with
  | publishAck packetId => exact ⟨total_finish h _ x, finished _⟩
  | publishComplete packetId => exact ⟨total_finish h _ x, finished _⟩
  | publishReceived packetId =>
      have same : ((o.outInflight.updateStatus o.clock packetId.val .unComplete).queues.map
          fun e => entryKey e.2) = o.outInflight.queues.map fun e => entryKey e.2 := by
        rw [OutInflight.updateStatus, List.map_map]
        refine List.map_congr_left fun e _ => ?_
        simp only [Function.comp_apply]
        split <;> rfl
      refine ⟨?_, h.keyed.updateStatus _ _, h.bound⟩
      simp only [processAck, total, same]

theorem total_clean (h : o.Ok) (x : Key) : o.clean.total x = o.total x ∧ o.clean.Ok := by
  unfold clean
  split
  · rename_i item queue hqueue
    refine ⟨?_, h.keyed, ?_⟩
    · simp only [total, hqueue, List.map_append, List.count_append, List.map_cons, List.map_nil,
        List.count_cons (l := queue.map itemKey), List.count_singleton]
      omega
    · have := h.bound
      rw [hqueue, List.length_cons] at this
      exact Nat.le_of_succ_le this
  · unfold OutInflight.popFront
    cases hwindow : o.outInflight.queues with
    | nil => exact ⟨rfl, h.keyed, h.bound⟩
    | cons e rest =>
        have hkey : itemKey (e.2.origin, e.2.publish) = entryKey e.2 := rfl
        refine ⟨?_, h.keyed.sublist (by rw [hwindow]; exact List.sublist_cons_self _ _), h.bound⟩
        simp only [total, hwindow, List.map_append, List.count_append, List.map_cons,
          List.map_nil, hkey, List.count_cons (l := rest.map fun e => entryKey e.2),
          List.count_singleton]
        omega

theorem total_timeout (h : o.Ok) {m : OutInflightMessage MsgId} {w : OutInflight MsgId}
    (popped : o.outInflight.popFrontTimeout o.clock = some (m, w)) {expired : Bool} (x : Key) :
    ({ o with outInflight := w }.reforward m expired).total x = o.total x ∧
      ({ o with outInflight := w }.reforward m expired).Ok := by
  obtain ⟨packetId, hwindow⟩ := OutInflight.popFrontTimeout_eq popped
  have keyed : w.WellKeyed := h.keyed.sublist (by rw [hwindow]; exact List.sublist_cons_self _ _)
  have rest : ({ o with outInflight := w } : OldSession).Ok := ⟨keyed, h.bound⟩
  refine ⟨?_, ok_reforward rest m expired⟩
  rw [total_reforward]
  simp only [total, hwindow, List.map_cons, List.count_cons (l := w.queues.map _),
    List.count_singleton]
  omega

/-- Without a publish on its way, dropping the receiver loses no message. -/
theorem count_received {channel : List Message} (idle : ∀ m ∈ channel, m.forwards = false)
    {x : Key} (hx : x.2 ≠ .atMostOnce) :
    ((channel.filterMap Message.received).map itemKey).count x =
      (channel.filterMap Message.key).count x := by
  induction channel with
  | nil => rfl
  | cons m channel ih =>
      have rest := ih fun m' hm' => idle m' (List.mem_cons_of_mem _ hm')
      cases m with
      | kick => exact rest
      | sendRerelease m =>
          simp only [List.filterMap_cons, Message.received, Message.key, List.map_cons,
            List.count_cons, rest]
          rfl
      | forward msg p =>
          have hqos : p.qos = .atMostOnce := by
            simpa [Message.forwards] using idle _ List.mem_cons_self
          have hne : (msg, p.qos) ≠ x := fun heq => hx (by rw [← heq]; exact hqos)
          simp only [List.filterMap_cons, Message.received, Message.key,
            List.count_cons_of_ne hne, rest]

/-- The steps of the old session keep its messages, as far as the two that discard
some have none to discard. -/
theorem total_step {o' : OldSession} (h : o.Ok) {waiting : Bool} {a : OldStep}
    (idle : a = .exit → ∀ m ∈ o.channel, m.forwards = false)
    (unsent : a = .deliverError → ∀ item ∈ o.queue.head?, item.2.qos = .atMostOnce)
    (hstep : o.step waiting a = some o') {x : Key} (hx : x.2 ≠ .atMostOnce) :
    o'.total x = o.total x ∧ o'.Ok := by
  cases steps_of_step hstep with
  | tick elapsed => exact ⟨rfl, h.keyed, h.bound⟩
  | @message m channel loops hchannel =>
      have rest : ({ o with channel } : OldSession).Ok := ⟨h.keyed, h.bound⟩
      refine ⟨?_, ok_processMessage rest waiting m⟩
      rw [total_processMessage rest]
      cases hkey : m.key with
      | none => simp [total, hchannel, hkey]
      | some k =>
          simp only [total, hchannel, List.filterMap_cons, hkey, Option.toList_some,
            List.count_cons, List.count_nil]
          omega
  | timeout online popped => exact total_timeout h popped x
  | @deliver expired msg p queue _ online credit hqueue delivered =>
      have bound := h.bound
      rw [hqueue, List.length_cons] at bound
      have rest : ({ o with queue } : OldSession).Ok := ⟨h.keyed, Nat.le_of_succ_le bound⟩
      obtain ⟨counts, ok⟩ := total_deliver rest delivered x
      refine ⟨?_, ok⟩
      rw [counts]
      simp only [total, hqueue, List.map_cons, List.count_cons (l := queue.map _),
        List.count_singleton]
      omega
  | @deliverError msg p queue online credit hqueue =>
      have bound := h.bound
      rw [hqueue, List.length_cons] at bound
      have same := queues_deliverError (o := { o with queue }) p
      have hqos : p.qos = .atMostOnce := unsent rfl (msg, p) (by rw [hqueue]; rfl)
      have hne : itemKey (msg, p) ≠ x := fun heq => hx (by rw [← heq]; exact hqos)
      refine ⟨?_, h.keyed.sublist (by rw [same]), Nat.le_of_succ_le bound⟩
      simp only [total, hqueue, List.map_cons, List.count_cons_of_ne hne, same]
      rfl
  | @packet ack online => exact total_processAck h ack x
  | disconnect online => exact ⟨rfl, h.keyed, h.bound⟩
  | expire offline => exact ⟨rfl, h.keyed, h.bound⟩
  | clean cleaning => exact total_clean h x
  | exit left =>
      refine ⟨?_, h.keyed, h.bound⟩
      simp only [total, List.map_append, List.count_append, List.filterMap_nil, List.count_nil,
        count_received (idle rfl) hx]
      omega

end OldSession

/-! ## Every step moves messages only -/

/-- How often the message is at the places. -/
def State.total (s : State) (x : Key) : Nat :=
  s.old.total x + (held s .transferred).count x + (held s .newChannel).count x

/-- The messages a publisher holds and those it has sent. -/
def State.numbers (s : State) : List MsgId := s.sends.map Send.msg ++ s.sent.map Prod.fst

/-- The places hold every message sent once, and no number is used twice. -/
structure Balanced (s : State) : Prop where
  ok : s.old.Ok
  balance : ∀ x : Key, x.2 ≠ .atMostOnce → s.total x = s.sent.count x
  numbered : s.numbers.Nodup
  below : ∀ n ∈ s.numbers, n < s.handed

/-- A step that is none of the publishers' and keeps the messages of all places
together. -/
theorem Balanced.move {s s' : State} (h : Balanced s) (ok : s'.old.Ok)
    (same : ∀ x : Key, x.2 ≠ .atMostOnce → s'.total x = s.total x) (hsends : s'.sends = s.sends)
    (hsent : s'.sent = s.sent) (hhanded : s'.handed = s.handed) : Balanced s' := by
  have numbers : s'.numbers = s.numbers := by rw [State.numbers, State.numbers, hsends, hsent]
  refine ⟨ok, fun x hx => ?_, ?_, ?_⟩
  · rw [same x hx, hsent]
    exact h.balance x hx
  · rw [numbers]
    exact h.numbered
  · rw [numbers, hhanded]
    exact h.below

theorem balanced_resolve {s : State} (h : Balanced s) (publish : Publish) :
    Balanced (s.resolve publish) := by
  unfold State.resolve
  split
  · exact ⟨h.ok, h.balance, h.numbered, fun n hn => Nat.lt_succ_of_lt (h.below n hn)⟩
  · rename_i target hpeers
    have fresh : s.handed ∉ s.numbers := fun hmem => Nat.lt_irrefl _ (h.below _ hmem)
    have numbers : ∀ x : Send, x.msg = s.handed →
        ((s.sends ++ [x]).map Send.msg ++ s.sent.map Prod.fst).Perm (s.handed :: s.numbers) := by
      intro x hx
      rw [List.map_append, List.append_assoc, ← hx]
      exact List.perm_middle
    refine ⟨h.ok, h.balance, ?_, fun n hn => ?_⟩
    · exact (numbers _ rfl).nodup_iff.mpr (List.nodup_cons.mpr ⟨fresh, h.numbered⟩)
    · obtain rfl | hn := List.mem_cons.mp ((numbers _ rfl).subset hn)
      · exact Nat.lt_succ_self _
      · exact Nat.lt_succ_of_lt (h.below n hn)

theorem total_unboundedSend (s : State) (x : Send) :
    (s.unboundedSend x = s) ∨
      ((s.unboundedSend x).sent = s.sent ++ [(x.msg, x.publish.qos)] ∧
        ∀ key, (s.unboundedSend x).total key = s.total key + [(x.msg, x.publish.qos)].count key) := by
  unfold State.unboundedSend
  split
  · split
    · exact .inl rfl
    · refine .inr ⟨rfl, fun key => ?_⟩
      have hkey : [Message.forward x.msg x.publish].filterMap Message.key =
          [(x.msg, x.publish.qos)] := rfl
      simp only [State.total, OldSession.total, held, List.filterMap_append, List.count_append, hkey]
      omega
  · refine .inr ⟨rfl, fun key => ?_⟩
    have hkey : itemKey (x.msg, x.publish) = (x.msg, x.publish.qos) := rfl
    simp only [State.total, held, List.map_append, List.count_append, List.map_cons, List.map_nil,
      hkey]
    omega

theorem unboundedSend_rest (s : State) (x : Send) :
    (s.unboundedSend x).sends = s.sends ∧ (s.unboundedSend x).handed = s.handed ∧
      (s.old.Ok → (s.unboundedSend x).old.Ok) := by
  unfold State.unboundedSend
  split
  · split
    · exact ⟨rfl, rfl, id⟩
    · exact ⟨rfl, rfl, fun ok => ⟨ok.keyed, ok.bound⟩⟩
  · exact ⟨rfl, rfl, id⟩

theorem balanced_send {s : State} (h : Balanced s) {k : Nat} {x : Send}
    (found : s.sends[k]? = some x) :
    Balanced ({ s with sends := s.sends.eraseIdx k }.unboundedSend x) := by
  obtain ⟨hk, hget⟩ := List.getElem?_eq_some_iff.mp found
  have numbers : (x.msg :: ((s.sends.eraseIdx k).map Send.msg ++ s.sent.map Prod.fst)).Perm
      s.numbers := by
    have perm := (List.getElem_cons_eraseIdx_perm hk).map Send.msg
    rw [hget] at perm
    exact perm.append_right _
  have nodup := numbers.nodup_iff.mpr h.numbered
  have lost : Balanced { s with sends := s.sends.eraseIdx k } :=
    ⟨h.ok, h.balance, (List.nodup_cons.mp nodup).2, fun n hn =>
      h.below n (numbers.subset (List.mem_cons_of_mem _ hn))⟩
  obtain ⟨hsends, hhanded, ok⟩ := unboundedSend_rest { s with sends := s.sends.eraseIdx k } x
  obtain closed | ⟨hsent, total⟩ := total_unboundedSend { s with sends := s.sends.eraseIdx k } x
  · rw [closed]
    exact lost
  · have moved : (State.numbers ({ s with sends := s.sends.eraseIdx k }.unboundedSend x)).Perm
        s.numbers := by
      rw [State.numbers, hsends, hsent, List.map_append, ← List.append_assoc]
      exact (List.perm_append_singleton _ _).trans numbers
    refine ⟨ok h.ok, fun key hkey => ?_, moved.nodup_iff.mpr h.numbered, fun n hn => ?_⟩
    · rw [total, hsent, List.count_append]
      exact congrArg (· + _) (lost.balance key hkey)
    · rw [hhanded]
      exact h.below n (moved.subset hn)

theorem balanced_reforward {s : State} (h : Balanced s) : Balanced s.reforward := by
  unfold State.reforward
  split
  · rename_i m hlast
    have split : s.info.inflightMessages.map entryKey =
        s.info.inflightMessages.dropLast.map entryKey ++ [entryKey m] := by
      rw [← List.map_singleton, ← List.map_append, List.dropLast_append_getLast? m hlast]
    have hkey : itemKey (m.origin, m.publish) = entryKey m := rfl
    have hdup : itemKey (m.origin, { m.publish with dup := true }) = entryKey m := rfl
    simp only
    split
    · have ok : ({ s.old with
          delivered := s.old.delivered ++ [(m.origin, m.publish)] } : OldSession).Ok :=
        ⟨h.ok.keyed, h.ok.bound⟩
      refine h.move ok (fun x _ => ?_) rfl rfl rfl
      simp only [State.total, OldSession.total, held, split, List.map_append, List.count_append,
        List.map_cons, List.map_nil, hkey]
      omega
    · refine h.move h.ok (fun x _ => ?_) rfl rfl rfl
      simp only [State.total, held, split, List.map_append, List.count_append, List.map_cons,
        List.map_nil, hdup]
      omega
  · split
    · rename_i item rest hmessages
      refine h.move h.ok (fun x _ => ?_) rfl rfl rfl
      simp only [State.total, held, hmessages, List.map_append, List.count_append, List.map_cons,
        List.map_nil, List.count_cons (l := rest.map itemKey), List.count_singleton]
      omega
    · exact h.move h.ok (fun x _ => rfl) rfl rfl rfl

theorem balanced_drainQueue {s : State} (h : Balanced s) {item : MsgId × Publish}
    {queue : List (MsgId × Publish)} (hqueue : s.old.queue = item :: queue) :
    Balanced { s with
      old := { s.old with queue }
      info := { s.info with offlineMessages := s.info.offlineMessages ++ [item] } } := by
  have bound := h.ok.bound
  rw [hqueue, List.length_cons] at bound
  have ok : ({ s.old with queue } : OldSession).Ok := ⟨h.ok.keyed, Nat.le_of_succ_le bound⟩
  refine h.move ok (fun x _ => ?_) rfl rfl rfl
  simp only [State.total, OldSession.total, held, hqueue, List.map_append, List.count_append,
    List.map_cons, List.map_nil, List.count_cons (l := queue.map itemKey), List.count_singleton]
  omega

theorem balanced_drainInflight {s : State} (h : Balanced s)
    (hinfo : s.info.inflightMessages = []) :
    Balanced { s with
      old := { s.old with outInflight := s.old.outInflight.toInflightMessages.2 }
      info := { s.info with inflightMessages := s.old.outInflight.toInflightMessages.1 }
      handshake := .built } := by
  have ok : ({ s.old with outInflight := s.old.outInflight.toInflightMessages.2 } : OldSession).Ok :=
    ⟨h.ok.keyed.sublist (List.nil_sublist _), h.ok.bound⟩
  have hwindow : entryKey ∘ Prod.snd =
      fun e : PacketId × OutInflightMessage MsgId => entryKey e.2 := rfl
  refine h.move ok (fun x _ => ?_) rfl rfl rfl
  simp only [State.total, OldSession.total, held, hinfo, OutInflight.toInflightMessages,
    List.map_map, List.map_nil, List.count_append, List.count_nil, hwindow]
  omega

theorem count_offline {messages : List (MsgId × Publish)}
    (unsent : ∀ item ∈ messages, item.2.qos = .atMostOnce) {x : Key} (hx : x.2 ≠ .atMostOnce) :
    (messages.map itemKey).count x = 0 := by
  refine List.count_eq_zero.mpr fun hmem => ?_
  obtain ⟨item, hitem, rfl⟩ := List.mem_map.mp hmem
  exact hx (unsent item hitem)

theorem count_inflight {messages : List (OutInflightMessage MsgId)}
    (received : ∀ m ∈ messages, m.status = .unComplete ∨ m.publish.qos = .atMostOnce) {x : Key}
    (hx : x.2 ≠ .atMostOnce) :
    ((messages.filter fun m => m.status = .unComplete).map entryKey).count x =
      (messages.map entryKey).count x := by
  induction messages with
  | nil => rfl
  | cons m messages ih =>
      have rest := ih fun m' hm' => received m' (List.mem_cons_of_mem _ hm')
      by_cases hm : m.status = .unComplete
      · rw [List.filter_cons_of_pos (by simpa using hm), List.map_cons, List.map_cons,
          List.count_cons, List.count_cons, rest]
      · have hqos := (received m List.mem_cons_self).resolve_left hm
        have hne : entryKey m ≠ x := fun heq => hx (by rw [← heq]; exact hqos)
        rw [List.filter_cons_of_neg (by simpa using hm), List.map_cons,
          List.count_cons_of_ne hne, rest]

theorem balanced_abort {s : State} (h : Balanced s) (keep : DiscardsNone s .abort) :
    Balanced s.abort := by
  obtain ⟨unsent, received⟩ := keep.2.2 rfl
  have ok : s.abort.old.Ok := ⟨h.ok.keyed, h.ok.bound⟩
  have hkey : itemKey ∘ (fun m : OutInflightMessage MsgId => (m.origin, m.publish)) = entryKey :=
    rfl
  refine h.move ok (fun x hx => ?_) rfl rfl rfl
  simp only [State.total, OldSession.total, held, State.abort, List.map_append, List.count_append,
    List.map_map, hkey, count_inflight received hx, count_offline unsent hx, List.map_nil,
    List.count_nil]
  omega

/-- The steps of the handshake that move no message. -/
theorem Balanced.same {s s' : State} (h : Balanced s) (hold : s'.old = s.old)
    (hinfo : s'.info = s.info) (hnew : s'.newChannel = s.newChannel) (hsends : s'.sends = s.sends)
    (hsent : s'.sent = s.sent) (hhanded : s'.handed = s.handed) : Balanced s' := by
  refine h.move (by rw [hold]; exact h.ok) (fun x _ => ?_) hsends hsent hhanded
  simp only [State.total, held, hold, hinfo, hnew]

end OxiMqtt.Session.Takeover

import Mathlib.Data.Finset.Card
import OxiMqtt.Session.Arms

/-!
# The outbound window of a session

The window is to hold at most `cap` messages, the Receive Maximum that was negotiated.  `has_credit`
guards one arm of the loop, `deliver`; a timeout takes an entry out of the window while its PUBLISH
is still unacknowledged, and `send_rerelease` puts an entry back without a look at the credit.

The steps are those of the outbound side and the transfer of the state of an earlier session.
`outstanding` are the PUBLISH packets with a packet id that are sent and not acknowledged by a
PUBACK or a PUBCOMP; it is read off the two links, and no branch reads it.

* `freed`: the messages whose slot a timeout has freed.
* `InRoom`: the condition on a `deliver` that finds some.
* `slots_step`: no other step takes a slot that a PUBREL in the channel comes back to.
* `window_within_cap`: what holds in every state of a run whose steps meet it.
* `rerelease_exceeds_cap`: a timed-out entry comes back when its slot is taken.
-/

namespace OxiMqtt.Session.Window

open OxiMqtt.Codec (QoS NonZeroU16 Publish)
open Outbound (MsgId Message Packet Ack assignPacketId)

/-! ## The steps -/

/-- The message and the packet id of a PUBLISH that is to be acknowledged. -/
abbrev Sent : Type := MsgId × NonZeroU16

def tracked : Packet → Option Sent
  | .publish msg p =>
      match p.qos, p.packetId with
      | .atMostOnce, _ => none
      | _, some packetId => some (msg, packetId)
      | _, none => none
  | .publishRelease _ _ => none

structure State : Type where
  session : Outbound.State
  outstanding : Finset Sent

inductive Step : Type
  | session (a : Outbound.Step)
  /-- `transfer_session_state`, of what an earlier session has left. -/
  | transfer (inflight : List (OutInflightMessage MsgId)) (offline : List (MsgId × Publish))

/-- The messages of `transfer_session_state`: the inflight messages from the back, but not those
that wait for a PUBCOMP, then the offline messages. -/
def transferred (inflight : List (OutInflightMessage MsgId)) (offline : List (MsgId × Publish)) :
    List Message :=
  (inflight.reverse.filter fun m => m.status ≠ .unComplete).map
      (fun m => .forward m.origin { m.publish with dup := true }) ++
    offline.map fun item => .forward item.1 item.2

/-- The packet id whose PUBLISH the step finds acknowledged. -/
def acknowledged (s : Outbound.State) : Outbound.Step → Option NonZeroU16
  | .packet =>
      match s.toServer with
      | .publishAck packetId :: _ => some packetId
      | .publishComplete packetId :: _ => some packetId
      | _ => none
  | _ => none

/-- What a step puts on the link to the client. -/
def sentIn (before after : Outbound.State) : List Sent :=
  (after.toClient.drop before.toClient.length).filterMap tracked

def step (s : State) : Step → Option State
  | .session a =>
      (Outbound.step s.session a).map fun session =>
        { session
          outstanding :=
            (s.outstanding.filter fun x => acknowledged s.session a ≠ some x.2) ∪
              (sentIn s.session session).toFinset }
  | .transfer inflight offline =>
      some { s with
        session :=
          { s.session with channel := s.session.channel ++ transferred inflight offline } }

/-- A connection at its start, with the maximum that was negotiated. -/
def initial (version : Outbound.Version) (cap : NonZeroU16)
    (retryInterval expiryInterval : TimestampMillis) (toBack : Bool) (queueCap : Nat) : State where
  session := Outbound.initial version cap.val.toNat retryInterval expiryInterval toBack queueCap
  outstanding := ∅

/-! ## The condition -/

/-- The packet is the one of an entry of the window. -/
def inWindow (w : OutInflight MsgId) (x : Sent) : Bool :=
  w.queues.any fun e => e.2.origin == x.1 && e.1 == x.2.val

/-- The messages whose PUBREL waits in the channel to be sent again. -/
def rereleased (channel : List Message) : List Sent :=
  channel.filterMap fun
    | .sendRerelease m => m.publish.packetId.map fun packetId => (m.origin, packetId)
    | .forward _ _ => none

/-- The messages whose slot a timeout has freed: they are outstanding, or their PUBREL waits to be
sent again, and they are not in the window. -/
def freed (s : State) : Finset Sent :=
  (s.outstanding ∪ (rereleased s.session.channel).toFinset).filter fun x =>
    inWindow s.session.outInflight x = false

/-- The packet that the deliver arm sends next, if it is to be acknowledged. -/
def nextSent (s : Outbound.State) : Option Sent :=
  match s.queue with
  | [] => none
  | (msg, p) :: _ => (assignPacketId s.outInflight p).bind fun r => tracked (.publish msg r.1)

/-- Where timeouts have freed the slots of other messages, the message that is sent takes none of
these. -/
def InRoom (s : State) : Step → Prop
  | .session (.deliver false) =>
      ∀ x ∈ nextSent s.session, (freed s).erase x ≠ ∅ →
        s.session.outInflight.len + ((freed s).erase x).card < s.session.outInflight.cap
  | _ => True

instance (s : State) (a : Step) : Decidable (InRoom s a) :=
  match a with
  | .transfer _ _ => isTrue trivial
  | .session (.forward _) => isTrue trivial
  | .session (.tick _) => isTrue trivial
  | .session (.timeout _) => isTrue trivial
  | .session (.deliver true) => isTrue trivial
  | .session (.deliver false) =>
      Option.decidableForallMem (p := fun x => (freed s).erase x ≠ ∅ →
        s.session.outInflight.len + ((freed s).erase x).card < s.session.outInflight.cap)
        (nextSent s.session)
  | .session .message => isTrue trivial
  | .session .packet => isTrue trivial
  | .session .client => isTrue trivial

/-! ## The slots of the window -/

/-- The packet ids that PUBRELs in the channel bring back to the window. -/
def returning (s : Outbound.State) : Finset NonZeroU16 :=
  ((rereleased s.channel).map Prod.snd).toFinset.filter fun packetId =>
    s.outInflight.exist packetId.val = false

section

variable {s s' : Outbound.State}

theorem mem_returning {packetId : NonZeroU16} :
    packetId ∈ returning s ↔ packetId ∈ (rereleased s.channel).map Prod.snd ∧
      s.outInflight.exist packetId.val = false := by
  rw [returning, Finset.mem_filter, List.mem_toFinset]

theorem rereleased_append (channel channel' : List Message) :
    rereleased (channel ++ channel') = rereleased channel ++ rereleased channel' :=
  List.filterMap_append

/-- Where the same PUBRELs are in the channel, and the window keeps its entries, the same ids come
back. -/
theorem returning_congr (channel : rereleased s'.channel = rereleased s.channel)
    (exist : ∀ packetId, s'.outInflight.exist packetId = s.outInflight.exist packetId) :
    returning s' = returning s := by
  ext packetId
  rw [mem_returning, mem_returning, channel, exist]

theorem slots_of_same (len : s'.outInflight.len ≤ s.outInflight.len)
    (channel : rereleased s'.channel = rereleased s.channel)
    (exist : ∀ packetId, s'.outInflight.exist packetId = s.outInflight.exist packetId) :
    s'.outInflight.len + (returning s').card ≤ s.outInflight.len + (returning s).card := by
  rw [returning_congr channel exist]
  exact Nat.add_le_add_right len _

/-- A timeout sends the PUBREL of the entry it has popped, if any. -/
theorem rereleased_again {m : OutInflightMessage MsgId} {expired : Bool} {x : Sent}
    (h : x ∈ rereleased (Outbound.again m expired)) : m.publish.packetId = some x.2 := by
  unfold Outbound.again rereleased at h
  cases status : m.status with
  | unAck => simp [status] at h
  | unReceived => simp [status] at h
  | unComplete =>
      cases expired with
      | true => simp [status] at h
      | false =>
          cases id : m.publish.packetId with
          | none => simp [status, id] at h
          | some packetId =>
              simp only [status, Bool.false_eq_true, if_false, List.filterMap_cons, id,
                Option.map_some, List.filterMap_nil, List.mem_singleton] at h
              rw [h]

theorem slots_timeout (keyed : s.outInflight.WellKeyed) {expired : Bool}
    (h : Outbound.step s (.timeout expired) = some s') :
    s'.outInflight.len + (returning s').card ≤ s.outInflight.len + (returning s).card := by
  obtain ⟨key, m, w, front, rfl⟩ := Outbound.step_timeout h
  have member : (key, m) ∈ s.outInflight.queues := by
    rw [front]
    exact List.mem_cons_self
  obtain ⟨own, id, same⟩ := Option.map_eq_some_iff.mp (keyed.packetId _ member)
  have subset : returning { s with
      outInflight := w, channel := s.channel ++ Outbound.again m expired } ⊆
        insert own (returning s) := by
    intro packetId hid
    obtain ⟨waits, absent⟩ := mem_returning.mp hid
    by_cases eq : packetId = own
    · exact Finset.mem_insert.mpr (.inl eq)
    · refine Finset.mem_insert_of_mem (mem_returning.mpr ⟨?_, ?_⟩)
      · dsimp only at waits
        rw [rereleased_append, List.map_append] at waits
        rcases List.mem_append.mp waits with old | new
        · exact old
        · obtain ⟨x, hx, rfl⟩ := List.mem_map.mp new
          exact absurd (Option.some.inj ((rereleased_again hx).symm.trans id)) eq
      · rw [← Bool.not_eq_true] at absent ⊢
        intro there
        refine absent ((keyed.exist_front front _).mpr ⟨there, ?_⟩)
        exact fun key_eq => eq (Subtype.ext (key_eq.trans same.symm))
  have length : s.outInflight.len = w.len + 1 := by
    rw [OutInflight.len, OutInflight.len, front, List.length_cons]
  have card := (Finset.card_le_card subset).trans (Finset.card_insert_le _ _)
  dsimp only
  omega

theorem slots_message (h : Outbound.step s .message = some s') :
    s'.outInflight.len + (returning s').card ≤ s.outInflight.len + (returning s).card := by
  rcases Outbound.step_message h with ⟨msg, p, channel, head, rfl⟩ |
    ⟨m, own, channel, head, id, rfl⟩
  · exact slots_of_same le_rfl (by rw [head]; rfl) fun _ => rfl
  · have subset : returning { s with
        channel
        outInflight :=
          (s.outInflight.pushBack { m with status := .unComplete, updateTime := s.clock }).1
        toClient := s.toClient ++ [.publishRelease own (Outbound.rereleaseReason s.version
          (s.outInflight.pushBack { m with status := .unComplete, updateTime := s.clock }).2)] } ⊆
        (returning s).erase own := by
      intro packetId hid
      obtain ⟨waits, absent⟩ := mem_returning.mp hid
      rw [← Bool.not_eq_true, OutInflight.exist_pushBack, not_or] at absent
      refine Finset.mem_erase.mpr ⟨fun eq => absent.1 ?_, mem_returning.mpr ⟨?_, ?_⟩⟩
      · rw [id, eq]
        rfl
      · rw [head, ← List.singleton_append, rereleased_append, List.map_append]
        exact List.mem_append_right _ waits
      · exact (Bool.not_eq_true _).mp absent.2
    have card := Finset.card_le_card subset
    cases there : s.outInflight.exist own.val with
    | true =>
        -- The entry takes the place of the one under its id.
        have length := OutInflight.len_pushBack_of_exist s.outInflight
          (m := { m with status := .unComplete, updateTime := s.clock }) id there
        have fewer := Finset.card_erase_le (s := returning s) (a := own)
        dsimp only
        omega
    | false =>
        have waits : own ∈ returning s := by
          refine mem_returning.mpr ⟨?_, there⟩
          rw [head]
          simp [rereleased, id]
        have length := OutInflight.len_pushBack_le s.outInflight
          { m with status := .unComplete, updateTime := s.clock }
        have one := Finset.card_erase_add_one waits
        dsimp only
        omega

theorem slots_remove (own : NonZeroU16) (session : Outbound.State)
    (same : session.outInflight = (s.outInflight.remove own.val).2)
    (channel : session.channel = s.channel) :
    session.outInflight.len + (returning session).card ≤
      s.outInflight.len + (returning s).card := by
  have length := OutInflight.len_remove s.outInflight own.val
  rw [← same] at length
  cases there : s.outInflight.exist own.val with
  | false =>
      have exist : ∀ packetId, session.outInflight.exist packetId = s.outInflight.exist packetId := by
        intro packetId
        rw [same, Bool.eq_iff_iff, OutInflight.exist_remove]
        refine and_iff_left_of_imp fun known eq => ?_
        rw [eq, there] at known
        cases known
      exact slots_of_same (by omega) (by rw [channel]) exist
  | true =>
      have subset : returning session ⊆ insert own (returning s) := by
        intro packetId hid
        obtain ⟨waits, absent⟩ := mem_returning.mp hid
        by_cases eq : packetId = own
        · exact Finset.mem_insert.mpr (.inl eq)
        · rw [channel] at waits
          refine Finset.mem_insert_of_mem (mem_returning.mpr ⟨waits, ?_⟩)
          rw [← Bool.not_eq_true] at absent ⊢
          intro known
          refine absent ?_
          rw [same, OutInflight.exist_remove]
          exact ⟨known, fun key => eq (Subtype.ext key)⟩
      have card := (Finset.card_le_card subset).trans (Finset.card_insert_le _ _)
      rw [there, if_pos rfl] at length
      omega

theorem slots_packet (h : Outbound.step s .packet = some s') :
    s'.outInflight.len + (returning s').card ≤ s.outInflight.len + (returning s).card := by
  cases acks : s.toServer with
  | nil => simp [Outbound.step, acks] at h
  | cons ack toServer =>
      simp only [Outbound.step, acks, Option.some.injEq] at h
      subst h
      cases ack with
      | publishAck packetId => exact slots_remove packetId _ rfl rfl
      | publishReceived packetId =>
          exact slots_of_same (OutInflight.updateStatus_same ..).2.le rfl fun id =>
            OutInflight.exist_updateStatus s.outInflight s.clock packetId.val .unComplete id
      | publishComplete packetId => exact slots_remove packetId _ rfl rfl

/-- The entries of the window and the PUBRELs that come back to it become no more, but when a publish
is sent. -/
theorem slots_step (keyed : s.outInflight.WellKeyed) {a : Outbound.Step} (other : a ≠ .deliver false)
    (h : Outbound.step s a = some s') :
    s'.outInflight.len + (returning s').card ≤ s.outInflight.len + (returning s).card := by
  cases a with
  | forward p =>
      cases h
      exact slots_of_same le_rfl (by simp [rereleased]) fun _ => rfl
  | tick elapsed =>
      cases h
      exact le_rfl
  | timeout expired => exact slots_timeout keyed h
  | deliver expired =>
      obtain ⟨msg, p, queue, -, ⟨-, rfl⟩ | ⟨rfl, -⟩⟩ := Outbound.step_deliver h
      · exact le_rfl
      · exact absurd rfl other
  | message => exact slots_message h
  | packet => exact slots_packet h
  | client =>
      cases hlink : s.toClient with
      | nil => simp [Outbound.step, hlink] at h
      | cons packet toClient =>
          simp only [Outbound.step, hlink] at h
          cases h
          exact le_rfl

end

/-! ## What is sent -/

theorem sentIn_same {before after : Outbound.State} (same : after.toClient = before.toClient) :
    sentIn before after = [] := by
  rw [sentIn, same, List.drop_length]
  rfl

theorem sentIn_append {before after : Outbound.State} {packet : Packet}
    (sent : after.toClient = before.toClient ++ [packet]) :
    sentIn before after = (tracked packet).toList := by
  rw [sentIn, sent, List.drop_left]
  cases h : tracked packet <;> simp [h]

/-- Only the deliver arm sends a PUBLISH. -/
theorem sentIn_step {s s' : Outbound.State} {a : Outbound.Step} (other : a ≠ .deliver false)
    (h : Outbound.step s a = some s') : sentIn s s' = [] := by
  cases a with
  | forward p =>
      cases h
      exact sentIn_same rfl
  | tick elapsed =>
      cases h
      exact sentIn_same rfl
  | timeout expired =>
      obtain ⟨packetId, m, w, -, rfl⟩ := Outbound.step_timeout h
      exact sentIn_same rfl
  | deliver expired =>
      obtain ⟨msg, p, queue, -, ⟨-, rfl⟩ | ⟨rfl, -⟩⟩ := Outbound.step_deliver h
      · exact sentIn_same rfl
      · exact absurd rfl other
  | message =>
      rcases Outbound.step_message h with ⟨msg, p, channel, -, rfl⟩ | ⟨m, own, channel, -, -, rfl⟩
      · exact sentIn_same rfl
      · exact @sentIn_append s _ (.publishRelease _ _) rfl
  | packet =>
      cases acks : s.toServer with
      | nil => simp [Outbound.step, acks] at h
      | cons ack toServer =>
          simp only [Outbound.step, acks, Option.some.injEq] at h
          subst h
          cases ack with
          | publishAck packetId => exact sentIn_same rfl
          | publishReceived packetId => exact @sentIn_append s _ (.publishRelease _ _) rfl
          | publishComplete packetId => exact sentIn_same rfl
  | client =>
      cases hlink : s.toClient with
      | nil => simp [Outbound.step, hlink] at h
      | cons packet toClient =>
          simp only [Outbound.step, hlink] at h
          cases h
          rw [sentIn, hlink]
          change (toClient.drop (toClient.length + 1)).filterMap tracked = []
          rw [List.drop_eq_nil_of_le (Nat.le_succ _)]
          rfl

theorem tracked_publish (msg : MsgId) (p : Publish) :
    tracked (.publish msg p) =
      if p.qos = .atMostOnce then none else p.packetId.map fun packetId => (msg, packetId) := by
  cases hqos : p.qos <;> cases id : p.packetId <;> simp [tracked, hqos, id]

/-- A PUBLISH that is to be acknowledged is pushed. -/
theorem sentWindow_cases (w : OutInflight MsgId) (msg : MsgId) (p : Publish)
    (now : TimestampMillis) :
    tracked (.publish msg p) = none ∧ Outbound.sentWindow w msg p now = w ∨
      ∃ packetId m, tracked (.publish msg p) = some (msg, packetId) ∧
        m.publish.packetId = some packetId ∧
        Outbound.sentWindow w msg p now = (w.pushBack m).1 := by
  have pushed : ∀ m : OutInflightMessage MsgId, m.publish = p → p.qos ≠ .atMostOnce →
      Outbound.sentWindow w msg p now = (w.pushBack m).1 →
      tracked (.publish msg p) = none ∧ Outbound.sentWindow w msg p now = w ∨
        ∃ packetId m, tracked (.publish msg p) = some (msg, packetId) ∧
          m.publish.packetId = some packetId ∧
          Outbound.sentWindow w msg p now = (w.pushBack m).1 := by
    intro m same acked window
    rw [tracked_publish, if_neg acked]
    cases id : p.packetId with
    | none =>
        refine .inl ⟨rfl, ?_⟩
        rw [window, OutInflight.pushBack, same, id]
    | some packetId => exact .inr ⟨packetId, m, rfl, by rw [same, id], window⟩
  cases hqos : p.qos with
  | atMostOnce =>
      refine .inl ⟨by rw [tracked_publish, if_pos hqos], ?_⟩
      rw [Outbound.sentWindow, hqos]
  | atLeastOnce =>
      refine pushed ⟨p, msg, .unAck, now⟩ rfl (by rw [hqos]; decide) ?_
      rw [Outbound.sentWindow, hqos]
  | exactlyOnce =>
      refine pushed ⟨p, msg, .unReceived, now⟩ rfl (by rw [hqos]; decide) ?_
      rw [Outbound.sentWindow, hqos]

/-- What the deliver arm does with a publish that has not expired. -/
theorem deliver_cases {s s' : Outbound.State} (h : Outbound.step s (.deliver false) = some s') :
    ∃ msg p w, nextSent s = tracked (.publish msg p) ∧ w.queues = s.outInflight.queues ∧
      s'.outInflight = Outbound.sentWindow w msg p s.clock ∧ s'.channel = s.channel ∧
      s'.toClient = s.toClient ++ [.publish msg p] := by
  obtain ⟨msg, p, queue, head, ⟨expired, -⟩ | ⟨-, p', w, assigned, rfl⟩⟩ := Outbound.step_deliver h
  · cases expired
  · refine ⟨msg, p', w, ?_, (Outbound.assignPacketId_same assigned).1, rfl, rfl, rfl⟩
    rw [nextSent, head]
    simp only [assigned, Option.bind_some]

/-! ## One step -/

/-- The window has a slot for every PUBREL that comes back to it, and the outstanding packets are
within the maximum. -/
structure Within (cap : Nat) (s : State) : Prop where
  keyed : s.session.outInflight.WellKeyed
  same : s.session.outInflight.cap = cap
  slots : s.session.outInflight.len + (returning s.session).card ≤ cap
  outstanding : s.outstanding.card ≤ cap

/-- The packet that is sent, the packets in the window and those whose slot was freed are all that is
outstanding. -/
theorem card_insert_outstanding_le (s : State) (x : Sent) :
    (insert x s.outstanding).card ≤ s.session.outInflight.len + ((freed s).erase x).card + 1 := by
  let window : Finset Sent :=
    s.outstanding.filter fun x => inWindow s.session.outInflight x = true
  have windowed : window.card ≤ s.session.outInflight.len := by
    have keys : (window.image fun x => (x.1, x.2.val)) ⊆
        (s.session.outInflight.queues.map fun e => (e.2.origin, e.1)).toFinset := by
      intro key hkey
      obtain ⟨y, hy, rfl⟩ := Finset.mem_image.mp hkey
      obtain ⟨e, he, found⟩ := List.any_eq_true.mp (Finset.mem_filter.mp hy).2
      simp only [Bool.and_eq_true, beq_iff_eq] at found
      rw [List.mem_toFinset, List.mem_map]
      exact ⟨e, he, Prod.ext found.1 found.2⟩
    have injective : Function.Injective fun x : Sent => (x.1, x.2.val) := by
      intro y z eq
      cases y
      cases z
      simp only [Prod.mk.injEq] at eq
      exact Prod.ext eq.1 (Subtype.ext eq.2)
    rw [← Finset.card_image_of_injective window injective]
    apply (Finset.card_le_card keys).trans
    apply (List.toFinset_card_le _).trans
    rw [List.length_map]
    rfl
  have cover : insert x s.outstanding ⊆ insert x (window ∪ (freed s).erase x) := by
    intro y hy
    rcases Finset.mem_insert.mp hy with eq | old
    · rw [eq]
      exact Finset.mem_insert_self _ _
    · by_cases eq : y = x
      · rw [eq]
        exact Finset.mem_insert_self _ _
      · apply Finset.mem_insert_of_mem
        cases found : inWindow s.session.outInflight y with
        | true => exact Finset.mem_union_left _ (Finset.mem_filter.mpr ⟨old, found⟩)
        | false =>
            apply Finset.mem_union_right
            exact Finset.mem_erase.mpr
              ⟨eq, Finset.mem_filter.mpr ⟨Finset.mem_union_left _ old, found⟩⟩
  calc (insert x s.outstanding).card
      ≤ (insert x (window ∪ (freed s).erase x)).card := Finset.card_le_card cover
    _ ≤ (window ∪ (freed s).erase x).card + 1 := Finset.card_insert_le _ _
    _ ≤ window.card + ((freed s).erase x).card + 1 :=
        Nat.succ_le_succ (Finset.card_union_le _ _)
    _ ≤ s.session.outInflight.len + ((freed s).erase x).card + 1 := by omega

/-- The PUBRELs of other messages that come back to the window are of messages whose slot was
freed. -/
theorem card_returning_le (s : State) (x : Sent) :
    ((returning s.session).erase x.2).card ≤ ((freed s).erase x).card := by
  refine (Finset.card_le_card ?_).trans (Finset.card_image_le (f := Prod.snd))
  intro packetId hid
  obtain ⟨other, returns⟩ := Finset.mem_erase.mp hid
  obtain ⟨waits, absent⟩ := mem_returning.mp returns
  obtain ⟨y, hy, rfl⟩ := List.mem_map.mp waits
  refine Finset.mem_image.mpr ⟨y, Finset.mem_erase.mpr ⟨?_, ?_⟩, rfl⟩
  · exact fun eq => other (congrArg Prod.snd eq)
  · refine Finset.mem_filter.mpr ⟨Finset.mem_union_right _ (List.mem_toFinset.mpr hy), ?_⟩
    rw [← Bool.not_eq_true] at absent ⊢
    intro found
    obtain ⟨e, he, both⟩ := List.any_eq_true.mp found
    exact absent (List.any_eq_true.mpr ⟨e, he, (Bool.and_eq_true_iff.mp both).2⟩)

section

variable {cap : Nat} {s s' : State}

theorem Within.deliver (within : Within cap s) (bound : cap < usizeSize)
    (room : InRoom s (.session (.deliver false)))
    (hstep : step s (.session (.deliver false)) = some s') : Within cap s' := by
  obtain ⟨session, delivered, rfl⟩ := Option.map_eq_some_iff.mp hstep
  have keyed := Outbound.wellKeyed_step within.keyed delivered
  have same := (Outbound.cap_step delivered).trans within.same
  -- The arm is only taken with credit.
  have credit : s.session.outInflight.hasCredit = true := by
    by_contra refused
    cases hqueue : s.session.queue with
    | nil => simp [Outbound.step, hqueue] at delivered
    | cons item queue => simp [Outbound.step, hqueue, refused] at delivered
  have space : s.session.outInflight.len < cap := by
    have le := (Nat.le_add_right _ _).trans within.slots
    rw [← within.same] at le bound ⊢
    exact (OutInflight.hasCredit_iff _ le bound).mp credit
  obtain ⟨msg, p, w, next, queues, window, channel, link⟩ := deliver_cases delivered
  have len : w.len = s.session.outInflight.len := by
    rw [OutInflight.len, queues]
    rfl
  rw [sentIn_append link]
  rcases sentWindow_cases w msg p s.session.clock with ⟨untracked, unchanged⟩ |
    ⟨packetId, m, sent, id, pushed⟩
  · rw [unchanged] at window
    rw [untracked]
    have slots := @slots_of_same s.session session (by rw [window, len]) (by rw [channel])
      fun packetId => by rw [window, OutInflight.exist_congr queues]
    refine ⟨keyed, same, slots.trans within.slots, ?_⟩
    rw [Option.toList_none, List.toFinset_nil, Finset.union_empty]
    exact (Finset.card_filter_le _ _).trans within.outstanding
  · -- Either nothing is freed, and there is credit, or the slots that are freed stay so.
    have free : s.session.outInflight.len + ((freed s).erase (msg, packetId)).card < cap := by
      by_cases none : (freed s).erase (msg, packetId) = ∅
      · rw [none, Finset.card_empty]
        exact space
      · rw [← within.same]
        exact room _ (by rw [next, sent]; rfl) none
    rw [pushed] at window
    rw [sent]
    refine ⟨keyed, same, ?_, ?_⟩
    · have subset : returning session ⊆ (returning s.session).erase packetId := by
        intro k hk
        obtain ⟨waits, absent⟩ := mem_returning.mp hk
        rw [channel] at waits
        rw [← Bool.not_eq_true, window, OutInflight.exist_pushBack, OutInflight.exist_congr queues,
          not_or] at absent
        refine Finset.mem_erase.mpr ⟨fun eq => absent.1 ?_, mem_returning.mpr ⟨waits, ?_⟩⟩
        · rw [id, eq]
          rfl
        · exact (Bool.not_eq_true _).mp absent.2
      have card := (Finset.card_le_card subset).trans (card_returning_le s (msg, packetId))
      have length := OutInflight.len_pushBack_le w m
      rw [← window] at length
      dsimp only
      omega
    · have subset : (s.outstanding.filter fun x =>
          acknowledged s.session (.deliver false) ≠ some x.2) ∪
            (some (msg, packetId)).toList.toFinset ⊆ insert (msg, packetId) s.outstanding := by
        intro y hy
        rcases Finset.mem_union.mp hy with old | new
        · exact Finset.mem_insert_of_mem (Finset.mem_filter.mp old).1
        · rw [List.mem_toFinset, Option.toList_some] at new
          rw [List.mem_singleton.mp new]
          exact Finset.mem_insert_self _ _
      have counted := (Finset.card_le_card subset).trans
        (card_insert_outstanding_le s (msg, packetId))
      apply le_trans counted
      omega

theorem Within.step {a : Step} (within : Within cap s) (bound : cap < usizeSize) (room : InRoom s a)
    (hstep : step s a = some s') : Within cap s' := by
  cases a with
  | transfer inflight offline =>
      cases hstep
      have none : rereleased (transferred inflight offline) = [] := by
        rw [transferred, rereleased_append]
        simp [rereleased, List.filterMap_map]
      have slots := @slots_of_same s.session
        { s.session with channel := s.session.channel ++ transferred inflight offline } le_rfl
        (by rw [rereleased_append, none, List.append_nil]) fun _ => rfl
      exact ⟨within.keyed, within.same, slots.trans within.slots, within.outstanding⟩
  | session a =>
      by_cases sends : a = .deliver false
      · subst sends
        exact within.deliver bound room hstep
      · obtain ⟨session, taken, rfl⟩ := Option.map_eq_some_iff.mp hstep
        refine ⟨Outbound.wellKeyed_step within.keyed taken,
          (Outbound.cap_step taken).trans within.same,
          (slots_step within.keyed sends taken).trans within.slots, ?_⟩
        dsimp only
        rw [sentIn_step sends taken, List.toFinset_nil, Finset.union_empty]
        exact (Finset.card_filter_le _ _).trans within.outstanding

end

/-! ## Any steps -/

/-- In every state of a run whose steps meet the condition, the window holds at most `cap` messages,
the subtraction in `has_credit` is exact, and at most `cap` packets are outstanding. -/
theorem window_within_cap (version : Outbound.Version) (cap : NonZeroU16)
    (retryInterval expiryInterval : TimestampMillis) (toBack : Bool) (queueCap : Nat)
    {steps : List Step} {s : State}
    (room : Machine.Guarded step InRoom
      (initial version cap retryInterval expiryInterval toBack queueCap) steps)
    (ran : Machine.run step (initial version cap retryInterval expiryInterval toBack queueCap) steps =
      some s) :
    s.session.outInflight.cap = cap.val.toNat ∧ s.session.outInflight.len ≤ cap.val.toNat ∧
      (s.session.outInflight.hasCredit = true ↔ s.session.outInflight.len < cap.val.toNat) ∧
      s.outstanding.card ≤ cap.val.toNat := by
  have bound : cap.val.toNat < usizeSize := by
    have small : cap.val.toNat < 2 ^ 16 := UInt16.toNat_lt cap.val
    rw [usizeSize]
    omega
  have within : Within cap.val.toNat s := by
    apply Machine.invariant_guarded _ room ran
    · exact ⟨OutInflight.wellKeyed_new _ _ _ _, rfl, Nat.zero_le _, Nat.zero_le _⟩
    · intro s a s' within room hstep
      exact within.step bound room hstep
  have window := (Nat.le_add_right _ _).trans within.slots
  refine ⟨within.same, window, ?_, within.outstanding⟩
  rw [← within.same]
  apply OutInflight.hasCredit_iff
  · rw [within.same]
    exact window
  · rw [within.same]
    exact bound

/-- A Receive Maximum of 1. -/
def single : NonZeroU16 := ⟨1, by decide⟩

/-- Two QoS 2 publishes, each sent when the one before it is acknowledged. -/
def oneByOne : List Step :=
  [.session (.forward Outbound.reading), .session (.forward Outbound.reading), .session .message,
    .session .message, .session (.deliver false), .session .client, .session .packet,
    .session .client, .session .packet, .session (.deliver false)]

theorem window_within_cap_one_by_one :
    ∃ s, Machine.run step (initial .v5 single 20000 0 true 1000) oneByOne = some s ∧
      s.session.outInflight.len = 1 ∧ s.outstanding.card ≤ 1 := by
  have room : Machine.Guarded step InRoom (initial .v5 single 20000 0 true 1000) oneByOne := by
    decide
  exact ⟨_, rfl, rfl, (window_within_cap .v5 single 20000 0 true 1000 room rfl).2.2.2⟩

/-- With a Receive Maximum of 1: the client has acknowledged the first publish with a PUBREC and the
second one waits.  The entry of the first times out, the second takes its slot, and the first comes
back for its PUBREL. -/
def takenSlot : List Step :=
  [.session (.forward Outbound.reading), .session .message, .session (.deliver false),
    .session .client, .session .packet, .session (.forward Outbound.reading), .session .message,
    .session (.tick 20000), .session (.timeout false), .session (.deliver false),
    .session .message]

/-- The window holds two messages of at most one, two PUBLISH packets are unacknowledged, and
`has_credit` still finds credit. -/
theorem rerelease_exceeds_cap :
    ∃ s, Machine.run step (initial .v5 single 20000 0 true 1000) takenSlot = some s ∧
      s.session.outInflight.cap = 1 ∧ s.session.outInflight.len = 2 ∧
      s.session.outInflight.hasCredit = true ∧ s.outstanding.card = 2 := by
  exact ⟨_, rfl, by decide, by decide, by decide, by decide⟩

end OxiMqtt.Session.Window

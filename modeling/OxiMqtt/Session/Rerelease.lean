import OxiMqtt.Session.Acks

/-!
# The reason code of a PUBREL that is sent again

A v5 session answers a PUBREC with a PUBREL that says `SendOnward`.  When the PUBCOMP does not come,
the timeout takes the message out of the window and sends it through the channel, and
`send_rerelease` puts it back and sends the PUBREL again.  The reason code of that PUBREL is
`SendOnward` when `push_back` has replaced an entry and `PacketIdNotFound` when it has not, but the
timeout has just taken the entry out.

* `tracks`: the session has a message under the packet id.
* `inv_step`: the window has lost the messages whose timeout has no PUBCOMP and no packet behind it.
* `pubrel_consistent`: the PUBRELs of a run are consistent where none is sent again for such a
  message, and for an id that another one waits under.
* `rerelease_not_found`: a timeout between PUBREC and PUBCOMP.
-/

namespace OxiMqtt.Session.Rerelease

open OxiMqtt.Codec (QoS NonZeroU16 Publish)
open OxiMqtt.Codec.V5 (PublishAck2Reason)
open Outbound (MsgId Message Packet)
open Acks (AckPacket Step)

/-! ## What the session tracks -/

/-- A message and its packet id. -/
abbrev Numbered : Type := MsgId × NonZeroU16

/-- The message of the channel is a PUBREL to be sent again for the packet id. -/
def rereleases (packetId : NonZeroU16) : Message → Bool
  | .sendRerelease m => m.publish.packetId == some packetId
  | .forward _ _ => false

/-- The publish is to be sent again under the packet id. -/
def resends (packetId : NonZeroU16) (item : MsgId × Publish) : Bool :=
  item.2.qos != .atMostOnce && item.2.dup && item.2.packetId == some packetId

/-- A message waits to be sent again under the packet id. -/
def awaits (session : Outbound.State) (packetId : NonZeroU16) : Bool :=
  (Outbound.waiting session).any (resends packetId) || session.channel.any (rereleases packetId)

/-- A message with a PUBREC and no PUBCOMP has the packet id. -/
def opens (opened : List Numbered) (packetId : NonZeroU16) : Bool :=
  opened.any fun x => x.2 == packetId

/-- The session has a message under the packet id: in the window, with its PUBREC and without its
PUBCOMP (`opened`), or waiting to be sent again. -/
def tracks (session : Outbound.State) (opened : List Numbered) (packetId : NonZeroU16) : Bool :=
  session.outInflight.exist packetId.val || opens opened packetId || awaits session packetId

/-- A PUBREL that was sent, and whether the session had a message under its packet id. -/
structure Released : Type where
  packetId : NonZeroU16
  reason : Option PublishAck2Reason
  tracked : Bool
  deriving DecidableEq, Repr

/-- The QoS 2 messages with a PUBREC and no PUBCOMP; the packet ids under which a timeout, or a
PUBACK, has taken one of these out of the window, with no PUBCOMP and nothing sent since; and the
PUBRELs sent so far. -/
structure State : Type where
  acks : Acks.State
  opened : List Numbered := []
  away : List NonZeroU16 := []
  released : List Released := []

/-- A PUBREC opens the QoS 2 message that the window has under its id, and a PUBCOMP closes its
id. -/
def openedAfter (s : State) : Step → List Numbered
  | .receive (.publishReceived packetId _) =>
      ((s.acks.session.outInflight.get packetId.val).bind fun m =>
        if m.publish.qos = .exactlyOnce then some (m.origin, packetId) else none).toList ++ s.opened
  | .receive (.publishComplete packetId) => s.opened.filter fun x => x.2 ≠ packetId
  | _ => s.opened

/-- The packet id of the entry that the step takes out of the window, unless it completes it. -/
def takenOut (session : Outbound.State) : Step → Option NonZeroU16
  | .arm (.timeout _) => session.outInflight.queues.head?.bind fun e => e.2.publish.packetId
  | .receive (.publishAck packetId) => some packetId
  | _ => none

/-- The packet id that a PUBLISH or a PUBREL is sent under by the step, or whose PUBCOMP has come. -/
def settled (session : Outbound.State) : Step → Option NonZeroU16
  | .arm (.deliver false) => (Window.nextSent session).map Prod.snd
  | .arm .message => Outbound.releases session .message
  | .receive (.publishComplete packetId) => some packetId
  | _ => none

def awayAfter (s : State) (a : Step) : List NonZeroU16 :=
  ((takenOut s.acks.session a).toList.filter (opens s.opened) ++ s.away).filter fun packetId =>
    settled s.acks.session a ≠ some packetId

/-- The session as the PUBREL finds it: without the message that is taken from the channel. -/
def taken (session : Outbound.State) : Step → Outbound.State
  | .arm .message => { session with channel := session.channel.tail }
  | _ => session

/-- The PUBRELs that a step puts on the link. -/
def releasedIn (before after : Outbound.State) : List (NonZeroU16 × Option PublishAck2Reason) :=
  (after.toClient.drop before.toClient.length).filterMap fun
    | .publishRelease packetId reason => some (packetId, reason)
    | .publish _ _ => none

def step (s : State) (a : Step) : Option State :=
  (Acks.step s.acks a).map fun acks =>
    { acks
      opened := openedAfter s a
      away := awayAfter s a
      released := s.released ++ (releasedIn s.acks.session acks.session).map fun r =>
        ⟨r.1, r.2, tracks (taken s.acks.session a) s.opened r.1⟩ }

/-- A v5 connection at its start. -/
def initial (cap : NonZeroU16) (retryInterval expiryInterval : TimestampMillis) (toBack : Bool)
    (queueCap : Nat) : State where
  acks := Acks.initial .v5 cap retryInterval expiryInterval toBack queueCap

/-- `SendOnward` for a message that the session has, and `PacketIdNotFound` only where it has
none. -/
def Consistent (r : Released) : Prop :=
  (r.tracked = true → r.reason = some .sendOnward) ∧
    (r.reason = some .packetIdNotFound → r.tracked = false)

/-- No PUBREL is sent again for a message that a timeout has taken out of the window between its
PUBREC and its PUBCOMP, unless the PUBCOMP has come since, or a packet was sent under its id. -/
def NotAway (s : State) : Step → Prop
  | .arm .message => ∀ packetId ∈ Outbound.releases s.acks.session .message, packetId ∉ s.away
  | _ => True

/-- And none is sent again under an id that another message waits under to be sent again. -/
def Returned (s : State) : Step → Prop
  | .arm .message => ∀ packetId ∈ Outbound.releases s.acks.session .message,
      packetId ∉ s.away ∧ awaits (taken s.acks.session (.arm .message)) packetId = false
  | _ => True

instance (s : State) (a : Step) : Decidable (Returned s a) :=
  match a with
  | .arm .message => Option.decidableForallMem (p := fun packetId =>
      packetId ∉ s.away ∧ awaits (taken s.acks.session (.arm .message)) packetId = false)
      (Outbound.releases s.acks.session .message)
  | .arm (.forward _) => isTrue trivial
  | .arm (.tick _) => isTrue trivial
  | .arm (.timeout _) => isTrue trivial
  | .arm (.deliver _) => isTrue trivial
  | .arm .packet => isTrue trivial
  | .arm .client => isTrue trivial
  | .receive _ => isTrue trivial
  | .transfer _ _ => isTrue trivial

/-- What the reason code of a PUBREL that is sent again comes to: the window has an entry under its
id, or the session has no message. -/
def Found (s : State) : Step → Prop
  | .arm .message => ∀ packetId ∈ Outbound.releases s.acks.session .message,
      s.acks.session.outInflight.exist packetId.val = true ∨
        tracks (taken s.acks.session (.arm .message)) s.opened packetId = false
  | _ => True

/-! ## One step -/

/-- The session is a v5 session with one entry for every key; what is away is what is open and not in
the window. -/
structure Inv (s : State) : Prop where
  keyed : s.acks.session.outInflight.WellKeyed
  version : s.acks.session.version = .v5
  mem_away_iff : ∀ packetId, packetId ∈ s.away ↔
    opens s.opened packetId = true ∧ s.acks.session.outInflight.exist packetId.val = false

theorem pushBack_old_isSome {w : OutInflight MsgId} (keyed : w.WellKeyed)
    {m : OutInflightMessage MsgId} {packetId : NonZeroU16}
    (id : m.publish.packetId = some packetId) :
    (w.pushBack m).2.isSome = w.exist packetId.val := by
  unfold OutInflight.pushBack OutInflight.exist
  rw [id]
  dsimp only
  cases found : w.queues.find? fun e => e.1 == packetId.val with
  | none =>
      have absent : (w.queues.any fun e => e.1 == packetId.val) = false := by
        simpa using List.find?_eq_none.mp found
      rw [absent]
      rfl
  | some e =>
      have key := keyed.packetId e (List.mem_of_find?_eq_some found)
      have hit := List.find?_some found
      have there : (w.queues.any fun e => e.1 == packetId.val) = true :=
        List.any_eq_true.mpr ⟨e, List.mem_of_find?_eq_some found, hit⟩
      obtain ⟨own, own_eq, -⟩ := Option.map_eq_some_iff.mp key
      rw [there, Option.bind_some, own_eq]
      rfl

/-- The PUBREL among the packets that a step has sent. -/
theorem releasedIn_append {before after : Outbound.State} {packets : List Packet}
    (sent : after.toClient = before.toClient ++ packets) :
    releasedIn before after = packets.filterMap fun
      | .publishRelease packetId reason => some (packetId, reason)
      | .publish _ _ => none := by
  rw [releasedIn, sent, List.drop_left]

/-- A step that sends nothing sends no PUBREL. -/
theorem forall_releasedIn_of_same {before after : Outbound.State}
    {P : NonZeroU16 × Option PublishAck2Reason → Prop}
    (same : after.toClient = before.toClient) : ∀ r ∈ releasedIn before after, P r := by
  rw [releasedIn, same, List.drop_length]
  simp

theorem consistent_rerelease (packetId : NonZeroU16) (exist tracked : Bool) :
    Consistent
        ⟨packetId, some (if exist then PublishAck2Reason.sendOnward else .packetIdNotFound), tracked⟩ ↔
      exist = true ∨ tracked = false := by
  cases exist <;> cases tracked <;> simp [Consistent]

variable {s s' : State}

/-- What the PUBRELs of a step are, and that they are consistent just when the step meets the
condition. -/
theorem released_message (inv : Inv s) {session : Outbound.State}
    (h : Outbound.step s.acks.session .message = some session) :
    (∀ r ∈ releasedIn s.acks.session session, Consistent
      ⟨r.1, r.2, tracks (taken s.acks.session (.arm .message)) s.opened r.1⟩) ↔
      Found s (.arm .message) := by
  rcases Outbound.step_message h with ⟨msg, p, channel, head, rfl⟩ |
    ⟨m, packetId, channel, head, id, rfl⟩
  · refine iff_of_true (forall_releasedIn_of_same rfl) ?_
    rw [Found, Outbound.releases, head]
    intro packetId none
    cases none
  · have old : (s.acks.session.outInflight.pushBack
        { m with status := .unComplete, updateTime := s.acks.session.clock }).2.isSome =
          s.acks.session.outInflight.exist packetId.val := by
      apply pushBack_old_isSome inv.keyed
      exact id
    rw [releasedIn_append rfl, Found, Outbound.releases, head, inv.version]
    simp only [Outbound.rereleaseReason, old, List.filterMap_cons, List.filterMap_nil,
      List.forall_mem_singleton, id, Option.mem_some_iff, forall_eq']
    exact consistent_rerelease packetId _ _

theorem released_receive (inv : Inv s) (packet : AckPacket) (tracked : NonZeroU16 → Bool) :
    ∀ r ∈ releasedIn s.acks.session (Acks.receive s.acks.session packet),
      Consistent ⟨r.1, r.2, tracked r.1⟩ := by
  cases packet with
  | publishAck packetId => exact forall_releasedIn_of_same rfl
  | publishReceived packetId reason =>
      rw [releasedIn_append rfl, inv.version]
      simp [Consistent]
  | publishRelease packetId => exact forall_releasedIn_of_same rfl
  | publishComplete packetId => exact forall_releasedIn_of_same rfl

theorem released_arm {a : Outbound.Step} {session : Outbound.State} (other : a ≠ .message)
    (packet : a ≠ .packet) (client : a ≠ .client) (tracked : NonZeroU16 → Bool)
    (h : Outbound.step s.acks.session a = some session) :
    ∀ r ∈ releasedIn s.acks.session session, Consistent ⟨r.1, r.2, tracked r.1⟩ := by
  cases a with
  | forward p =>
      cases h
      exact forall_releasedIn_of_same rfl
  | tick elapsed =>
      cases h
      exact forall_releasedIn_of_same rfl
  | timeout expired =>
      obtain ⟨packetId, m, w, -, rfl⟩ := Outbound.step_timeout h
      exact forall_releasedIn_of_same rfl
  | deliver expired =>
      obtain ⟨msg, p, queue, -, ⟨-, rfl⟩ | ⟨-, p', w, -, rfl⟩⟩ := Outbound.step_deliver h
      · exact forall_releasedIn_of_same rfl
      · rw [releasedIn_append rfl]
        simp
  | message => exact absurd rfl other
  | packet => exact absurd rfl packet
  | client => exact absurd rfl client

theorem some_ne_iff {own packetId : NonZeroU16} :
    some own ≠ some packetId ↔ packetId.val ≠ own.val := by
  rw [ne_eq, Option.some.injEq, Subtype.ext_iff]
  exact ne_comm

/-- What an arm of the loop leaves in the window: what it sends under is there, and what it takes out
is not. -/
theorem exist_arm {session before : Outbound.State} (keyed : before.outInflight.WellKeyed)
    {a : Outbound.Step} (packet : a ≠ .packet) (client : a ≠ .client)
    (h : Outbound.step before a = some session) (packetId : NonZeroU16) :
    session.outInflight.exist packetId.val = true ↔
      (settled before (.arm a) = some packetId ∨ before.outInflight.exist packetId.val = true) ∧
        takenOut before (.arm a) ≠ some packetId := by
  cases a with
  | forward p =>
      cases h
      simp [settled, takenOut]
  | tick elapsed =>
      cases h
      simp [settled, takenOut]
  | timeout expired =>
      obtain ⟨key, m, w, front, rfl⟩ := Outbound.step_timeout h
      obtain ⟨own, id, same⟩ := Option.map_eq_some_iff.mp
        (keyed.packetId (key, m) (by rw [front]; exact List.mem_cons_self))
      refine (keyed.exist_front front packetId.val).trans ?_
      have out : takenOut before (.arm (.timeout expired)) = some own := by
        rw [takenOut, front, List.head?_cons, Option.bind_some]
        exact id
      rw [out, some_ne_iff, ← show own.val = key from same]
      simp [settled]
  | deliver expired =>
      cases expired with
      | true =>
          obtain ⟨msg, p, queue, -, ⟨-, rfl⟩ | ⟨expired, -⟩⟩ := Outbound.step_deliver h
          · simp [settled, takenOut]
          · cases expired
      | false =>
          obtain ⟨msg, p, w, next, queues, window, -, -⟩ := Window.deliver_cases h
          have sends : settled before (.arm (.deliver false)) =
              (Window.tracked (.publish msg p)).map Prod.snd := by
            rw [← next]
            rfl
          have stays : takenOut before (.arm (.deliver false)) = none := rfl
          rw [window, sends, stays]
          rcases Window.sentWindow_cases w msg p before.clock with ⟨untracked, same⟩ |
            ⟨own, m, sent, id, pushed⟩
          · rw [untracked, same, OutInflight.exist_congr queues]
            simp
          · rw [sent, pushed, OutInflight.exist_pushBack, id, OutInflight.exist_congr queues]
            simp [Subtype.ext_iff]
  | message =>
      rcases Outbound.step_message h with ⟨msg, p, channel, head, rfl⟩ |
        ⟨m, own, channel, head, id, rfl⟩
      · simp [settled, takenOut, Outbound.releases, head]
      · rw [OutInflight.exist_pushBack]
        simp [settled, takenOut, Outbound.releases, head, id, Subtype.ext_iff]
  | packet => exact absurd rfl packet
  | client => exact absurd rfl client

theorem mem_awayAfter {a : Step} {packetId : NonZeroU16} :
    packetId ∈ awayAfter s a ↔
      (takenOut s.acks.session a = some packetId ∧ opens s.opened packetId = true ∨
        packetId ∈ s.away) ∧ settled s.acks.session a ≠ some packetId := by
  rw [awayAfter, List.mem_filter, List.mem_append, List.mem_filter, Option.mem_toList,
    decide_eq_true_iff]

/-- A step takes nothing out that it sends under. -/
theorem settled_of_takenOut {a : Step} {packetId : NonZeroU16}
    (out : takenOut s.acks.session a = some packetId) : settled s.acks.session a = none := by
  cases a with
  | arm a =>
      cases a with
      | timeout expired => rfl
      | _ => cases out
  | receive packet =>
      cases packet with
      | publishAck packetId => rfl
      | _ => cases out
  | transfer inflight offline => cases out

/-- Where no PUBREC and no PUBCOMP comes, what leaves the window and is open is away until something
is sent under its id. -/
theorem Inv.mem_awayAfter_iff (inv : Inv s) {a : Step} {packetId : NonZeroU16}
    {session : Outbound.State}
    (exist : session.outInflight.exist packetId.val = true ↔
      (settled s.acks.session a = some packetId ∨
        s.acks.session.outInflight.exist packetId.val = true) ∧
        takenOut s.acks.session a ≠ some packetId) :
    packetId ∈ awayAfter s a ↔
      opens s.opened packetId = true ∧ session.outInflight.exist packetId.val = false := by
  rw [mem_awayAfter, inv.mem_away_iff, ← Bool.not_eq_true (session.outInflight.exist _), exist,
    ← Bool.not_eq_true (s.acks.session.outInflight.exist _)]
  by_cases out : takenOut s.acks.session a = some packetId
  · rw [settled_of_takenOut out]
    simp only [out, true_and, reduceCtorEq, ne_eq, not_false_eq_true, and_true, false_or,
      not_true_eq_false, and_false, or_iff_left_iff_imp, and_imp]
    exact fun opened _ => opened
  · simp only [out, ne_eq, not_false_eq_true, and_true, false_and, false_or, not_or]
    tauto

theorem opens_cons (x : Numbered) (opened : List Numbered) (packetId : NonZeroU16) :
    opens (x :: opened) packetId = (x.2 == packetId || opens opened packetId) := rfl

/-- A PUBREC opens a message that is in the window. -/
theorem Inv.mem_away_publishReceived (inv : Inv s) (own : NonZeroU16)
    (reason : Option Codec.V5.PublishAckReason) (packetId : NonZeroU16) :
    packetId ∈ awayAfter s (.receive (.publishReceived own reason)) ↔
      opens (openedAfter s (.receive (.publishReceived own reason))) packetId = true ∧
        (s.acks.session.outInflight.updateStatus s.acks.session.clock own.val .unComplete).exist
          packetId.val = false := by
  rw [OutInflight.exist_updateStatus, mem_awayAfter, inv.mem_away_iff]
  simp only [takenOut, settled, openedAfter, reduceCtorEq, false_and, false_or, ne_eq,
    not_false_eq_true, and_true]
  cases found : s.acks.session.outInflight.get own.val with
  | none => rfl
  | some m =>
      by_cases qos : m.publish.qos = .exactlyOnce
      · have there : s.acks.session.outInflight.exist own.val = true :=
          OutInflight.exist_iff.mpr (List.mem_map_of_mem (OutInflight.mem_of_get found))
        rw [Option.bind_some, if_pos qos, Option.toList_some, List.singleton_append, opens_cons]
        by_cases same : own = packetId
        · rw [← same, there]
          simp
        · have apart : own.val ≠ packetId.val := fun h => same (Subtype.ext h)
          simp [apart]
      · rw [Option.bind_some, if_neg qos]
        rfl

/-- A PUBCOMP closes its packet id, whether it is in the window or away. -/
theorem Inv.mem_away_publishComplete (inv : Inv s) (own packetId : NonZeroU16) :
    packetId ∈ awayAfter s (.receive (.publishComplete own)) ↔
      opens (openedAfter s (.receive (.publishComplete own))) packetId = true ∧
        (s.acks.session.outInflight.remove own.val).2.exist packetId.val = false := by
  have exist := OutInflight.exist_remove s.acks.session.outInflight own.val packetId.val
  have opened : opens (openedAfter s (.receive (.publishComplete own))) packetId = true ↔
      opens s.opened packetId = true ∧ own ≠ packetId := by
    simp only [opens, openedAfter, List.any_filter, List.any_eq_true, Bool.and_eq_true,
      decide_eq_true_eq, beq_iff_eq]
    constructor
    · intro h
      obtain ⟨x, member, other, rfl⟩ := h
      exact ⟨⟨x, member, rfl⟩, other.symm⟩
    · intro h
      obtain ⟨⟨x, member, rfl⟩, other⟩ := h
      exact ⟨x, member, other.symm, rfl⟩
  rw [mem_awayAfter, inv.mem_away_iff, opened, ← Bool.not_eq_true, ← Bool.not_eq_true, exist]
  simp only [takenOut, settled, reduceCtorEq, false_and, false_or, ne_eq, Option.some.injEq,
    Subtype.ext_iff]
  tauto

theorem inv_receive (inv : Inv s) {packet : AckPacket} (h : step s (.receive packet) = some s') :
    Inv s' := by
  cases h
  have keyed := Acks.wellKeyed_receive inv.keyed packet
  cases packet with
  | publishAck own =>
      refine ⟨keyed, inv.version, fun packetId => inv.mem_awayAfter_iff ?_⟩
      refine (OutInflight.exist_remove s.acks.session.outInflight own.val packetId.val).trans ?_
      rw [takenOut, some_ne_iff]
      simp [settled]
  | publishReceived own reason =>
      exact ⟨keyed, inv.version, fun packetId => inv.mem_away_publishReceived own reason packetId⟩
  | publishRelease own =>
      refine ⟨keyed, inv.version, fun packetId => inv.mem_awayAfter_iff ?_⟩
      simp [settled, takenOut, Acks.receive, AckPacket.outbound]
  | publishComplete own =>
      exact ⟨keyed, inv.version, fun packetId => inv.mem_away_publishComplete own packetId⟩

theorem inv_step (a : Step) (inv : Inv s) (h : step s a = some s') : Inv s' := by
  cases a with
  | arm a =>
      obtain ⟨acks, moved, rfl⟩ := Option.map_eq_some_iff.mp h
      obtain ⟨packet, client, session, taken, rfl⟩ := Acks.step_arm moved
      exact ⟨Outbound.wellKeyed_step inv.keyed taken,
        (Outbound.version_step taken).trans inv.version,
        fun packetId => inv.mem_awayAfter_iff (exist_arm inv.keyed packet client taken packetId)⟩
  | receive packet => exact inv_receive inv h
  | transfer inflight offline =>
      cases h
      refine ⟨inv.keyed, inv.version, fun packetId => inv.mem_awayAfter_iff ?_⟩
      simp [settled, takenOut]

theorem Inv.notAway_of_found (inv : Inv s) {a : Step} (found : Found s a) : NotAway s a := by
  cases a with
  | arm a =>
      cases a with
      | message =>
          intro packetId released away
          obtain ⟨opened, absent⟩ := (inv.mem_away_iff packetId).mp away
          rcases found packetId released with there | untracked
          · rw [absent] at there
            cases there
          · rw [tracks, opened] at untracked
            simp at untracked
      | _ => trivial
  | receive packet => trivial
  | transfer inflight offline => trivial

theorem Inv.found_of_returned (inv : Inv s) {a : Step} (returned : Returned s a) : Found s a := by
  cases a with
  | arm a =>
      cases a with
      | message =>
          intro packetId released
          obtain ⟨away, alone⟩ := returned packetId released
          cases there : s.acks.session.outInflight.exist packetId.val with
          | true => exact .inl rfl
          | false =>
              right
              have closed : opens s.opened packetId = false := by
                rw [← Bool.not_eq_true]
                exact fun opened => away ((inv.mem_away_iff packetId).mpr ⟨opened, there⟩)
              rw [tracks, alone, closed, Bool.or_false, Bool.or_false]
              exact there
      | _ => trivial
  | receive packet => trivial
  | transfer inflight offline => trivial

/-- The PUBRELs of a step are consistent just when it meets the condition. -/
theorem step_released_iff (a : Step) (inv : Inv s) (h : step s a = some s') :
    ∃ new, s'.released = s.released ++ new ∧ ((∀ r ∈ new, Consistent r) ↔ Found s a) := by
  obtain ⟨acks, moved, rfl⟩ := Option.map_eq_some_iff.mp h
  refine ⟨_, rfl, ?_⟩
  rw [List.forall_mem_map]
  cases a with
  | arm a =>
      obtain ⟨packet, client, session, taken, rfl⟩ := Acks.step_arm moved
      by_cases message : a = .message
      · subst message
        exact released_message inv taken
      · refine iff_of_true (released_arm message packet client _ taken) ?_
        cases a with
        | message => exact absurd rfl message
        | _ => trivial
  | receive packet =>
      cases moved
      exact iff_of_true (released_receive inv packet _) trivial
  | transfer inflight offline =>
      cases moved
      exact iff_of_true (forall_releasedIn_of_same rfl) trivial

/-! ## Runs -/

/-- In a run of a v5 session every PUBREL for a message that the session has says `SendOnward`, and
`PacketIdNotFound` is only sent where it has none, if none is sent again for a message that a timeout
has taken out of the window between its PUBREC and its PUBCOMP, before its PUBCOMP or a packet under
its id, and none under an id that another message waits under.  The first part of this is needed. -/
theorem pubrel_consistent (cap : NonZeroU16) (retryInterval expiryInterval : TimestampMillis)
    (toBack : Bool) (queueCap : Nat) {steps : List Step} {s : State}
    (ran : Machine.run step (initial cap retryInterval expiryInterval toBack queueCap) steps =
      some s) :
    (Machine.Guarded step Returned (initial cap retryInterval expiryInterval toBack queueCap)
        steps → ∀ r ∈ s.released, Consistent r) ∧
      ((∀ r ∈ s.released, Consistent r) →
        Machine.Guarded step NotAway (initial cap retryInterval expiryInterval toBack queueCap)
          steps) := by
  have start : Inv (initial cap retryInterval expiryInterval toBack queueCap) := by
    refine ⟨OutInflight.wellKeyed_new _ _ _ _, rfl, fun packetId => ?_⟩
    simp [initial, opens]
  have exactly := Machine.log_iff_guarded (fun _ a _ inv h => inv_step a inv h)
    (fun _ a _ inv h => step_released_iff a inv h) ran start
  constructor
  · intro returned
    refine exactly.mpr ⟨by simp [initial], ?_⟩
    exact Machine.Guarded.imp (fun _ a _ inv h => inv_step a inv h)
      (fun _ _ inv => inv.found_of_returned) start returned
  · intro consistent
    exact Machine.Guarded.imp (fun _ a _ inv h => inv_step a inv h)
      (fun _ _ inv => inv.notAway_of_found) start (exactly.mp consistent).2

/-- A QoS 2 publish, its PUBREC, a timeout, and its PUBCOMP before the PUBREL is sent again. -/
def lateComplete : List Step :=
  [.arm (.forward Outbound.reading), .arm .message, .arm (.deliver false),
    .receive (.publishReceived Window.single (some .success)), .arm (.tick 20000),
    .arm (.timeout false), .receive (.publishComplete Window.single), .arm .message]

theorem pubrel_consistent_late_complete :
    ∃ s, Machine.run step (initial Window.single 20000 0 true 1000) lateComplete = some s ∧
      s.released.length = 2 ∧ ∀ r ∈ s.released, Consistent r := by
  have returned : Machine.Guarded step Returned (initial Window.single 20000 0 true 1000)
      lateComplete := by
    decide
  exact ⟨_, rfl, rfl, (pubrel_consistent Window.single 20000 0 true 1000 rfl).1 returned⟩

/-- A QoS 2 publish, its PUBREC, and a timeout before its PUBCOMP. -/
def timedOutRelease : List Step :=
  [.arm (.forward Outbound.reading), .arm .message, .arm (.deliver false),
    .receive (.publishReceived Window.single (some .success)), .arm (.tick 20000),
    .arm (.timeout false), .arm .message]

/-- The PUBREL that is sent again for a message with a PUBREC and no PUBCOMP says
`PacketIdNotFound`. -/
theorem rerelease_not_found :
    ∃ s, Machine.run step (initial Window.single 20000 0 true 1000) timedOutRelease = some s ∧
      s.opened = [(0, Window.single)] ∧
      s.released = [⟨Window.single, some .sendOnward, true⟩,
        ⟨Window.single, some .packetIdNotFound, true⟩] ∧
      ¬ ∀ r ∈ s.released, Consistent r := by
  refine ⟨_, rfl, rfl, rfl, fun consistent => ?_⟩
  have again := (consistent ⟨Window.single, some .packetIdNotFound, true⟩ (by decide)).1 rfl
  cases again

end OxiMqtt.Session.Rerelease

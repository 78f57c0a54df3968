import Mathlib.Data.List.Perm.Basic
import OxiMqtt.Codec.Types

/-!
# The outbound window

`OutInflight` of `inflight.rs`: the QoS 1 and 2 publishes a session has sent and
that are not fully acknowledged, by packet id, in the order of a deque map.

The map is a third-party type.  Its entries are listed here from the front; what
`insert` does to the place of a key that is already there is the parameter
`toBack`.  The two callbacks are the counters `pushes` and `pops`.

`F` is the type of a message's origin (`From`), which the window only carries.
-/

namespace OxiMqtt.Session

open OxiMqtt.Codec (QoS NonZeroU16 Publish)

abbrev PacketId : Type := UInt16
abbrev TimestampMillis : Type := Int

/-- `MomentStatus` -/
inductive MomentStatus : Type
  | unAck
  | unReceived
  | unComplete
  deriving DecidableEq, Repr

/-- `OutInflightMessage` -/
structure OutInflightMessage (F : Type) : Type where
  publish : Publish
  origin : F
  status : MomentStatus
  updateTime : TimestampMillis
  deriving DecidableEq, Repr

namespace OutInflightMessage

variable {F : Type}

/-- `OutInflightMessage::update_status` -/
def updateStatus (m : OutInflightMessage F) (now : TimestampMillis) (status : MomentStatus) :
    OutInflightMessage F :=
  { m with updateTime := now, status }

/-- `OutInflightMessage::timeout` -/
def timeout (m : OutInflightMessage F) (now intervalMillis : TimestampMillis) : Bool :=
  intervalMillis > 0 && now - m.updateTime ≥ intervalMillis

end OutInflightMessage

/-- `OutInflight` -/
structure OutInflight (F : Type) : Type where
  cap : Nat
  interval : TimestampMillis
  next : UInt16
  queues : List (PacketId × OutInflightMessage F)
  toBack : Bool
  pushes : Nat
  pops : Nat
  deriving DecidableEq, Repr

/-- The number of values of a `usize`. -/
def usizeSize : Nat := 2 ^ 64

namespace OutInflight

variable {F : Type}

/-- `OutInflight::interval` -/
def intervalOf (retryInterval expiryInterval : TimestampMillis) : TimestampMillis :=
  if retryInterval = 0 then expiryInterval
  else if expiryInterval = 0 then retryInterval
  else min retryInterval expiryInterval

/-- `OutInflight::new` -/
def new (cap : Nat) (retryInterval expiryInterval : TimestampMillis) (toBack : Bool) :
    OutInflight F where
  cap
  interval := intervalOf retryInterval expiryInterval
  next := 1
  queues := []
  toBack
  pushes := 0
  pops := 0

/-- `OutInflight::front_timeout` -/
def frontTimeout (w : OutInflight F) (now : TimestampMillis) : Bool :=
  if w.interval = 0 then false
  else
    match w.queues with
    | [] => false
    | (_, m) :: _ => m.timeout now w.interval

/-- `OutInflight::pop_front` -/
def popFront (w : OutInflight F) : Option (OutInflightMessage F × OutInflight F) :=
  match w.queues with
  | [] => none
  | (_, m) :: rest => some (m, { w with queues := rest, pops := w.pops + 1 })

/-- `OutInflight::pop_front_timeout` -/
def popFrontTimeout (w : OutInflight F) (now : TimestampMillis) :
    Option (OutInflightMessage F × OutInflight F) :=
  if w.frontTimeout now then w.popFront else none

/-- `self.queues.contains_key(packet_id)` -/
def exist (w : OutInflight F) (packetId : PacketId) : Bool := w.queues.any fun e => e.1 == packetId

/-- `self.queues.insert(packet_id, m)` -/
def insertEntry (w : OutInflight F) (packetId : PacketId) (m : OutInflightMessage F) :
    List (PacketId × OutInflightMessage F) :=
  if w.exist packetId && !w.toBack then
    w.queues.map fun e => if e.1 = packetId then (packetId, m) else e
  else (w.queues.filter fun e => e.1 ≠ packetId) ++ [(packetId, m)]

/-- `OutInflight::push_back`; the result is the packet id of the entry replaced. -/
def pushBack (w : OutInflight F) (m : OutInflightMessage F) : OutInflight F × Option NonZeroU16 :=
  match m.publish.packetId with
  | none => (w, none)
  | some packetId =>
      let old := w.queues.find? fun e => e.1 == packetId.val
      ({ w with
          queues := w.insertEntry packetId.val m
          pushes := w.pushes + 1
          pops := if old.isSome then w.pops + 1 else w.pops },
        old.bind fun e => e.2.publish.packetId)

/-- `OutInflight::remove` -/
def remove (w : OutInflight F) (packetId : PacketId) :
    Option (OutInflightMessage F) × OutInflight F :=
  match w.queues.find? fun e => e.1 == packetId with
  | some (_, m) =>
      (some m, { w with
        queues := w.queues.filter fun e => e.1 ≠ packetId
        pops := w.pops + 1 })
  | none => (none, w)

/-- `OutInflight::update_status` -/
def updateStatus (w : OutInflight F) (now : TimestampMillis) (packetId : PacketId)
    (s : MomentStatus) : OutInflight F :=
  { w with queues := w.queues.map fun e =>
      if e.1 = packetId then (e.1, e.2.updateStatus now s) else e }

/-- `OutInflight::to_inflight_messages` -/
def toInflightMessages (w : OutInflight F) : List (OutInflightMessage F) × OutInflight F :=
  (w.queues.map Prod.snd, { w with queues := [], pops := w.pops + w.queues.length })

/-- `OutInflight::len` -/
def len (w : OutInflight F) : Nat := w.queues.length

/-- `OutInflight::has_credit`.  The subtraction is of `usize` values and wraps. -/
def hasCredit (w : OutInflight F) : Bool := (w.cap + usizeSize - w.len) % usizeSize > 0

/-- The loop of `OutInflight::next_id`, with the turns left: the id found, if one
is, and the counter. -/
def nextIdLoop (w : OutInflight F) : Nat → UInt16 → Option PacketId × UInt16
  | 0, next => (none, next)
  | turns + 1, next =>
      if next = 0 then nextIdLoop w turns (next + 1)
      else if w.exist next then nextIdLoop w turns (next + 1)
      else (some next, next + 1)

/-- `OutInflight::next_id` -/
def nextId (w : OutInflight F) : Option PacketId × OutInflight F :=
  let r := w.nextIdLoop 65535 w.next
  (r.1, { w with next := r.2 })

/-! ## What the updates leave in the window -/

/-- Every key has one entry, a publish with the key as its packet id; one that
waits for a PUBACK is not a QoS 2 publish. -/
structure WellKeyed (w : OutInflight F) : Prop where
  keys : (w.queues.map Prod.fst).Nodup
  packetId : ∀ e ∈ w.queues, e.2.publish.packetId.map (fun id => id.val) = some e.1
  unAck : ∀ e ∈ w.queues, e.2.status = .unAck → e.2.publish.qos ≠ .exactlyOnce

theorem wellKeyed_new (cap : Nat) (retryInterval expiryInterval : TimestampMillis) (toBack : Bool) :
    (new cap retryInterval expiryInterval toBack : OutInflight F).WellKeyed :=
  ⟨List.nodup_nil, fun _ he => (by cases he), fun _ he => (by cases he)⟩

/-- Fewer entries, in their order, stay well keyed. -/
theorem WellKeyed.sublist {w w' : OutInflight F} (h : w.WellKeyed)
    (sub : w'.queues.Sublist w.queues) : w'.WellKeyed where
  keys := h.keys.sublist (sub.map Prod.fst)
  packetId e he := h.packetId e (sub.subset he)
  unAck e he := h.unAck e (sub.subset he)

theorem mem_insertEntry {w : OutInflight F} {packetId : PacketId} {m : OutInflightMessage F}
    {e : PacketId × OutInflightMessage F} (h : e ∈ w.insertEntry packetId m) :
    e = (packetId, m) ∨ (e ∈ w.queues ∧ e.1 ≠ packetId) := by
  unfold insertEntry at h
  split at h
  · obtain ⟨e', hmem, rfl⟩ := List.mem_map.mp h
    split
    · exact .inl rfl
    · exact .inr ⟨hmem, ‹_›⟩
  · rw [List.mem_append, List.mem_filter, List.mem_singleton] at h
    obtain ⟨hmem, hne⟩ | rfl := h
    · exact .inr ⟨hmem, by simpa using hne⟩
    · exact .inl rfl

theorem keys_insertEntry {w : OutInflight F} (keys : (w.queues.map Prod.fst).Nodup)
    (packetId : PacketId) (m : OutInflightMessage F) :
    ((w.insertEntry packetId m).map Prod.fst).Nodup := by
  unfold insertEntry
  split
  · have same : (w.queues.map fun e => if e.1 = packetId then (packetId, m) else e).map Prod.fst =
        w.queues.map Prod.fst := by
      rw [List.map_map]
      refine List.map_congr_left fun e _ => ?_
      simp only [Function.comp_apply]
      split
      · exact ‹e.1 = packetId›.symm
      · rfl
    rw [same]
    exact keys
  · rw [List.map_append, List.nodup_append]
    refine ⟨keys.sublist (List.filter_sublist.map Prod.fst), by simp, fun a ha b hb heq => ?_⟩
    obtain ⟨e, he, rfl⟩ := List.mem_map.mp ha
    simp only [List.map_cons, List.map_nil, List.mem_singleton] at hb
    exact absurd (heq.trans hb) (by simpa using (List.mem_filter.mp he).2)

theorem WellKeyed.pushBack {w : OutInflight F} (h : w.WellKeyed) {m : OutInflightMessage F}
    (hm : m.status = .unAck → m.publish.qos ≠ .exactlyOnce) : (w.pushBack m).1.WellKeyed := by
  unfold OutInflight.pushBack
  split
  · exact h
  · rename_i packetId hid
    refine ⟨keys_insertEntry h.keys packetId.val m, fun e he => ?_, fun e he => ?_⟩
    · obtain rfl | ⟨hmem, -⟩ := mem_insertEntry he
      · rw [hid]
        rfl
      · exact h.packetId e hmem
    · obtain rfl | ⟨hmem, -⟩ := mem_insertEntry he
      · exact hm
      · exact h.unAck e hmem

/-- With one entry for every key, the entry of a key splits the window. -/
theorem find?_split {w : OutInflight F} (keys : (w.queues.map Prod.fst).Nodup)
    {packetId : PacketId} {e : PacketId × OutInflightMessage F}
    (found : w.queues.find? (fun e => e.1 == packetId) = some e) :
    ∃ front back, w.queues = front ++ e :: back ∧ e.1 = packetId ∧
      ∀ e' ∈ front ++ back, e'.1 ≠ packetId := by
  obtain ⟨hkey, front, back, hsplit, hfront⟩ := List.find?_eq_some_iff_append.mp found
  rw [beq_iff_eq] at hkey
  refine ⟨front, back, hsplit, hkey, fun e' he' => ?_⟩
  obtain he' | he' := List.mem_append.mp he'
  · simpa using hfront e' he'
  · rw [hsplit, List.map_append, List.map_cons] at keys
    have unique := (List.nodup_cons.mp (List.nodup_append.mp keys).2.1).1
    rintro rfl
    exact unique (hkey ▸ List.mem_map_of_mem he')

theorem filter_key_eq_self {queues : List (PacketId × OutInflightMessage F)} {packetId : PacketId}
    (h : ∀ e ∈ queues, e.1 ≠ packetId) : (queues.filter fun e => e.1 ≠ packetId) = queues :=
  List.filter_eq_self.mpr fun e he => by simpa using h e he

theorem map_key_eq_self {queues : List (PacketId × OutInflightMessage F)} {packetId : PacketId}
    (h : ∀ e ∈ queues, e.1 ≠ packetId) (e' : PacketId × OutInflightMessage F) :
    (queues.map fun e => if e.1 = packetId then e' else e) = queues := by
  refine (List.map_congr_left fun e he => ?_).trans (List.map_id queues)
  exact if_neg (h e he)

/-- The entry replaced and the entries after an insertion are the new entry and
those before. -/
theorem insertEntry_perm {w : OutInflight F} (keys : (w.queues.map Prod.fst).Nodup)
    (packetId : PacketId) (m : OutInflightMessage F) :
    ((w.queues.find? fun e => e.1 == packetId).toList ++ w.insertEntry packetId m).Perm
      ((packetId, m) :: w.queues) := by
  unfold insertEntry exist
  cases found : w.queues.find? (fun e => e.1 == packetId) with
  | none =>
      have absent : ∀ e ∈ w.queues, e.1 ≠ packetId := by
        simpa using List.find?_eq_none.mp found
      have hany : (w.queues.any fun e => e.1 == packetId) = false := by simpa using absent
      rw [hany, filter_key_eq_self absent]
      exact List.perm_append_singleton _ _
  | some e =>
      obtain ⟨front, back, hsplit, hkey, others⟩ := find?_split keys found
      have hfront : ∀ e ∈ front, e.1 ≠ packetId := fun e he =>
        others e (List.mem_append_left _ he)
      have hback : ∀ e ∈ back, e.1 ≠ packetId := fun e he => others e (List.mem_append_right _ he)
      have replaced : (e :: (front ++ (packetId, m) :: back)).Perm
          ((packetId, m) :: (front ++ e :: back)) :=
        ((List.perm_middle.cons e).trans (.swap _ _ _)).trans (List.perm_middle.symm.cons _)
      rw [hsplit]
      split
      · rw [List.map_append, List.map_cons, if_pos hkey, map_key_eq_self hfront,
          map_key_eq_self hback]
        exact replaced
      · rw [List.filter_append, List.filter_cons, if_neg (by simpa using hkey),
          filter_key_eq_self hfront, filter_key_eq_self hback]
        refine ((List.perm_append_singleton _ _).trans ?_).cons e |>.trans replaced
        exact List.perm_middle.symm

/-- The entry removed and the entries left are those before. -/
theorem remove_perm {w : OutInflight F} (keys : (w.queues.map Prod.fst).Nodup)
    (packetId : PacketId) :
    ((w.remove packetId).1.toList ++ (w.remove packetId).2.queues.map Prod.snd).Perm
      (w.queues.map Prod.snd) := by
  unfold OutInflight.remove
  split
  · rename_i key m found
    obtain ⟨front, back, hsplit, hkey, others⟩ := find?_split keys found
    simp only
    rw [hsplit, List.filter_append, List.filter_cons, if_neg (by simpa using hkey),
      filter_key_eq_self fun e he => others e (List.mem_append_left _ he),
      filter_key_eq_self fun e he => others e (List.mem_append_right _ he), List.map_append,
      List.map_append, List.map_cons]
    change (m :: (front.map Prod.snd ++ back.map Prod.snd)).Perm
      (front.map Prod.snd ++ m :: back.map Prod.snd)
    exact List.perm_middle.symm
  · exact .refl _

theorem queues_remove_sublist (w : OutInflight F) (packetId : PacketId) :
    (w.remove packetId).2.queues.Sublist w.queues := by
  unfold OutInflight.remove
  split
  · exact List.filter_sublist
  · exact .refl _

theorem keys_updateStatus (w : OutInflight F) (now : TimestampMillis) (packetId : PacketId)
    (s : MomentStatus) :
    (w.updateStatus now packetId s).queues.map Prod.fst = w.queues.map Prod.fst := by
  rw [OutInflight.updateStatus, List.map_map]
  refine List.map_congr_left fun e _ => ?_
  simp only [Function.comp_apply]
  split <;> rfl

theorem packetId_updateStatus {w : OutInflight F}
    (h : ∀ e ∈ w.queues, e.2.publish.packetId.map (fun id => id.val) = some e.1)
    (now : TimestampMillis) (packetId : PacketId) (s : MomentStatus) :
    ∀ e ∈ (w.updateStatus now packetId s).queues,
      e.2.publish.packetId.map (fun id => id.val) = some e.1 := by
  intro e he
  obtain ⟨e', hmem, rfl⟩ := List.mem_map.mp he
  split
  · exact h e' hmem
  · exact h e' hmem

theorem WellKeyed.updateStatus {w : OutInflight F} (h : w.WellKeyed) (now : TimestampMillis)
    (packetId : PacketId) : (w.updateStatus now packetId .unComplete).WellKeyed := by
  refine ⟨?_, packetId_updateStatus h.packetId now packetId _, fun e he => ?_⟩
  · rw [keys_updateStatus]
    exact h.keys
  · obtain ⟨e', hmem, rfl⟩ := List.mem_map.mp he
    split
    · exact fun hstatus => by cases hstatus
    · exact h.unAck e' hmem

/-- The ids `next_id` hands out are packet ids that are not in the window. -/
theorem nextIdLoop_sound {w : OutInflight F} {turns : Nat} {next next' : UInt16}
    {packetId : PacketId} (h : w.nextIdLoop turns next = (some packetId, next')) :
    packetId ≠ 0 ∧ w.exist packetId = false := by
  induction turns generalizing next with
  | zero => cases h
  | succ turns ih =>
      unfold nextIdLoop at h
      split at h
      · exact ih h
      · rename_i nonzero
        split at h
        · exact ih h
        · rename_i absent
          cases h
          exact ⟨nonzero, (Bool.not_eq_true _).mp absent⟩

/-- An entry after a `push_back` is the one that was pushed or one that was there, under another
key. -/
theorem mem_pushBack {w : OutInflight F} {m : OutInflightMessage F}
    {e : PacketId × OutInflightMessage F} (h : e ∈ (w.pushBack m).1.queues) :
    (e.2 = m ∧ ∃ packetId, m.publish.packetId = some packetId ∧ e.1 = packetId.val) ∨
      (e ∈ w.queues ∧ ∀ packetId, m.publish.packetId = some packetId → e.1 ≠ packetId.val) := by
  unfold OutInflight.pushBack at h
  split at h
  · rename_i unnumbered
    exact .inr ⟨h, fun packetId numbered => by rw [unnumbered] at numbered; cases numbered⟩
  · rename_i packetId numbered
    obtain rfl | ⟨old, other⟩ := mem_insertEntry h
    · exact .inl ⟨rfl, packetId, numbered, rfl⟩
    · refine .inr ⟨old, fun packetId' numbered' => ?_⟩
      rw [numbered] at numbered'
      cases numbered'
      exact other

/-- An entry after `update_status` has the packet of one that was there. -/
theorem mem_updateStatus {w : OutInflight F} {now : TimestampMillis} {packetId : PacketId}
    {status : MomentStatus} {e : PacketId × OutInflightMessage F}
    (h : e ∈ (w.updateStatus now packetId status).queues) :
    (e ∈ w.queues ∧ e.1 ≠ packetId) ∨
      ∃ m, (packetId, m) ∈ w.queues ∧ e = (packetId, m.updateStatus now status) := by
  obtain ⟨⟨key, m⟩, member, rfl⟩ := List.mem_map.mp h
  dsimp only
  split
  · rename_i same
    exact .inr ⟨m, same ▸ member, by rw [← same]⟩
  · rename_i other
    exact .inl ⟨member, other⟩

/-- What a front pop takes and leaves. -/
theorem popFrontTimeout_eq {w w' : OutInflight F} {now : TimestampMillis} {m : OutInflightMessage F}
    (h : w.popFrontTimeout now = some (m, w')) :
    ∃ packetId, w.queues = (packetId, m) :: w'.queues := by
  unfold popFrontTimeout popFront at h
  split at h
  · split at h
    · cases h
    · rename_i packetId m' rest heq
      cases h
      exact ⟨packetId, heq⟩
  · cases h

/-! ## The packet ids in the window -/

theorem exist_iff {w : OutInflight F} {packetId : PacketId} :
    w.exist packetId = true ↔ packetId ∈ w.queues.map Prod.fst := by
  unfold exist
  rw [List.any_eq_true, List.mem_map]
  constructor
  · intro h
    obtain ⟨e, member, key⟩ := h
    exact ⟨e, member, beq_iff_eq.mp key⟩
  · intro h
    obtain ⟨e, member, key⟩ := h
    exact ⟨e, member, beq_iff_eq.mpr key⟩

theorem exist_congr {w w' : OutInflight F} (same : w'.queues = w.queues) (packetId : PacketId) :
    w'.exist packetId = w.exist packetId := by
  unfold exist
  rw [same]

theorem exist_insertEntry (w : OutInflight F) (own : PacketId) (m : OutInflightMessage F)
    (packetId : PacketId) :
    packetId ∈ (w.insertEntry own m).map Prod.fst ↔ packetId = own ∨ w.exist packetId = true := by
  rw [exist_iff]
  unfold insertEntry
  split
  · rename_i there
    have known := exist_iff.mp (Bool.and_eq_true_iff.mp there).1
    have keys : (w.queues.map fun e => if e.1 = own then (own, m) else e).map Prod.fst =
        w.queues.map Prod.fst := by
      rw [List.map_map]
      refine List.map_congr_left fun e _ => ?_
      simp only [Function.comp_apply]
      split
      · exact ‹e.1 = own›.symm
      · rfl
    rw [keys]
    exact ⟨.inr, fun h => h.elim (fun same => same ▸ known) id⟩
  · rw [List.map_append, List.mem_append, List.map_singleton, List.mem_singleton, or_comm]
    refine or_congr_right' fun other => ?_
    constructor
    · exact fun h => (List.filter_sublist.map Prod.fst).subset h
    · intro h
      obtain ⟨e, member, key⟩ := List.mem_map.mp h
      refine List.mem_map.mpr ⟨e, List.mem_filter.mpr ⟨member, ?_⟩, key⟩
      exact decide_eq_true (key ▸ other)

/-- A message is in the window when it was pushed. -/
theorem exist_pushBack (w : OutInflight F) (m : OutInflightMessage F) (packetId : PacketId) :
    (w.pushBack m).1.exist packetId = true ↔
      m.publish.packetId.map (fun id => id.val) = some packetId ∨ w.exist packetId = true := by
  unfold pushBack
  cases m.publish.packetId with
  | none => simp
  | some own =>
      rw [exist_iff]
      refine (exist_insertEntry w own.val m packetId).trans ?_
      rw [Option.map_some, Option.some.injEq, eq_comm]

theorem exist_remove (w : OutInflight F) (own packetId : PacketId) :
    (w.remove own).2.exist packetId = true ↔ w.exist packetId = true ∧ packetId ≠ own := by
  unfold remove
  split
  · unfold exist
    rw [List.any_filter]
    simp only [List.any_eq_true, Bool.and_eq_true, decide_eq_true_eq, beq_iff_eq]
    constructor
    · intro h
      obtain ⟨e, member, other, rfl⟩ := h
      exact ⟨⟨e, member, rfl⟩, other⟩
    · intro h
      obtain ⟨⟨e, member, rfl⟩, other⟩ := h
      exact ⟨e, member, other, rfl⟩
  · rename_i absent
    refine ⟨fun there => ⟨there, ?_⟩, fun h => h.1⟩
    intro same
    obtain ⟨e, member, key⟩ := List.any_eq_true.mp there
    exact List.find?_eq_none.mp absent e member (same ▸ key)

theorem exist_updateStatus (w : OutInflight F) (now : TimestampMillis) (own : PacketId)
    (status : MomentStatus) (packetId : PacketId) :
    (w.updateStatus now own status).exist packetId = w.exist packetId := by
  rw [Bool.eq_iff_iff, exist_iff, exist_iff, keys_updateStatus]

/-- The entry in front has the only one of its packet id. -/
theorem WellKeyed.exist_front {w w' : OutInflight F} (keyed : w.WellKeyed) {own : PacketId}
    {m : OutInflightMessage F} (front : w.queues = (own, m) :: w'.queues) (packetId : PacketId) :
    w'.exist packetId = true ↔ w.exist packetId = true ∧ packetId ≠ own := by
  have keys := keyed.keys
  rw [front, List.map_cons, List.nodup_cons] at keys
  rw [exist_iff, exist_iff, front, List.map_cons, List.mem_cons]
  constructor
  · exact fun h => ⟨.inr h, fun same => keys.1 (same ▸ h)⟩
  · exact fun h => h.1.resolve_left h.2

/-! ## The size of the window -/

section

variable (w : OutInflight F)

theorem length_insertEntry_le (packetId : PacketId) (m : OutInflightMessage F) :
    (w.insertEntry packetId m).length ≤ w.len + if w.exist packetId then 0 else 1 := by
  unfold OutInflight.insertEntry OutInflight.len
  cases found : w.exist packetId with
  | true =>
      cases w.toBack with
      | false => simp
      | true =>
          obtain ⟨e, he, key⟩ := List.any_eq_true.mp found
          have fewer : (w.queues.filter fun e => e.1 ≠ packetId).length < w.queues.length := by
            apply List.length_filter_lt_length_iff_exists.mpr
            exact ⟨e, he, by simpa using key⟩
          rw [if_neg (by decide), if_pos rfl, List.length_append]
          exact fewer
  | false =>
      have le := List.length_filter_le (fun e => decide (e.1 ≠ packetId)) w.queues
      simpa using le

theorem cap_pushBack (m : OutInflightMessage F) : (w.pushBack m).1.cap = w.cap := by
  unfold OutInflight.pushBack
  split <;> rfl

theorem len_pushBack_le (m : OutInflightMessage F) : (w.pushBack m).1.len ≤ w.len + 1 := by
  unfold OutInflight.pushBack
  split
  · exact Nat.le_succ _
  · rename_i packetId _
    refine Nat.le_trans (length_insertEntry_le w packetId.val m) ?_
    split <;> omega

theorem len_pushBack_of_exist {m : OutInflightMessage F} {packetId : NonZeroU16}
    (own : m.publish.packetId = some packetId) (exist : w.exist packetId.val = true) :
    (w.pushBack m).1.len ≤ w.len := by
  unfold OutInflight.pushBack
  rw [own]
  have le := length_insertEntry_le w packetId.val m
  rw [if_pos exist] at le
  exact le

theorem remove_le (packetId : PacketId) :
    (w.remove packetId).2.cap = w.cap ∧ (w.remove packetId).2.len ≤ w.len := by
  unfold OutInflight.remove
  split
  · exact ⟨rfl, List.length_filter_le _ _⟩
  · exact ⟨rfl, le_rfl⟩

theorem len_remove (packetId : PacketId) :
    (w.remove packetId).2.len + (if w.exist packetId then 1 else 0) ≤ w.len := by
  unfold OutInflight.remove
  split
  · rename_i e found
    have fewer : (w.queues.filter fun e => e.1 ≠ packetId).length < w.queues.length := by
      apply List.length_filter_lt_length_iff_exists.mpr
      exact ⟨_, List.mem_of_find?_eq_some found, by simpa using List.find?_some found⟩
    rw [OutInflight.len, OutInflight.len]
    split
    · exact fewer
    · exact Nat.le_of_lt fewer
  · rename_i absent
    have gone : w.exist packetId = false := by
      rw [OutInflight.exist, List.any_eq_false]
      exact List.find?_eq_none.mp absent
    rw [gone]
    exact Nat.le_refl _

theorem updateStatus_same (now : TimestampMillis) (packetId : PacketId) (status : MomentStatus) :
    (w.updateStatus now packetId status).cap = w.cap ∧
      (w.updateStatus now packetId status).len = w.len :=
  ⟨rfl, List.length_map _⟩

theorem popFrontTimeout_le {now : TimestampMillis} {m : OutInflightMessage F} {w' : OutInflight F}
    (popped : w.popFrontTimeout now = some (m, w')) : w'.cap = w.cap ∧ w'.len ≤ w.len := by
  unfold OutInflight.popFrontTimeout OutInflight.popFront at popped
  split at popped
  · split at popped
    · cases popped
    · rename_i rest hq
      cases popped
      refine ⟨rfl, ?_⟩
      rw [OutInflight.len, OutInflight.len, hq]
      exact Nat.le_succ _
  · cases popped

/-- Up to the maximum, the credit is the exact difference. -/
theorem hasCredit_iff (within : w.len ≤ w.cap) (bound : w.cap < usizeSize) :
    w.hasCredit = true ↔ w.len < w.cap := by
  have exact_difference : (w.cap + usizeSize - w.len) % usizeSize = w.cap - w.len := by
    have split : w.cap + usizeSize - w.len = (w.cap - w.len) + usizeSize := by omega
    rw [split, Nat.add_mod_right, Nat.mod_eq_of_lt (by omega)]
  rw [OutInflight.hasCredit, exact_difference, decide_eq_true_iff]
  omega

end

end OutInflight

end OxiMqtt.Session

import Mathlib.Data.List.Perm.Subperm
import Mathlib.Data.List.Nodup
import Mathlib.Data.Nat.ModEq
import OxiMqtt.Router.Matches

/-!
# The rotation of shared subscriptions

`DefaultSharedSubscription::choice` draws a number from `SHARED_SUB_SEQ`, one counter for all
groups, and starts at the member with this number modulo their count.  `_matches` asks for a choice
for every group that a topic matches.  Here the members of a group stay the same, and all of them
are online.

* `Drawn.selectAll`: the `i`-th selection draws the `i`-th number and takes the member it says.
* `choosesEach_iff`: as many selections as a group has members choose each of them once exactly when
  the numbers they drew differ modulo this count.
* `ChoosesEach.of_uninterrupted`: so do those with no other selection in between.
-/

namespace OxiMqtt.Router

open Collections

/-! ## Drawing from the sequence -/

/-- `DefaultSharedSubscription::choice` with the sequence before and after it. -/
def choiceNext (seq : UInt64) (ncs : List Member) : Option (Nat × Bool) × UInt64 :=
  if ncs.length = 0 then (none, seq) else (choice seq ncs, seq + 1)

/-- A choice that was made, with the number it drew. -/
structure Selection (G : Type) : Type where
  group : G
  seq : UInt64
  idx : Nat
  isOnline : Bool
  deriving DecidableEq, Repr

section

variable {G : Type} (members : G → List Member)

/-- The loop over the groups of a publish. -/
def selectGroups (seq : UInt64) : List G → List (Selection G) × UInt64
  | [] => ([], seq)
  | g :: groups =>
      let chosen := choiceNext seq (members g)
      let rest := selectGroups chosen.2 groups
      match chosen.1 with
      | none => rest
      | some (idx, isOnline) => (⟨g, seq, idx, isOnline⟩ :: rest.1, rest.2)

/-- The selections of a list of publishes, each with the groups it matches. -/
def selectAll (seq : UInt64) : List (List G) → List (Selection G) × UInt64
  | [] => ([], seq)
  | groups :: publishes =>
      let now := selectGroups members seq groups
      let later := selectAll now.2 publishes
      (now.1 ++ later.1, later.2)

/-- All members of all groups are online. -/
def AllOnline : Prop := ∀ g, ∀ m ∈ members g, m.isOnline = some true

/-- The selections of one group. -/
def ofGroup [DecidableEq G] (g : G) (run : List (Selection G)) : List (Selection G) :=
  run.filter fun s => s.group = g

/-- The selections take each member of the group once. -/
def ChoosesEach (g : G) (window : List (Selection G)) : Prop :=
  (window.map Selection.idx).Perm (List.range (members g).length)

/-- Nothing else is selected in between, and the sequence does not wrap. -/
structure Uninterrupted {G : Type} (run window : List (Selection G)) : Prop where
  consecutive : window <:+: run
  noWrap : ∀ s ∈ window.head?, s.seq.toNat + window.length ≤ 2 ^ 64

instance (g : G) (window : List (Selection G)) : Decidable (ChoosesEach members g window) :=
  inferInstanceAs (Decidable ((window.map Selection.idx).Perm (List.range (members g).length)))

end

/-! ## What is drawn -/

/-- The first member looked at is online. -/
theorem choice_of_online (seq : UInt64) {ncs : List Member} (nonempty : ncs ≠ [])
    (online : ∀ m ∈ ncs, m.isOnline = some true) :
    choice seq ncs = some (seq.toNat % ncs.length, true) := by
  have pos : 0 < ncs.length := List.length_pos_iff.mpr nonempty
  have start : seq.toNat % ncs.length < ncs.length := Nat.mod_lt _ pos
  have first : onlineAt ncs ((seq.toNat % ncs.length + 0) % ncs.length) = true := by
    rw [Nat.add_zero, Nat.mod_mod, onlineAt, List.getElem?_eq_getElem start, Option.any_some,
      online _ (List.getElem_mem start)]
    rfl
  obtain ⟨n, hn⟩ : ∃ n, ncs.length = n + 1 := ⟨ncs.length - 1, by omega⟩
  have found : (List.range ncs.length).find? (fun i =>
      onlineAt ncs ((seq.toNat % ncs.length + i) % ncs.length)) = some 0 := by
    rw [show List.range ncs.length = 0 :: (List.range n).map Nat.succ from by
      rw [hn, List.range_succ_eq_map]]
    exact List.find?_cons_of_pos first
  unfold choice
  dsimp only
  rw [if_neg (by omega), found]
  simp only [Nat.add_zero, Nat.mod_mod]

/-- In a match, too: the loop over the groups collects the member that the number says. -/
theorem visitGroup_of_online (env : MatchEnv) (topicFilter : TopicFilter)
    (map : SubscriptioRelationsCollectorMap) (group : SharedGroup) {ncs : List Member}
    (nonempty : ncs ≠ []) (online : ∀ m ∈ ncs, m.isOnline = some true) :
    ∃ m, ncs[(env.seq topicFilter group).toNat % ncs.length]? = some m ∧
      DefaultRouter.visitGroup env topicFilter map (group, ncs) =
        SubscriptioRelationsCollectorMap.add map m.nodeId
          ⟨topicFilter, m.clientId, m.opts, some ⟨group, true, ncs.map Member.clientId⟩⟩ := by
  have start : (env.seq topicFilter group).toNat % ncs.length < ncs.length :=
    Nat.mod_lt _ (List.length_pos_iff.mpr nonempty)
  refine ⟨_, List.getElem?_eq_getElem start, ?_⟩
  simp only [DefaultRouter.visitGroup, choice_of_online _ nonempty online,
    List.getElem?_eq_getElem start]

variable {G : Type} {members : G → List Member} {seq : UInt64}

/-- The `i`-th selection has the `i`-th number, and the member it says. -/
structure Drawn (members : G → List Member) (seq : UInt64) (run : List (Selection G)) : Prop where
  seq_eq : ∀ i s, run[i]? = some s → s.seq = seq + UInt64.ofNat i
  idx_eq : ∀ s ∈ run, s.idx = s.seq.toNat % (members s.group).length
  online : ∀ s ∈ run, s.isOnline = true
  nonempty : ∀ s ∈ run, members s.group ≠ []

theorem Drawn.nil : Drawn members seq [] :=
  ⟨fun i s h => absurd h (by simp), fun s h => absurd h List.not_mem_nil,
    fun s h => absurd h List.not_mem_nil, fun s h => absurd h List.not_mem_nil⟩

theorem Drawn.append {run later : List (Selection G)} (h : Drawn members seq run)
    (h' : Drawn members (seq + UInt64.ofNat run.length) later) :
    Drawn members seq (run ++ later) := by
  refine ⟨fun i s hs => ?_, fun s hs => ?_, fun s hs => ?_, fun s hs => ?_⟩
  · by_cases lt : i < run.length
    · rw [List.getElem?_append_left lt] at hs
      exact h.seq_eq i s hs
    · rw [List.getElem?_append_right (not_lt.mp lt)] at hs
      rw [h'.seq_eq _ s hs, UInt64.add_assoc, ← UInt64.ofNat_add,
        Nat.add_sub_cancel' (not_lt.mp lt)]
  · exact (List.mem_append.mp hs).elim (h.idx_eq s) (h'.idx_eq s)
  · exact (List.mem_append.mp hs).elim (h.online s) (h'.online s)
  · exact (List.mem_append.mp hs).elim (h.nonempty s) (h'.nonempty s)

/-- One selection. -/
theorem Drawn.singleton {g : G} (nonempty : members g ≠ []) :
    Drawn members seq [⟨g, seq, seq.toNat % (members g).length, true⟩] := by
  refine ⟨fun i s hs => ?_, ?_, ?_, ?_⟩
  · cases i with
    | zero =>
        cases Option.some.inj hs
        exact (UInt64.add_zero seq).symm
    | succ i => cases hs
  all_goals
    rintro s hs
    obtain rfl := List.mem_singleton.mp hs
  · rfl
  · rfl
  · exact nonempty

theorem Drawn.selectGroups (online : AllOnline members) (seq : UInt64) (groups : List G) :
    Drawn members seq (selectGroups members seq groups).1 ∧
      (Router.selectGroups members seq groups).2 =
        seq + UInt64.ofNat (Router.selectGroups members seq groups).1.length := by
  induction groups generalizing seq with
  | nil => exact ⟨Drawn.nil, (UInt64.add_zero seq).symm⟩
  | cons g groups ih =>
      by_cases nonempty : members g = []
      · have same : Router.selectGroups members seq (g :: groups) =
            Router.selectGroups members seq groups := by
          simp [Router.selectGroups, choiceNext, nonempty]
        rw [same]
        exact ih seq
      · have step : Router.selectGroups members seq (g :: groups) =
            (⟨g, seq, seq.toNat % (members g).length, true⟩ ::
              (Router.selectGroups members (seq + 1) groups).1,
              (Router.selectGroups members (seq + 1) groups).2) := by
          have pos : (members g).length ≠ 0 := fun h => nonempty (List.length_eq_zero_iff.mp h)
          simp only [Router.selectGroups, choiceNext, if_neg pos,
            choice_of_online seq nonempty (online g)]
        obtain ⟨drawn, next⟩ := ih (seq + 1)
        rw [step]
        refine ⟨(Drawn.singleton nonempty).append drawn, ?_⟩
        rw [List.length_cons, next, UInt64.add_assoc, Nat.add_comm, UInt64.ofNat_add,
          UInt64.ofNat_one]

/-- A whole list of publishes. -/
theorem Drawn.selectAll (online : AllOnline members) (seq : UInt64) (publishes : List (List G)) :
    Drawn members seq (selectAll members seq publishes).1 := by
  induction publishes generalizing seq with
  | nil => exact Drawn.nil
  | cons groups publishes ih =>
      obtain ⟨drawn, next⟩ := Drawn.selectGroups online seq groups
      refine drawn.append ?_
      rw [← next]
      exact ih _

/-! ## The rotation of one group -/

/-- As many numbers below `n` as there are take each of them once if none of them twice. -/
theorem perm_range_iff {n : Nat} {l : List Nat} (length : l.length = n) (below : ∀ x ∈ l, x < n) :
    l.Perm (List.range n) ↔ l.Nodup := by
  constructor
  · exact fun h => h.nodup_iff.mpr List.nodup_range
  · intro h
    have sub : l.Subperm (List.range n) :=
      h.subperm fun x hx => List.mem_range.mpr (below x hx)
    exact sub.perm_of_length_le (by rw [length, List.length_range])

theorem choosesEach_iff {g : G} {window : List (Selection G)}
    (idx_eq : ∀ s ∈ window, s.idx = s.seq.toNat % (members g).length)
    (nonempty : ∀ s ∈ window, members g ≠ []) (length : window.length = (members g).length) :
    ChoosesEach members g window ↔
      (window.map fun s => s.seq.toNat % (members g).length).Nodup := by
  have same : window.map Selection.idx = window.map fun s => s.seq.toNat % (members g).length :=
    List.map_congr_left idx_eq
  rw [ChoosesEach, same]
  refine perm_range_iff (by rw [List.length_map, length]) fun x hx => ?_
  obtain ⟨s, hs, rfl⟩ := List.mem_map.mp hx
  exact Nat.mod_lt _ (List.length_pos_iff.mpr (nonempty s hs))

/-- Consecutive numbers differ modulo their count. -/
theorem nodup_consecutive (base n : Nat) : ((List.range n).map fun k => (base + k) % n).Nodup := by
  refine List.nodup_range.map_on fun j hj k hk same => ?_
  have congruent : j ≡ k [MOD n] := Nat.ModEq.add_left_cancel' base same
  exact congruent.eq_of_lt_of_lt (List.mem_range.mp hj) (List.mem_range.mp hk)

/-- The numbers of selections with no other one in between. -/
theorem Drawn.seqs_of_uninterrupted {run window : List (Selection G)}
    (drawn : Drawn members seq run)
    (alone : Uninterrupted run window) :
    ∃ base, window.map (fun s => s.seq.toNat) =
      (List.range window.length).map fun k => base + k := by
  obtain ⟨⟨before, after, parts⟩, noWrap⟩ := alone
  have numbers : ∀ k s, window[k]? = some s → s.seq = seq + UInt64.ofNat before.length +
      UInt64.ofNat k := by
    intro k s hk
    have bound := (List.getElem?_eq_some_iff.mp hk).1
    rw [UInt64.add_assoc, ← UInt64.ofNat_add]
    refine drawn.seq_eq _ s ?_
    rw [← parts, List.getElem?_append_left (by rw [List.length_append]; omega),
      List.getElem?_append_right (Nat.le_add_right _ _), Nat.add_sub_cancel_left, hk]
  refine ⟨(seq + UInt64.ofNat before.length).toNat, List.ext_getElem? fun k => ?_⟩
  rw [List.getElem?_map, List.getElem?_map]
  cases hk : window[k]? with
  | none =>
      have past := List.getElem?_eq_none_iff.mp hk
      rw [List.getElem?_eq_none_iff.mpr (by rwa [List.length_range])]
      rfl
  | some s =>
      have bound := (List.getElem?_eq_some_iff.mp hk).1
      obtain ⟨first, hfirst⟩ : ∃ first, window[0]? = some first :=
        ⟨_, List.getElem?_eq_getElem (Nat.zero_lt_of_lt bound)⟩
      have start := numbers 0 first hfirst
      rw [show UInt64.ofNat 0 = 0 from rfl, UInt64.add_zero] at start
      have room := noWrap first (by rw [Option.mem_def, List.head?_eq_getElem?, hfirst])
      rw [List.getElem?_range bound, Option.map_some, Option.map_some, numbers k s hk, ← start]
      congr 1
      rw [UInt64.toNat_add, UInt64.toNat_ofNat', Nat.add_mod_mod]
      exact Nat.mod_eq_of_lt (by omega)

theorem ChoosesEach.of_uninterrupted {run window : List (Selection G)} {g : G}
    (drawn : Drawn members seq run) (own : ∀ s ∈ window, s.group = g)
    (length : window.length = (members g).length) (alone : Uninterrupted run window) :
    ChoosesEach members g window := by
  have inRun : ∀ s ∈ window, s ∈ run := fun s hs => alone.consecutive.subset hs
  rw [choosesEach_iff (fun s hs => own s hs ▸ drawn.idx_eq s (inRun s hs))
    (fun s hs => own s hs ▸ drawn.nonempty s (inRun s hs)) length]
  obtain ⟨base, seqs⟩ := drawn.seqs_of_uninterrupted alone
  have residues : (window.map fun s => s.seq.toNat % (members g).length) =
      (List.range (members g).length).map fun k => (base + k) % (members g).length := by
    have mapped := congrArg (List.map fun x => x % (members g).length) seqs
    rw [List.map_map, List.map_map, length] at mapped
    exact mapped
  rw [residues]
  exact nodup_consecutive base _

/-- The selections of a broker: each draws the next number and takes the member it says, so that as
many selections for a group as it has members take each of them once exactly when their numbers
differ modulo this count.  They do with no other selection in between. -/
theorem rotation_of_publishes {G : Type} [DecidableEq G] {members : G → List Member}
    (online : AllOnline members) (seq : UInt64) (publishes : List (List G)) :
    (∀ i s, (selectAll members seq publishes).1[i]? = some s →
        s.seq = seq + UInt64.ofNat i ∧ s.idx = s.seq.toNat % (members s.group).length ∧
          s.isOnline = true) ∧
      ∀ g before window after,
        ofGroup g (selectAll members seq publishes).1 = before ++ window ++ after →
        window.length = (members g).length →
        (ChoosesEach members g window ↔
            (window.map fun s => s.seq.toNat % (members g).length).Nodup) ∧
          (Uninterrupted (selectAll members seq publishes).1 window →
            ChoosesEach members g window) := by
  have drawn := Drawn.selectAll online seq publishes
  refine ⟨fun i s hs => ?_, fun g before window after parts length => ?_⟩
  · have member := List.mem_of_getElem? hs
    exact ⟨drawn.seq_eq i s hs, drawn.idx_eq s member, drawn.online s member⟩
  · have inside : ∀ s ∈ window, s ∈ ofGroup g (selectAll members seq publishes).1 := by
      intro s hs
      rw [parts]
      exact List.mem_append_left _ (List.mem_append_right _ hs)
    have own : ∀ s ∈ window, s.group = g := fun s hs =>
      of_decide_eq_true (List.mem_filter.mp (inside s hs)).2
    have inRun : ∀ s ∈ window, s ∈ (selectAll members seq publishes).1 := fun s hs =>
      (List.mem_filter.mp (inside s hs)).1
    refine ⟨choosesEach_iff (fun s hs => ?_) (fun s hs => ?_) length,
      ChoosesEach.of_uninterrupted drawn own length⟩
    · rw [drawn.idx_eq s (inRun s hs), own s hs]
    · rw [← own s hs]
      exact drawn.nonempty s (inRun s hs)

/-- A member that is online. -/
def onlineMember (clientId : ClientId) : Member where
  nodeId := 1
  clientId := clientId
  opts := .v3 ⟨.atLeastOnce, some "g", none⟩
  subIds := none
  isOnline := some true

/-- Two groups of two members. -/
def twoGroups : Bool → List Member
  | false => [onlineMember "a", onlineMember "b"]
  | true => [onlineMember "c", onlineMember "d"]

theorem rotation_two_groups :
    AllOnline twoGroups ∧
      ChoosesEach twoGroups true
        [⟨true, 0, 0, true⟩, ⟨true, 1, 1, true⟩] := by
  have online : AllOnline twoGroups := by
    unfold AllOnline
    decide
  have rotation := rotation_of_publishes online 0 [[true], [true, false]]
  exact ⟨online, (rotation.2 true [] [⟨true, 0, 0, true⟩, ⟨true, 1, 1, true⟩] [] (by decide)
    (by decide)).2 ⟨by decide, by decide⟩⟩

/-- Two publishes that match both groups: each group sends both to one member. -/
theorem not_fair_between_groups :
    ¬ ∀ (members : Bool → List Member) (_ : AllOnline members) (publishes : List (List Bool))
        (g : Bool) (before window after : List (Selection Bool)),
        ofGroup g (selectAll members 0 publishes).1 = before ++ window ++ after →
        window.length = (members g).length → ChoosesEach members g window := by
  intro fair
  have online : AllOnline twoGroups := by
    unfold AllOnline
    decide
  have claimed := fair twoGroups online [[false, true], [false, true]] false []
    [⟨false, 0, 0, true⟩, ⟨false, 2, 0, true⟩] [] (by decide) (by decide)
  exact absurd claimed (by decide)

end OxiMqtt.Router

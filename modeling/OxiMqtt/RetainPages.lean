import Mathlib.Data.List.Perm.Basic
import OxiMqtt.RetainLimit
import OxiMqtt.RetainStorage

/-!
# The pages of the retained messages

`get_all_paginated` of `retain.rs` cuts pages out of what the filter `#` finds.  That filter does
not look at the topics whose first level starts with `$`, and where a message is stored for a topic
`p/#` it takes the branch `#` for the filter's own level and looks at no other branch of `p`.

* `matches_multi_perm`: what `#` finds in a tree is what is shown of it.
* `shown_iff`: what is shown, in terms of the stored topics.
* `pages_iff`: the pages of an unchanged store are all messages, each once, exactly where all are
  shown; and whether there is more is reported correctly exactly where the sum of offset and limit
  does not wrap around, or wraps around behind the last message.
-/

namespace OxiMqtt

open Collections
open OxiMqtt.Router (TopicName TopicFilter)

namespace RetainNode

variable {V : Type}

/-! ## What `#` finds -/

/-- The filter `#` comes by a path: at the root not by a system topic, and beside a branch `#` by
nothing. -/
def shown : Bool → RetainNode V → List Level → Bool
  | _, _, [] => true
  | root, n, l :: path =>
      match n.child .multiWildcard with
      | some _ => l = .multiWildcard && path.isEmpty
      | none => !(root && l.isMetadata) && shown false ((n.child l).getD default) path

theorem shown_nil (root : Bool) (n : RetainNode V) : shown root n [] = true := by
  rw [shown]

theorem secluded_eq (subPath : List Level) (l : Level) :
    secluded subPath l = (subPath.isEmpty && l.isMetadata) := by
  cases l <;> simp [secluded, Level.isMetadata]

/-- What is stored at and below a branch. -/
def walkedBranch (b : Level × RetainNode V) : List (List Level × V) :=
  (walked b.2.branches).map (fun e => (b.1 :: e.1, e.2)) ++ b.2.value.toList.map fun v => ([b.1], v)

theorem walked_eq_flatMap (bs : List (Level × RetainNode V)) :
    walked bs = bs.flatMap walkedBranch := by
  induction bs with
  | nil => rw [walked, List.flatMap_nil]
  | cons b bs ih =>
      obtain ⟨l, value, below⟩ := b
      rw [walked_cons, List.flatMap_cons, ih]
      rfl

/-- Beside a branch `#`, the value of that branch is found. -/
theorem filter_shown_of_hash {value : Option V} {bs : List (Level × RetainNode V)}
    (distinct : Distinct (mk value bs)) (root : Bool) {r : RetainNode V}
    (hash : bs.lookup .multiWildcard = some r) :
    ((walked bs).filter fun e => shown root (mk value bs) e.1).Perm
      (r.value.toList.map fun v => ([.multiWildcard], v)) := by
  have child : (mk value bs).child .multiWildcard = some r := hash
  have only : ∀ path, path ≠ [] →
      (shown root (mk value bs) path = true ↔ path = [.multiWildcard]) := by
    intro path nonempty
    cases path with
    | nil => exact absurd rfl nonempty
    | cons l path =>
        rw [shown, child]
        simp
  have nodup := (nodup_walked distinct).of_map
  refine (List.perm_ext_iff_of_nodup (nodup.filter _) ?_).mpr ?_
  · cases r.value <;> simp
  · intro e
    obtain ⟨path, v⟩ := e
    rw [List.mem_filter, mem_walked distinct]
    constructor
    · intro h
      obtain ⟨⟨nonempty, stored⟩, visible⟩ := h
      obtain rfl := (only path nonempty).mp visible
      rw [valueAt_cons, child] at stored
      have stored : r.value = some v := stored
      simp [stored]
    · intro h
      obtain ⟨v', stored, same⟩ := List.mem_map.mp h
      cases same
      refine ⟨⟨List.cons_ne_nil _ _, ?_⟩, (only _ (List.cons_ne_nil _ _)).mpr rfl⟩
      rw [valueAt_cons, child]
      exact Option.mem_toList.mp stored

/-- In another branch, its value and what is found below it. -/
theorem filter_shown_branch {value : Option V} {bs : List (Level × RetainNode V)}
    (keys : Assoc.NodupKeys bs) (root : Bool) (hash : bs.lookup .multiWildcard = none)
    {b : Level × RetainNode V} (member : b ∈ bs) :
    (walkedBranch b).filter (fun e => shown root (mk value bs) e.1) =
      if root && b.1.isMetadata then []
      else (((walked b.2.branches).filter fun e => shown false b.2 e.1).map
          fun e => (b.1 :: e.1, e.2)) ++ b.2.value.toList.map fun v => ([b.1], v) := by
  have child : (mk value bs).child b.1 = some b.2 := (Assoc.lookup_eq_some_iff_mem keys).mpr member
  have none : (mk value bs).child .multiWildcard = none := hash
  have below : ∀ path, shown root (mk value bs) (b.1 :: path) =
      (!(root && b.1.isMetadata) && shown false b.2 path) := by
    intro path
    rw [shown, none, child]
    rfl
  rw [walkedBranch, List.filter_append, List.filter_map, List.filter_map]
  have first : ((fun e : List Level × V => shown root (mk value bs) e.1) ∘
      fun e : List Level × V => (b.1 :: e.1, e.2)) =
      fun e => !(root && b.1.isMetadata) && shown false b.2 e.1 := funext fun e => below e.1
  have second : ((fun e : List Level × V => shown root (mk value bs) e.1) ∘
      fun v : V => ([b.1], v)) = fun _ => !(root && b.1.isMetadata) := by
    funext v
    change shown root (mk value bs) [b.1] = _
    rw [below, shown_nil, Bool.and_true]
  rw [first, second]
  cases root && b.1.isMetadata <;> simp

/-- What `#` finds is what is shown to it. -/
theorem matchesPath_multi_perm {n : RetainNode V} (distinct : Distinct n) (subPath : List Level) :
    (matchesPath n [.multiWildcard] subPath).Perm
      (((walked n.branches).filter fun e => shown subPath.isEmpty n e.1).map
        fun e => (⟨subPath ++ e.1⟩, e.2)) := by
  induction distinct generalizing subPath with
  | @mk value bs keys below ih =>
      have own : ∀ (l : Level) (o : Option V), itemOf (subPath ++ [l]) o =
          (o.toList.map fun v => ([l], v)).map fun e => (⟨subPath ++ e.1⟩, e.2) := by
        intro l o
        cases o <;> rfl
      rw [matchesPath_cons, branches_mk]
      cases hash : bs.lookup .multiWildcard with
      | some r =>
          have distinct : Distinct (mk value bs) := .mk keys below
          have found := filter_shown_of_hash distinct subPath.isEmpty hash
          have items : itemsBelow [] subPath (.multiWildcard, r) =
              itemOf (subPath ++ [.multiWildcard]) r.value := by
            obtain ⟨value, bs⟩ := r
            rw [itemsBelow, parentItem, if_neg (by simp), List.nil_append, matchesPath]
            rfl
          dsimp only
          rw [items, own]
          exact (found.map _).symm
      | none =>
          rw [if_neg (by decide), if_pos rfl, matchMulti_eq, itemsInAll, walked_eq_flatMap,
            List.filter_flatMap, List.map_flatMap]
          refine List.Perm.flatMap_left bs ?_
          intro b member
          rw [filter_shown_branch keys subPath.isEmpty hash member, secluded_eq]
          split
          · exact .refl _
          · have deeper := ih b member (subPath ++ [b.1])
            have inner : (subPath ++ [b.1]).isEmpty = false := by simp
            rw [inner] at deeper
            rw [itemsBelow, parentItem, if_pos (by rfl), own, List.map_append, List.map_map]
            refine List.perm_append_comm.trans (List.Perm.append_right _ ?_)
            simpa only [List.map_map, Function.comp_def, List.append_assoc,
              List.singleton_append] using deeper

/-! ## What is shown -/

/-- A `#` is the last level of every stored topic. -/
def HashLast (n : RetainNode V) : Prop := ∀ path v, valueAt path n = some v → MultiLast path

theorem HashLast.child {n c : RetainNode V} (last : HashLast n) {l : Level}
    (child : n.child l = some c) : HashLast c := by
  intro path v stored
  refine (last (l :: path) v ?_).tail
  rw [valueAt_cons, child]
  exact stored

/-- A branch `#` holds a value. -/
theorem isSome_valueAt_hash {n r : RetainNode V} (tidy : Trie.Tidy n) (last : HashLast n)
    (hash : n.child .multiWildcard = some r) : (valueAt [.multiWildcard] n).isSome = true := by
  obtain ⟨busy, below⟩ := tidy.branch hash
  obtain ⟨path, held⟩ := below.exists_payload busy
  obtain ⟨v, stored⟩ := Option.ne_none_iff_exists'.mp held
  rw [← valueAt_eq_payloadAt] at stored
  have whole : valueAt (.multiWildcard :: path) n = some v := by
    rw [valueAt_cons, hash]
    exact stored
  rw [(last _ _ whole).nil_of_multi] at whole
  rw [whole]
  rfl

/-- Below a node without a `#` branch, the topics that end in `#` are those of the branch taken. -/
theorem uncovered_cons {n c : RetainNode V} {l : Level} (child : n.child l = some c)
    (none : valueAt [.multiWildcard] n = Option.none) (path : List Level) :
    (∀ pre post, l :: path = pre ++ post → post ≠ [] →
        (valueAt (pre ++ [.multiWildcard]) n).isSome = true → post = [.multiWildcard]) ↔
      ∀ pre post, path = pre ++ post → post ≠ [] →
        (valueAt (pre ++ [.multiWildcard]) c).isSome = true → post = [.multiWildcard] := by
  have step : ∀ path, valueAt (l :: path) n = valueAt path c := by
    intro path
    rw [valueAt_cons, child]
    rfl
  constructor
  · intro h pre post parts nonempty held
    refine h (l :: pre) post (by rw [parts, List.cons_append]) nonempty ?_
    rw [List.cons_append, step]
    exact held
  · intro h pre post parts nonempty held
    cases pre with
    | nil =>
        rw [List.nil_append, none] at held
        cases held
    | cons l' pre =>
        obtain ⟨same, tail⟩ := List.cons.inj parts
        rw [← same, List.cons_append, step] at held
        exact h pre post tail nonempty held

/-- In terms of the stored topics: a stored topic is shown if it is not a system topic, and no other
topic that it is below ends in `#`. -/
theorem shown_iff {n : RetainNode V} (tidy : Trie.Tidy n) (last : HashLast n) (root : Bool)
    {path : List Level} {v : V} (stored : valueAt path n = some v) :
    shown root n path = true ↔
      (root = true → ∀ l, path.head? = some l → l.isMetadata = false) ∧
        ∀ pre post, path = pre ++ post → post ≠ [] →
          (valueAt (pre ++ [.multiWildcard]) n).isSome = true → post = [.multiWildcard] := by
  induction path generalizing n root with
  | nil =>
      rw [shown_nil]
      refine iff_of_true rfl ⟨by simp, ?_⟩
      intro pre post parts nonempty
      exact absurd (List.append_eq_nil_iff.mp parts.symm).2 nonempty
  | cons l path ih =>
      obtain ⟨c, child, below⟩ := Option.bind_eq_some_iff.mp stored
      rw [shown]
      cases hash : n.child .multiWildcard with
      | some r =>
          have held := isSome_valueAt_hash tidy last hash
          simp only [Bool.and_eq_true, decide_eq_true_eq, List.isEmpty_iff]
          constructor
          · intro h
            obtain ⟨rfl, rfl⟩ := h
            refine ⟨?_, ?_⟩
            · intro _ l head
              obtain rfl := Option.some.inj head
              rfl
            · intro pre post parts nonempty _
              cases pre with
              | nil => exact parts.symm
              | cons l pre =>
                  have rest := (List.cons.inj parts).2
                  exact absurd (List.append_eq_nil_iff.mp rest.symm).2 nonempty
          · intro h
            have whole := h.2 [] (l :: path) rfl (List.cons_ne_nil l path) held
            exact List.cons.inj whole
      | none =>
          have none : valueAt [.multiWildcard] n = Option.none := by
            rw [valueAt_cons, hash]
            rfl
          have rest := ih (tidy.branch child).2 (last.child child) false below
          have plain : (root = true → ∀ l', (l :: path).head? = some l' → l'.isMetadata = false) ↔
              (root = false ∨ l.isMetadata = false) := by
            cases root <;> simp
          rw [uncovered_cons child none, plain]
          simp only [child, Option.getD_some, Bool.and_eq_true, rest, Bool.not_eq_true',
            Bool.and_eq_false_iff, Bool.false_eq_true, false_implies, true_and]

/-! ## What a purge leaves -/

theorem examineMut_own {S : Type} (f : S → V → Bool × S) (own : Option V)
    (below : List (Level × RetainNode V)) (removeds : Nat) (s : S) :
    ∃ own', (examineMut f (mk own below) removeds s).1 = mk own' below ∧
      own'.toList.Sublist own.toList := by
  unfold examineMut
  cases own with
  | none => exact ⟨none, rfl, .refl _⟩
  | some v =>
      dsimp only [value_mk]
      split
      · exact ⟨some v, rfl, .refl _⟩
      · exact ⟨none, rfl, List.nil_sublist _⟩

theorem walked_retainBranchesMut {S : Type} (f : S → V → Bool × S) (maxLimit : Nat)
    (bs : List (Level × RetainNode V)) (removeds : Nat) (s : S) :
    (walked (retainBranchesMut f maxLimit bs removeds s).1).Sublist (walked bs) := by
  induction bs using branches_induction generalizing removeds s with
  | nil => exact .refl _
  | cons l own below bs ihBelow ih =>
      have lower : (walked (retainBelowMut f maxLimit below removeds s).1).Sublist
          (walked below) := by
        unfold retainBelowMut
        split
        · exact .refl _
        · exact ihBelow removeds s
      obtain ⟨own', examined, fewer⟩ := examineMut_own f own
        (retainBelowMut f maxLimit below removeds s).1
        (retainBelowMut f maxLimit below removeds s).2.1
        (retainBelowMut f maxLimit below removeds s).2.2
      rw [retainBranchesMut_cons, walked_cons l own below bs]
      dsimp only
      rw [examined]
      split
      · exact (ih _ _).trans (List.sublist_append_right _ _)
      · rw [walked_cons]
        exact ((lower.map _).append (fewer.map _)).append (ih _ _)

/-- A purge stores nothing. -/
theorem valueAt_of_retainMut {S : Type} {n : RetainNode V} (distinct : Distinct n) {maxLimit : Nat}
    {f : S → V → Bool × S} {s : S} {path : List Level} {v : V}
    (left : valueAt path (n.retainMut maxLimit f s).1 = some v) : valueAt path n = some v := by
  have purged := distinct_retainMut distinct maxLimit f s
  obtain ⟨value, bs⟩ := n
  rw [retainMut, retainNodeMut_mk] at left purged
  cases path with
  | nil => exact left
  | cons l path =>
      have member := (mem_walked purged).mpr ⟨List.cons_ne_nil l path, left⟩
      refine ((mem_walked distinct).mp ?_).2
      unfold retainBelowMut at member
      split at member
      · exact member
      · exact (walked_retainBranchesMut f maxLimit bs 0 s).subset member

/-- A purge that leaves the number of values leaves the values. -/
theorem valueAt_retainMut_of_size {S : Type} {n : RetainNode V} (distinct : Distinct n)
    {maxLimit : Nat} {f : S → V → Bool × S} {s : S}
    (size : n.valuesSize ≤ (n.retainMut maxLimit f s).1.valuesSize) {path : List Level} {v : V}
    (stored : valueAt path n = some v) :
    valueAt path (n.retainMut maxLimit f s).1 = some v := by
  have purged := distinct_retainMut distinct maxLimit f s
  obtain ⟨value, bs⟩ := n
  rw [retainMut, retainNodeMut_mk] at size purged ⊢
  cases path with
  | nil => exact stored
  | cons l path =>
      have fewer : (walked (retainBelowMut f maxLimit bs 0 s).1).Sublist (walked bs) := by
        unfold retainBelowMut
        split
        · exact .refl _
        · exact walked_retainBranchesMut f maxLimit bs 0 s
      have length : (walked bs).length ≤ (walked (retainBelowMut f maxLimit bs 0 s).1).length := by
        rw [length_walked, length_walked]
        simp only [valuesSize] at size
        split at size <;> omega
      refine ((mem_walked purged).mp ?_).2
      rw [fewer.eq_of_length_le length]
      exact (mem_walked distinct).mpr ⟨List.cons_ne_nil l path, stored⟩

end RetainNode

namespace RetainStorage

namespace DefaultRetainStorage

variable {F : Type}

/-! ## Pages -/

/-- The closure of `get_all_paginated`. -/
def pageItem (env : Env) (readings : Nat) (r : Topic × TimedValue (Retain F)) :
    Option (TopicName × Retain F × Option Nat) × Nat :=
  if r.2.isExpired (env.clock readings) then (none, readings + 1)
  else
    (some (r.1.toString, r.2.value, r.2.remaining (env.clock (readings + 1))), readings + 2)

/-- `DefaultRetainStorage::get_all_paginated`, with the readings taken.  In the release profile the
addition wraps around. -/
def getAllPaginated (env : Env) (self : DefaultRetainStorage F) (readings offset limit : Nat) :
    Except TopicError (List (TopicName × Retain F × Option Nat) × Bool) × Nat :=
  match Topic.fromStr "#" with
  | .error e => (.error e, readings)
  | .ok topic =>
      let all := filterMapReading (pageItem env) readings (self.messages.matches topic)
      let total := all.1.length
      let hasMore := decide ((offset + limit) % (env.usizeMax + 1) < total)
      (.ok ((all.1.drop offset).take limit, hasMore), all.2)

/-- The pages from `offset` on until there are no more, one after the other; `none` where there are
more pages than the fuel allows. -/
def pages (env : Env) (self : DefaultRetainStorage F) (limit : Nat) :
    Nat → Nat → Nat → Option (List (TopicName × Retain F × Option Nat) × Nat)
  | 0, _, _ => none
  | fuel + 1, readings, offset =>
      match self.getAllPaginated env readings offset limit with
      | (.error _, _) => none
      | (.ok (items, false), readings) => some (items, readings)
      | (.ok (items, true), readings) =>
          (pages env self limit fuel readings (offset + limit)).map fun rest =>
            (items ++ rest.1, rest.2)

/-! ## What is stored -/

/-- The stored messages under their topic names. -/
def stored (self : DefaultRetainStorage F) : List (TopicName × Retain F) :=
  (RetainNode.walked self.messages.branches).map fun e => ((⟨e.1⟩ : Topic).toString, e.2.value)

/-- The messages in the order that they are cut into pages in. -/
def listed (self : DefaultRetainStorage F) : List (TopicName × Retain F) :=
  (self.messages.matches ⟨[.multiWildcard]⟩).map fun r => (r.1.toString, r.2.value)

/-- No message expires while the clock is read from `readings` up to `readings'`. -/
def NoneExpired (env : Env) (self : DefaultRetainStorage F) (readings readings' : Nat) : Prop :=
  ∀ path tv, self.messages.valueAt path = some tv → ∀ i, readings ≤ i → i < readings' →
    tv.isExpired (env.clock i) = false

/-- A value is stored for the levels. -/
def HoldsAt (self : DefaultRetainStorage F) (path : List Level) : Prop :=
  (self.messages.valueAt path).isSome = true

/-- No stored topic is a system topic, and no stored topic `p/#` has another one below `p`. -/
structure AllShown (storage : DefaultRetainStorage F) : Prop where
  plain : ∀ l path, storage.HoldsAt (l :: path) → l.isMetadata = false
  apart : ∀ pre post, storage.HoldsAt (pre ++ [.multiWildcard]) → storage.HoldsAt (pre ++ post) →
    post ≠ [] → post = [.multiWildcard]

/-- The tree is tidy, and a topic name was read for every path in it. -/
structure Named (storage : DefaultRetainStorage F) : Prop where
  counted : storage.Counted
  named : ∀ path, storage.HoldsAt path → ∃ topic, Topic.fromStr topic = .ok ⟨path⟩

theorem Named.hashLast {self : DefaultRetainStorage F} (named : self.Named) :
    RetainNode.HashLast self.messages := by
  intro path v stored
  obtain ⟨topic, parsed⟩ := named.named path (Option.isSome_iff_exists.mpr ⟨v, stored⟩)
  exact (Topic.valid_of_fromStr parsed).multi_last

theorem Named.nonempty {self : DefaultRetainStorage F} (named : self.Named) {path : List Level}
    (holds : self.HoldsAt path) : path ≠ [] := by
  obtain ⟨topic, parsed⟩ := named.named path holds
  exact (Topic.valid_of_fromStr parsed).nonempty

theorem named_new : Named ({} : DefaultRetainStorage F) := by
  refine ⟨counted_new, ?_⟩
  intro path holds
  have absent : RetainNode.valueAt path (RetainNode.default : RetainTree (TimedValue (Retain F))) =
      none := RetainNode.valueAt_default path
  rw [HoldsAt, absent] at holds
  cases holds

end DefaultRetainStorage

open DefaultRetainStorage

theorem named_step {F : Type} {env : Env} {s s' : State F} {call : Call F} (named : s.storage.Named)
    (h : step env s call = some s') : s'.storage.Named := by
  cases call with
  | setWithTimeout topic retain timeout =>
      obtain ⟨⟨storage, readings, res⟩, done, rfl⟩ := Option.map_eq_some_iff.mp h
      refine ⟨(named.counted.setWithTimeout done).1, ?_⟩
      intro path holds
      rcases setWithTimeout_cases done with ⟨e, -, rfl, -⟩ | ⟨t, parsed, -, ⟨-, tv, -, tree, -⟩ |
        ⟨-, tree, -⟩⟩
      · exact named.named path holds
      · rw [HoldsAt, tree, RetainNode.insert, RetainNode.valueAt_insertPath] at holds
        split at holds
        · rename_i same
          exact ⟨topic, same ▸ parsed⟩
        · rw [RetainNode.remove, RetainNode.valueAt_removePath] at holds
          split at holds
          · cases holds
          · exact named.named path holds
      · rw [HoldsAt, tree, RetainNode.remove, RetainNode.valueAt_removePath] at holds
        split at holds
        · cases holds
        · exact named.named path holds
  | removeExpiredMessages =>
      cases h
      refine ⟨named.counted.removeExpiredMessages, ?_⟩
      intro path holds
      obtain ⟨tv, left⟩ := Option.isSome_iff_exists.mp holds
      have distinct := RetainNode.distinct_of_tidy named.counted.tidy
      have before := RetainNode.valueAt_of_retainMut distinct left
      exact named.named path (Option.isSome_iff_exists.mpr ⟨tv, before⟩)

section Listing

variable {F : Type} {env : Env} {storage : DefaultRetainStorage F}

/-! ## What is listed -/

theorem listed_perm (named : storage.Named) :
    storage.listed.Perm (((RetainNode.walked storage.messages.branches).filter fun e =>
      RetainNode.shown true storage.messages e.1).map
        fun e => ((⟨e.1⟩ : Topic).toString, e.2.value)) := by
  have distinct := RetainNode.distinct_of_tidy named.counted.tidy
  have found := (RetainNode.matchesPath_multi_perm distinct []).map
    fun r : Topic × TimedValue (Retain F) => (r.1.toString, r.2.value)
  rw [List.map_map] at found
  exact found

theorem allShown_iff (named : storage.Named) :
    (∀ e ∈ RetainNode.walked storage.messages.branches,
      RetainNode.shown true storage.messages e.1 = true) ↔ storage.AllShown := by
  have distinct := RetainNode.distinct_of_tidy named.counted.tidy
  have tidy := named.counted.tidy
  constructor
  · intro all
    have each : ∀ path, storage.HoldsAt path → ∃ tv,
        storage.messages.valueAt path = some tv ∧
          RetainNode.shown true storage.messages path = true := by
      intro path holds
      obtain ⟨tv, held⟩ := Option.isSome_iff_exists.mp holds
      have member := (RetainNode.mem_walked_branches distinct).mpr ⟨named.nonempty holds, held⟩
      exact ⟨tv, held, all _ member⟩
    refine ⟨?_, ?_⟩
    · intro l path holds
      obtain ⟨tv, held, visible⟩ := each _ holds
      exact ((RetainNode.shown_iff tidy named.hashLast true held).mp visible).1 rfl l rfl
    · intro pre post hash holds nonempty
      obtain ⟨tv, held, visible⟩ := each _ holds
      have rule := ((RetainNode.shown_iff tidy named.hashLast true held).mp visible).2
      exact rule pre post rfl nonempty hash
  · intro shown e member
    obtain ⟨path, tv⟩ := e
    have held := ((RetainNode.mem_walked_branches distinct).mp member).2
    have holds : storage.HoldsAt path := Option.isSome_iff_exists.mpr ⟨tv, held⟩
    refine (RetainNode.shown_iff tidy named.hashLast true held).mpr ⟨?_, ?_⟩
    · intro _ l head
      obtain ⟨rest, rfl⟩ := List.head?_eq_some_iff.mp head
      exact shown.plain l rest holds
    · intro pre post parts nonempty hash
      exact shown.apart pre post hash (parts ▸ holds) nonempty

/-- All is listed exactly where all is shown. -/
theorem listed_perm_stored_iff (named : storage.Named) :
    storage.listed.Perm storage.stored ↔ storage.AllShown := by
  have listed := listed_perm named
  rw [← allShown_iff named]
  constructor
  · intro all
    have lengths := (listed.symm.trans all).length_eq
    rw [stored, List.length_map, List.length_map] at lengths
    exact List.length_filter_eq_length_iff.mp lengths
  · intro shown
    rw [List.filter_eq_self.mpr shown] at listed
    exact listed

theorem length_listed_le (named : storage.Named) :
    storage.listed.length ≤ storage.messages.valuesSize := by
  have size : (RetainNode.walked storage.messages.branches).length ≤
      storage.messages.valuesSize := by
    obtain ⟨value, bs⟩ := storage.messages
    rw [RetainNode.branches_mk, RetainNode.length_walked, RetainNode.valuesSize_mk]
    exact Nat.le_add_right _ _
  rw [(listed_perm named).length_eq, List.length_map]
  exact (List.length_filter_le _ _).trans size

/-! ## Reading the clock -/

theorem le_filterMapReading (env : Env) (rs : List (Topic × TimedValue (Retain F)))
    (readings : Nat) : readings ≤ (filterMapReading (pageItem env) readings rs).2 := by
  induction rs generalizing readings with
  | nil => exact le_rfl
  | cons r rs ih =>
      have first : readings ≤ (pageItem env readings r).2 := by
        unfold pageItem
        split
        · exact Nat.le_succ readings
        · exact Nat.le_add_right readings 2
      exact first.trans (ih _)

theorem length_filterMapReading_le (env : Env) (rs : List (Topic × TimedValue (Retain F)))
    (readings : Nat) : (filterMapReading (pageItem env) readings rs).1.length ≤ rs.length := by
  induction rs generalizing readings with
  | nil => exact le_rfl
  | cons r rs ih =>
      have rest := ih (pageItem env readings r).2
      rw [filterMapReading, List.length_append, List.length_cons]
      have one : (pageItem env readings r).1.toList.length ≤ 1 := by
        cases (pageItem env readings r).1 <;> simp
      omega

/-- Where nothing expires, everything is kept. -/
theorem map_filterMapReading {rs : List (Topic × TimedValue (Retain F))} {readings : Nat}
    (lasting : ∀ r ∈ rs, ∀ i, readings ≤ i → i < (filterMapReading (pageItem env) readings rs).2 →
      r.2.isExpired (env.clock i) = false) :
    ((filterMapReading (pageItem env) readings rs).1.map fun item => (item.1, item.2.1)) =
      rs.map fun r => (r.1.toString, r.2.value) := by
  induction rs generalizing readings with
  | nil => rfl
  | cons r rs ih =>
      have later := le_filterMapReading env rs (pageItem env readings r).2
      have next : readings < (pageItem env readings r).2 := by
        unfold pageItem
        split
        · exact Nat.lt_succ_self readings
        · exact Nat.lt_add_of_pos_right (Nat.succ_pos 1)
      have fresh := lasting r List.mem_cons_self readings le_rfl (next.trans_le later)
      have rest := ih fun r' member i after before =>
        lasting r' (List.mem_cons_of_mem r member) i (next.le.trans after) before
      rw [filterMapReading, List.map_append, rest, List.map_cons, pageItem, fresh]
      rfl

/-! ## The walk over the pages -/

theorem getAllPaginated_eq (env : Env) (storage : DefaultRetainStorage F)
    (readings offset limit : Nat) :
    storage.getAllPaginated env readings offset limit =
      let all := filterMapReading (pageItem env) readings
        (storage.messages.matches ⟨[.multiWildcard]⟩)
      (.ok ((all.1.drop offset).take limit,
        decide ((offset + limit) % (env.usizeMax + 1) < all.1.length)), all.2) := by
  have parsed : Topic.fromStr "#" = .ok ⟨[.multiWildcard]⟩ := by decide
  rw [getAllPaginated, parsed]

theorem isExpired_of_mem_matches (named : storage.Named) {readings readings' : Nat}
    (lasting : storage.NoneExpired env readings readings') {r : Topic × TimedValue (Retain F)}
    (member : r ∈ storage.messages.matches ⟨[.multiWildcard]⟩) {i : Nat} (after : readings ≤ i)
    (before : i < readings') : r.2.isExpired (env.clock i) = false := by
  have distinct := RetainNode.distinct_of_tidy named.counted.tidy
  have found := (RetainNode.matchesPath_multi_perm distinct []).mem_iff.mp member
  obtain ⟨⟨path, tv⟩, kept, rfl⟩ := List.mem_map.mp found
  have held := (RetainNode.mem_walked_branches distinct).mp (List.mem_of_mem_filter kept)
  exact lasting path tv held.2 i after before

/-- Where nothing expires, a page is a part of the list. -/
theorem map_items (named : storage.Named) {env : Env} {readings : Nat}
    (lasting : storage.NoneExpired env readings (filterMapReading (pageItem env) readings
      (storage.messages.matches ⟨[.multiWildcard]⟩)).2) :
    ((filterMapReading (pageItem env) readings
      (storage.messages.matches ⟨[.multiWildcard]⟩)).1.map fun item => (item.1, item.2.1)) =
        storage.listed :=
  map_filterMapReading fun _ member _ after before =>
    isExpired_of_mem_matches named lasting member after before

/-- Enough fuel for the rest of the messages is enough, and where nothing expires the pages are the
rest of the list. -/
theorem pages_eq_some (env : Env) (named : storage.Named) {limit : Nat} (positive : 0 < limit)
    (small : limit ≤ env.usizeMax) (fits : 2 * storage.messages.valuesSize ≤ env.usizeMax)
    (fuel readings offset : Nat) (enough : storage.listed.length < offset + fuel)
    (reached : offset = 0 ∨ limit ≤ offset ∧ offset < storage.listed.length) :
    ∃ items readings', storage.pages env limit fuel readings offset = some (items, readings') ∧
      readings ≤ readings' ∧ (storage.NoneExpired env readings readings' →
        (items.map fun item => (item.1, item.2.1)) = storage.listed.drop offset) := by
  have within := length_listed_le named
  induction fuel generalizing readings offset with
  | zero => omega
  | succ fuel ih =>
      have page := getAllPaginated_eq env storage readings offset limit
      have later := le_filterMapReading env
        (storage.messages.matches ⟨[.multiWildcard]⟩) readings
      have fewer := length_filterMapReading_le env
        (storage.messages.matches ⟨[.multiWildcard]⟩) readings
      have listing := @map_items F storage named env readings
      have total : (storage.messages.matches ⟨[.multiWildcard]⟩).length =
          storage.listed.length := (List.length_map _).symm
      rw [total] at fewer
      dsimp only at page
      generalize filterMapReading (pageItem env) readings
        (storage.messages.matches ⟨[.multiWildcard]⟩) = all at page later fewer listing
      have sum : (offset + limit) % (env.usizeMax + 1) = offset + limit :=
        Nat.mod_eq_of_lt (by omega)
      rw [sum] at page
      rw [pages, page]
      by_cases more : offset + limit < all.1.length
      · obtain ⟨rest, readings', continued, after, items⟩ :=
          ih all.2 (offset + limit) (by omega) (.inr ⟨by omega, by omega⟩)
        refine ⟨(all.1.drop offset).take limit ++ rest, readings', ?_, later.trans after, ?_⟩
        · rw [decide_eq_true more]
          dsimp only
          rw [continued]
          rfl
        · intro lasting
          have now := listing fun path tv held i from_ before =>
            lasting path tv held i from_ (before.trans_le after)
          have then_ := items fun path tv held i from_ before =>
            lasting path tv held i (later.trans from_) before
          rw [List.map_append, List.map_take, List.map_drop, now, then_, ← List.drop_drop,
            List.take_append_drop]
      · refine ⟨(all.1.drop offset).take limit, all.2, ?_, later, ?_⟩
        · rw [decide_eq_false more]
        · intro lasting
          have now := listing lasting
          have lengths := congrArg List.length now
          rw [List.length_map] at lengths
          rw [List.map_take, List.map_drop, now, List.take_of_length_le]
          rw [List.length_drop]
          omega

/-! ## The promise -/

/-- After any calls, the pages of the unchanged store, taken while nothing expires, are all stored
messages exactly where all are shown; a page is a part of the list, and whether there is more behind
it is reported correctly exactly where the sum of offset and limit does not wrap around, or wraps
around behind the last message.  The messages are in memory: a vector has at most half as many
entries as there are addresses. -/
theorem pages_iff {calls : List (Call F)} {s : State F}
    (ran : Machine.run (step env) {} calls = some s)
    (fits : 2 * s.storage.messages.valuesSize ≤ env.usizeMax) (readings : Nat) :
    (∀ limit, 0 < limit → limit ≤ env.usizeMax →
      ∃ items readings', s.storage.pages env limit (s.storage.messages.valuesSize + 1) readings 0 =
          some (items, readings') ∧
        (s.storage.NoneExpired env readings readings' →
          ((items.map fun item => (item.1, item.2.1)).Perm s.storage.stored ↔
            s.storage.AllShown))) ∧
      ∀ offset limit, offset ≤ env.usizeMax → limit ≤ env.usizeMax →
        ∃ items hasMore readings', s.storage.getAllPaginated env readings offset limit =
            (.ok (items, hasMore), readings') ∧
          (s.storage.NoneExpired env readings readings' →
            (items.map fun item => (item.1, item.2.1)) =
                (s.storage.listed.drop offset).take limit ∧
              ((hasMore = true ↔ s.storage.listed.drop (offset + limit) ≠ []) ↔
                offset + limit ≤ env.usizeMax ∨
                  s.storage.listed.length ≤ offset + limit - (env.usizeMax + 1))) := by
  have named : s.storage.Named :=
    Machine.invariant_run (fun _ _ _ named h => named_step named h) ran named_new
  have within := length_listed_le named
  refine ⟨?_, ?_⟩
  · intro limit positive small
    obtain ⟨items, readings', walked, -, all⟩ := pages_eq_some env named positive small fits
      (s.storage.messages.valuesSize + 1) readings 0 (by omega) (.inl rfl)
    refine ⟨items, readings', walked, ?_⟩
    intro lasting
    rw [all lasting, List.drop_zero]
    exact listed_perm_stored_iff named
  · intro offset limit offsetFits limitFits
    refine ⟨_, _, _, getAllPaginated_eq env s.storage readings offset limit, ?_⟩
    intro lasting
    have all := map_items named lasting
    have lengths := congrArg List.length all
    rw [List.length_map] at lengths
    refine ⟨by rw [List.map_take, List.map_drop, all], ?_⟩
    rw [decide_eq_true_iff, lengths, ne_eq, List.drop_eq_nil_iff, Nat.not_le]
    rcases Nat.lt_or_ge env.usizeMax (offset + limit) with wraps | plain
    · have sum : (offset + limit) % (env.usizeMax + 1) = offset + limit - (env.usizeMax + 1) := by
        rw [Nat.mod_eq_sub_mod wraps, Nat.mod_eq_of_lt (by omega)]
      rw [sum]
      omega
    · rw [Nat.mod_eq_of_lt (by omega)]
      omega

end Listing

/-- Two messages of ordinary topics, on pages of one. -/
theorem pages_iff_ordinary :
    ∃ s : State Unit, Machine.run (step ⟨id, 100, 2 ^ 64 - 1⟩) {}
        [.setWithTimeout "a" (message [1]) none, .setWithTimeout "b/c" (message [2]) (some 50)] =
          some s ∧
      ∃ items readings', s.storage.pages ⟨id, 100, 2 ^ 64 - 1⟩ 1
          (s.storage.messages.valuesSize + 1) 2 0 = some (items, readings') ∧
        (s.storage.NoneExpired ⟨id, 100, 2 ^ 64 - 1⟩ 2 readings' →
          ((items.map fun item => (item.1, item.2.1)).Perm s.storage.stored ↔
            s.storage.AllShown)) := by
  have ran : Machine.run (step ⟨id, 100, 2 ^ 64 - 1⟩) ({} : State Unit)
      [.setWithTimeout "a" (message [1]) none, .setWithTimeout "b/c" (message [2]) (some 50)] =
        some _ := rfl
  exact ⟨_, ran, (pages_iff ran (by decide) 2).1 1 (by decide) (by decide)⟩

/-- The page that holds ten messages misses the system topic, and behind the last address it is
reported that there is more. -/
theorem pages_hide_system_topic :
    (∃ s : State Unit, Machine.run (step ⟨id, 100, 2 ^ 64 - 1⟩) {}
        [.setWithTimeout "$SYS/x" (message [1]) none] = some s ∧
      s.storage.getAllPaginated ⟨id, 100, 2 ^ 64 - 1⟩ 0 0 10 = (.ok ([], false), 0) ∧
      s.storage.stored = [("$SYS/x", message [1])]) ∧
      ∃ s : State Unit, Machine.run (step ⟨id, 100, 2 ^ 64 - 1⟩) {}
          [.setWithTimeout "a" (message [1]) none] = some s ∧
        s.storage.getAllPaginated ⟨id, 100, 2 ^ 64 - 1⟩ 0 (2 ^ 64 - 1) 1 = (.ok ([], true), 2) :=
  ⟨⟨_, rfl, rfl, rfl⟩, _, rfl, rfl⟩

end RetainStorage

end OxiMqtt

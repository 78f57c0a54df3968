import OxiMqtt.TrieMatch

/-!
# Matching a topic filter directly

`Topic::matches_str` of `topic.rs` walks the levels of a filter along the text between the `/` of a
topic name, `Topic::matches` along the levels of a parsed topic.  The macro that both expand to is
`matchesLoop`.  The two differ in how one level is compared: against a level, a blank level of the
filter matches everything, and a normal level with an empty text does not match the blank level;
against a text, it is the other way round.

* `Reads`: what a comparison of levels decides, up to the pairs on which the two differ.
* `Reads.matchesLoop_parsed`: what the loop decides with such a comparison.
* `matchesStr_agrees_iff`: `matches_str` agrees with the MQTT rules, and with a subscription tree
  that holds the filter alone, except for `+` and `+/#` on a system topic.
* `matches_agrees_iff`: the matchers agree unless the filter would match but for the levels that
  they compare differently.
-/

namespace OxiMqtt

/-- `MatchLevel`: whether a level of the topic is matched by a level of the filter. -/
class MatchLevel (α : Type) where
  matchLevel : α → Level → Bool

open MatchLevel

/-- `MatchLevel for T: AsRef<str>` -/
instance : MatchLevel String where
  matchLevel s
    | .normal lhs => !Level.startsWithDollar s && lhs == s
    | .metadata lhs => Level.startsWithDollar s && lhs == s
    | .blank => s.isEmpty
    | .singleWildcard => !Level.startsWithDollar s
    | .multiWildcard => !Level.startsWithDollar s

/-- `MatchLevel for Level` -/
instance : MatchLevel Level where
  matchLevel rhs
    | .normal lhs =>
        match rhs with
        | .normal rhs => lhs == rhs
        | _ => false
    | .metadata lhs =>
        match rhs with
        | .metadata rhs => lhs == rhs
        | _ => false
    | .blank => true
    | .singleWildcard => !rhs.isMetadata
    | .multiWildcard => !rhs.isMetadata

/-- What the levels of the filter that are left over decide. -/
def afterLoop : List Level → Bool
  | .multiWildcard :: _ => true
  | _ :: _ => false
  | [] => true

/-- The macro `matches!`. -/
def matchesLoop {α : Type} [MatchLevel α] : List Level → List α → Bool
  | lhs, [] => afterLoop lhs
  | .singleWildcard :: lhs, rhs :: levels =>
      -- a level that `+` does not match leaves the loop, not the function
      if !matchLevel rhs .singleWildcard then afterLoop lhs else matchesLoop lhs levels
  | .multiWildcard :: _, rhs :: _ => matchLevel rhs .multiWildcard
  | level :: lhs, rhs :: levels => if matchLevel rhs level then matchesLoop lhs levels else false
  | [], _ :: _ => false

/-- `Topic::matches_str` -/
def Topic.matchesStr (f : Topic) (topic : String) : Bool := matchesLoop f.levels (split topic)

/-- `Topic::matches` -/
def Topic.matches (f topic : Topic) : Bool := matchesLoop f.levels topic.levels

/-! ## Levels and their texts -/

theorem split_of_fromStr {s : String} {t : Topic} (h : Topic.fromStr s = .ok t) :
    Topic.split s = t.levels.map Level.toString :=
  (Topic.mapM_ok_toString (Topic.levels_of_fromStr h).1).symm

open Topic (Printed)

/-- A level of a topic name, as the parser makes it. -/
structure NameLevel (l : Level) : Prop where
  printed : Printed l
  valid : l.isValid = true
  literal : l.isWildcard = false

theorem nameLevel_of_fromStr {s : String} {t : Topic} (parsed : Topic.fromStr s = .ok t)
    (free : t.WildcardFree) : ∀ l ∈ t.levels, NameLevel l := fun l hl =>
  ⟨Topic.printed_of_fromStr parsed l hl, (Topic.valid_of_fromStr parsed).levels_valid l hl,
    free l hl⟩

/-- Only the blank level has an empty text. -/
theorem NameLevel.written {l : Level} (name : NameLevel l) : l.toString = "" → l = .blank := by
  intro empty
  have parsed := name.printed.parses
  rw [empty] at parsed
  cases parsed
  rfl

/-! ## The levels that are compared differently -/

/-- A blank level of the filter against a level that is not blank. -/
def BlankAgainst (level l : Level) : Prop := level = .blank ∧ l ≠ .blank

/-- A normal level of the filter without text against a blank level. -/
def EmptyAgainst (level l : Level) : Prop := level = .normal "" ∧ l = .blank

instance (level l : Level) : Decidable (BlankAgainst level l) :=
  inferInstanceAs (Decidable (level = .blank ∧ l ≠ .blank))

instance (level l : Level) : Decidable (EmptyAgainst level l) :=
  inferInstanceAs (Decidable (level = .normal "" ∧ l = .blank))

/-- Some level of the filter stands against a level of the topic in this way. -/
def Faces (E : Level → Level → Prop) (f t : List Level) : Prop := ∃ pair ∈ f.zip t, E pair.1 pair.2

instance (E : Level → Level → Prop) [∀ level l, Decidable (E level l)] (f t : List Level) :
    Decidable (Faces E f t) :=
  inferInstanceAs (Decidable (∃ pair ∈ f.zip t, E pair.1 pair.2))

/-- The level of the filter, or the level of the topic where they are compared differently. -/
def fillLevel (level l : Level) : Level :=
  if BlankAgainst level l ∨ EmptyAgainst level l then l else level

/-- The filter with these levels taken from the topic. -/
def fill : List Level → List Level → List Level
  | level :: f, l :: t => fillLevel level l :: fill f t
  | f, [] => f
  | [], _ :: _ => []

@[simp]
theorem fill_nil (f : List Level) : fill f [] = f := by
  cases f <;> rfl

theorem faces_cons {E : Level → Level → Prop} {f t : List Level} {level l : Level} :
    Faces E (level :: f) (l :: t) ↔ E level l ∨ Faces E f t := by
  simp [Faces]

theorem not_faces_nil {E : Level → Level → Prop} {f : List Level} : ¬Faces E f [] := by
  simp [Faces]

theorem fillLevel_of_isWildcard {level l : Level} (wild : level.isWildcard = true) :
    fillLevel level l = level := by
  cases level with
  | singleWildcard => simp [fillLevel, BlankAgainst, EmptyAgainst]
  | multiWildcard => simp [fillLevel, BlankAgainst, EmptyAgainst]
  | _ => cases wild

theorem fillLevel_literal {level l : Level} (literal : level.isWildcard = false)
    (name : l.isWildcard = false) : (fillLevel level l).isWildcard = false := by
  unfold fillLevel
  split
  · exact name
  · exact literal

theorem fill_of_not_faces {f t : List Level} (blank : ¬Faces BlankAgainst f t)
    (empty : ¬Faces EmptyAgainst f t) : fill f t = f := by
  induction f generalizing t with
  | nil => cases t <;> rfl
  | cons level f ih =>
      cases t with
      | nil => rfl
      | cons l t =>
          rw [faces_cons, not_or] at blank empty
          rw [fill, ih blank.2 empty.2, fillLevel, if_neg]
          simp [blank.1, empty.1]

/-- A blank level of a filter that matches stands against a blank level. -/
theorem Matches.not_faces_blank {f t : List Level} (h : Matches f t) :
    ¬Faces BlankAgainst f t := by
  induction h with
  | nil => exact not_faces_nil
  | @multi t => cases t <;> simp [Faces, BlankAgainst]
  | single _ ih => simpa [faces_cons, BlankAgainst] using ih
  | literal _ _ ih =>
      rw [faces_cons]
      rintro (differ | rest)
      · exact differ.2 differ.1
      · exact ih rest

/-- No level of a parsed filter is a normal level without text. -/
theorem not_faces_empty {f t : List Level} (filter : ∀ l ∈ f, Printed l) :
    ¬Faces EmptyAgainst f t := by
  intro faces
  obtain ⟨⟨level, l⟩, mem, differ⟩ := faces
  obtain rfl : level = .normal "" := differ.1
  cases (filter _ (List.of_mem_zip mem).1).parses

/-! ## What a comparison decides -/

/-- The comparison finds a system level hidden from wildcards, and a literal level of the filter
equal to the level of the topic, up to the levels compared differently; of these it denies `E`. -/
structure Reads {α : Type} [MatchLevel α] (text : Level → α) (E : Level → Level → Prop) : Prop where
  wild : ∀ {l level : Level}, NameLevel l → level.isWildcard = true →
    matchLevel (text l) level = !l.dollar
  literal : ∀ {l level : Level}, NameLevel l → level.isWildcard = false →
    (matchLevel (text l) level = true ↔ fillLevel level l = l ∧ ¬E level l)
  denies : ∀ {l level : Level}, E level l → level.isWildcard = false

/-- Levels are compared as the parser makes them: the normal level without text is no blank one. -/
theorem reads_levels : Reads id EmptyAgainst where
  wild := by
    intro l level name wild
    rw [Level.dollar_eq_isMetadata name.valid]
    cases level with
    | singleWildcard => rfl
    | multiWildcard => rfl
    | _ => cases wild
  literal := by
    intro l level name literal
    cases level with
    | singleWildcard => cases literal
    | multiWildcard => cases literal
    | _ => cases l <;> simp [matchLevel, fillLevel, BlankAgainst, EmptyAgainst]
  denies := by
    intro l level empty
    rw [empty.1]
    rfl

/-- Texts are compared as they are: only an empty one is matched by a blank level. -/
theorem reads_texts : Reads Level.toString BlankAgainst where
  wild := by
    intro l level name wild
    cases level with
    | singleWildcard => rfl
    | multiWildcard => rfl
    | _ => cases wild
  literal := by
    intro l level name literal
    have valid := name.valid
    have written := name.written
    have named := name.literal
    have blank : Level.startsWithDollar "" = false := rfl
    cases level with
    | singleWildcard => cases literal
    | multiWildcard => cases literal
    | _ =>
        cases l <;> simp_all [matchLevel, fillLevel, BlankAgainst, EmptyAgainst, Level.toString,
          Level.isValid, Level.isWildcard]
  denies := by
    intro l level blank
    rw [blank.1]
    rfl

/-- The filters that a system topic gets past. -/
def LeavesLoop (f : List Level) : Prop :=
  f = [.singleWildcard] ∨ f = [.singleWildcard, .multiWildcard]

/-! ## What the loop decides -/

/-- What the loop decides when the topic has come to its end: the rule for no further level. -/
theorem afterLoop_iff {f : List Level} (last : MultiLast f) :
    afterLoop f = true ↔ f = [] ∨ f = [.multiWildcard] := by
  match f with
  | [] => simp [afterLoop]
  | .multiWildcard :: post =>
      obtain rfl := last.nil_of_multi
      simp [afterLoop]
  | .normal _ :: _ | .metadata _ :: _ | .blank :: _ | .singleWildcard :: _ => simp [afterLoop]

theorem matches_nil_iff {f : List Level} : Matches f [] ↔ f = [] ∨ f = [.multiWildcard] := by
  rw [← accepts_iff_matches (by simp), accepts_nil_iff]

/-- The levels of a parsed name behind the first one do not start with `$`. -/
theorem dollar_of_mem_tail {s : String} {l : Level} {t : List Level}
    (parsed : Topic.fromStr s = .ok ⟨l :: t⟩) : ∀ l' ∈ t, l'.dollar = false := by
  have valid := Topic.valid_of_fromStr parsed
  intro l' hl'
  rw [Level.dollar_eq_isMetadata (valid.levels_valid l' (List.mem_cons_of_mem _ hl'))]
  cases l' with
  | metadata text =>
      rcases List.append_of_mem hl' with ⟨pre, post, split⟩
      have first := valid.metadata_first (l :: pre) post text (by
        change l :: t = _
        rw [split]
        rfl)
      cases first
  | _ => rfl

section

variable {α : Type} [MatchLevel α] {text : Level → α} {E : Level → Level → Prop}

theorem Reads.not_faces_wild (reads : Reads text E) {level l : Level}
    (wild : level.isWildcard = true) :
    ¬E level l := by
  intro differ
  rw [reads.denies differ] at wild
  cases wild

/-- A literal level of the filter decides on the first level, and the loop goes on. -/
theorem Reads.matchesLoop_literal (reads : Reads text E) {l level : Level} (f : List Level)
    (t : List Level) (name : NameLevel l) (literal : level.isWildcard = false) :
    matchesLoop (level :: f) ((l :: t).map text) = true ↔
      (fillLevel level l = l ∧ ¬E level l) ∧ matchesLoop f (t.map text) = true := by
  have step : matchesLoop (level :: f) ((l :: t).map text) =
      if matchLevel (text l) level then matchesLoop f (t.map text) else false := by
    cases level with
    | singleWildcard => cases literal
    | multiWildcard => cases literal
    | _ => rfl
  rw [step, ← reads.literal name literal]
  cases matchLevel (text l) level <;> simp

/-- Along levels that do not start with `$`, the loop decides the rules for the filled filter. -/
theorem Reads.matchesLoop_iff (reads : Reads text E) {f t : List Level} (last : MultiLast f)
    (name : ∀ l ∈ t, NameLevel l) (plain : ∀ l ∈ t, l.dollar = false) :
    matchesLoop f (t.map text) = true ↔ Matches (fill f t) t ∧ ¬Faces E f t := by
  induction t generalizing f with
  | nil =>
      have loop : matchesLoop f ([] : List α) = afterLoop f := by
        cases f with
        | nil => rfl
        | cons l f => cases l <;> rfl
      rw [List.map_nil, loop, afterLoop_iff last, fill_nil, matches_nil_iff]
      simp [not_faces_nil]
  | cons l t ih =>
      have hl := name l List.mem_cons_self
      have shown : l.dollar = false := plain l List.mem_cons_self
      cases f with
      | nil =>
          refine iff_of_false Bool.false_ne_true ?_
          intro h
          cases h.1
      | cons level f =>
          have rest : matchesLoop f (t.map text) = true ↔ Matches (fill f t) t ∧ ¬Faces E f t :=
            ih last.tail (fun l hl => name l (List.mem_cons_of_mem _ hl))
              (fun l hl => plain l (List.mem_cons_of_mem _ hl))
          rw [fill, faces_cons]
          cases wild : level.isWildcard with
          | false =>
              rw [reads.matchesLoop_literal f t hl wild, rest,
                matches_literal_iff (fillLevel_literal wild hl.literal)]
              grind
          | true =>
              have free := reads.not_faces_wild (l := l) wild
              rw [fillLevel_of_isWildcard wild]
              cases level with
              | singleWildcard =>
                  have step : matchesLoop (.singleWildcard :: f) ((l :: t).map text) =
                      matchesLoop f (t.map text) := by
                    simp [matchesLoop, reads.wild hl wild, shown]
                  rw [step, rest]
                  constructor
                  · intro h
                    exact ⟨.single h.1, by simp [free, h.2]⟩
                  · intro h
                    refine ⟨?_, fun faces => h.2 (.inr faces)⟩
                    cases h.1 with
                    | single rest => exact rest
                    | literal literal _ => cases literal
              | multiWildcard =>
                  obtain rfl := last.nil_of_multi
                  refine iff_of_true ?_ ⟨?_, ?_⟩
                  · simp [matchesLoop, reads.wild hl wild, shown]
                  · cases t <;> exact .multi
                  · simp [free, Faces]
              | _ => cases wild

/-- The first level of the filled filter is a wildcard where that of the filter is. -/
theorem leadingWildcard_fill {f t : List Level} (name : ∀ l ∈ t, NameLevel l) :
    LeadingWildcard (fill f t) ↔ LeadingWildcard f := by
  cases f with
  | nil => cases t <;> rfl
  | cons level f =>
      cases t with
      | nil => rw [fill_nil]
      | cons l t =>
          rw [fill, leadingWildcard_cons, leadingWildcard_cons]
          cases wild : level.isWildcard with
          | false => rw [fillLevel_literal wild (name l List.mem_cons_self).literal]
          | true => rw [fillLevel_of_isWildcard wild, wild]

/-- On a system topic, a leading `+` leaves the loop. -/
theorem Reads.matchesLoop_of_dollar (reads : Reads text E) {f t : List Level} {l : Level}
    (dollar : l.dollar = true) (last : MultiLast f) (name : ∀ l' ∈ l :: t, NameLevel l')
    (plain : ∀ l ∈ t, l.dollar = false) :
    matchesLoop f ((l :: t).map text) = true ↔
      (Matches (fill f (l :: t)) (l :: t) ∧ ¬LeadingWildcard f ∨ LeavesLoop f) ∧
        ¬Faces E f (l :: t) := by
  have hl := name l List.mem_cons_self
  cases f with
  | nil =>
      refine iff_of_false Bool.false_ne_true ?_
      intro h
      rcases h.1 with ⟨h, -⟩ | h | h <;> cases h
  | cons level f =>
      rw [leadingWildcard_cons, fill, faces_cons]
      cases wild : level.isWildcard with
      | false =>
          have rest := reads.matchesLoop_iff last.tail
            (fun l hl => name l (List.mem_cons_of_mem _ hl)) plain
          have stays : ¬LeavesLoop (level :: f) := by
            intro leaves
            rcases leaves with whole | whole <;> cases whole <;> cases wild
          rw [reads.matchesLoop_literal f t hl wild, rest,
            matches_literal_iff (fillLevel_literal wild hl.literal)]
          grind
      | true =>
          have free := reads.not_faces_wild (l := l) wild
          cases level with
          | singleWildcard =>
              have step : matchesLoop (.singleWildcard :: f) ((l :: t).map text) = afterLoop f := by
                simp [matchesLoop, reads.wild hl wild, dollar]
              rw [step, afterLoop_iff last.tail]
              have noFace : f = [] ∨ f = [.multiWildcard] → ¬Faces E f t := by
                intro short faces
                rcases short with rfl | rfl
                · simp [Faces] at faces
                · cases t with
                  | nil => exact not_faces_nil faces
                  | cons l' t =>
                      have free' : ¬E .multiWildcard l' := reads.not_faces_wild rfl
                      rw [faces_cons] at faces
                      simp [free', Faces] at faces
              simp [LeavesLoop]
              grind
          | multiWildcard =>
              obtain rfl := last.nil_of_multi
              simp [matchesLoop, reads.wild hl wild, dollar, LeavesLoop]
          | _ => cases wild

/-- The loop along the levels of a parsed topic name. -/
theorem Reads.matchesLoop_parsed (reads : Reads text E) {s : String} {t : Topic} {f : List Level}
    (last : MultiLast f) (parsed : Topic.fromStr s = .ok t) (free : t.WildcardFree) :
    matchesLoop f (t.levels.map text) = true ↔
      (MqttMatches ⟨fill f t.levels⟩ t ∨ LeadingDollar t.levels ∧ LeavesLoop f) ∧
        ¬Faces E f t.levels := by
  have name := nameLevel_of_fromStr parsed free
  rw [MqttMatches, leadingWildcard_fill name]
  rcases t with ⟨_ | ⟨l, t⟩⟩
  · exact absurd rfl (Topic.valid_of_fromStr parsed).nonempty
  · have plain := dollar_of_mem_tail parsed
    rw [leadingDollar_cons]
    cases dollar : l.dollar with
    | true =>
        rw [reads.matchesLoop_of_dollar dollar last name plain]
        simp
    | false =>
        have shown : ∀ l' ∈ l :: t, l'.dollar = false := by
          intro l' hl'
          rcases List.mem_cons.mp hl' with rfl | rest
          · exact dollar
          · exact plain l' rest
        rw [reads.matchesLoop_iff last name shown]
        simp

/-- A filter that leaves the loop has no literal level. -/
theorem Reads.not_faces_of_leavesLoop (reads : Reads text E) {f t : List Level}
    (leaves : LeavesLoop f) : ¬Faces E f t := by
  intro faces
  obtain ⟨⟨level, l⟩, mem, differ⟩ := faces
  have literal := reads.denies differ
  have here := (List.of_mem_zip mem).1
  rcases leaves with rfl | rfl
  · obtain rfl := List.mem_singleton.mp here
    cases literal
  · simp only [List.mem_cons, List.not_mem_nil, or_false] at here
    rcases here with rfl | rfl <;> cases literal

end

/-! ## The matchers -/

theorem matchesStr_eq_true_iff {s fs : String} {t f : Topic} (filter : Topic.fromStr fs = .ok f)
    (parsed : Topic.fromStr s = .ok t) (free : t.WildcardFree) :
    f.matchesStr s = true ↔ MqttMatches f t ∨ LeadingDollar t.levels ∧ LeavesLoop f.levels := by
  have last : MultiLast f.levels := (Topic.valid_of_fromStr filter).multi_last
  have empty : ¬Faces EmptyAgainst f.levels t.levels :=
    not_faces_empty (Topic.printed_of_fromStr filter)
  rw [Topic.matchesStr, split_of_fromStr parsed, reads_texts.matchesLoop_parsed last parsed free]
  by_cases blank : Faces BlankAgainst f.levels t.levels
  · refine iff_of_false (fun h => h.2 blank) ?_
    intro h
    rcases h with matched | left
    · exact matched.1.not_faces_blank blank
    · exact reads_texts.not_faces_of_leavesLoop left.2 blank
  · rw [fill_of_not_faces blank empty]
    exact and_iff_left blank

/-- A filter is matched directly against a topic name as the MQTT rules say, and as a subscription
tree with this filter alone reports it, but for `+` and `+/#` on a system topic. -/
theorem matchesStr_agrees_iff {W : Type} [LinearOrder W] (w : W) {s fs : String} {t f : Topic}
    (filter : Topic.fromStr fs = .ok f) (parsed : Topic.fromStr s = .ok t) (free : t.WildcardFree) :
    ((f.matchesStr s = true ↔ MqttMatches f t) ∧
      (f.matchesStr s = true ↔ (treeOf [.insert f w]).isMatch t = true)) ↔
      ¬(LeadingDollar t.levels ∧ LeavesLoop f.levels) := by
  have valid := Topic.valid_of_fromStr parsed
  rw [isMatch_single_iff valid.levels_valid free, and_self,
    matchesStr_eq_true_iff filter parsed free]
  constructor
  · intro same excepted
    have isolated := (same.mp (.inr excepted)).2
    refine isolated ⟨?_, excepted.1⟩
    rcases excepted.2 with whole | whole
    · rw [whole]
      exact leadingWildcard_cons.mpr rfl
    · rw [whole]
      exact leadingWildcard_cons.mpr rfl
  · intro regular
    exact or_iff_left regular

/-- The filter `a/+` and the topic `a/b`. -/
theorem matchesStr_agrees_plain :
    (Topic.matchesStr ⟨[.normal "a", .singleWildcard]⟩ "a/b" = true ↔
      MqttMatches ⟨[.normal "a", .singleWildcard]⟩ ⟨[.normal "a", .normal "b"]⟩) ∧
    (Topic.matchesStr ⟨[.normal "a", .singleWildcard]⟩ "a/b" = true ↔
      (treeOf [.insert ⟨[.normal "a", .singleWildcard]⟩ 0]).isMatch
        ⟨[.normal "a", .normal "b"]⟩ = true) := by
  have filter : Topic.fromStr "a/+" = .ok ⟨[.normal "a", .singleWildcard]⟩ := by decide
  apply (matchesStr_agrees_iff 0 filter (by decide) (by decide)).mpr
  intro excepted
  rcases excepted.2 with whole | whole
  · cases whole
  · cases whole

/-- The filter `+` is found to match `$SYS`, which the subscription tree does not report. -/
theorem plus_matches_sys :
    Topic.matchesStr ⟨[.singleWildcard]⟩ "$SYS" = true ∧
      Topic.fromStr "$SYS" = .ok ⟨[.metadata "$SYS"]⟩ ∧
      (treeOf [.insert ⟨[.singleWildcard]⟩ 0]).isMatch ⟨[.metadata "$SYS"]⟩ = false := by
  decide

/-- The matchers agree on a valid filter and a topic name unless the filter matches the name once
its levels that are compared differently are taken from the name, and only one of the two matchers
refuses such a level. -/
theorem matches_agrees_iff {s : String} {f t : Topic} (valid : f.isValid = true)
    (parsed : Topic.fromStr s = .ok t) (free : t.WildcardFree) :
    f.matches t = f.matchesStr s ↔
      ((Faces BlankAgainst f.levels t.levels ↔ Faces EmptyAgainst f.levels t.levels) ∨
        ¬MqttMatches ⟨fill f.levels t.levels⟩ t) := by
  have last : MultiLast f.levels := by
    by_cases nonempty : f.levels = []
    · rw [nonempty]
      intro pre post parts
      simp at parts
    · exact (Topic.valid_of_isValid nonempty valid).multi_last
  have levels := reads_levels.matchesLoop_parsed last parsed free
  have texts := reads_texts.matchesLoop_parsed last parsed free
  rw [List.map_id] at levels
  rw [← split_of_fromStr parsed] at texts
  rw [Topic.matches, Topic.matchesStr, Bool.eq_iff_iff, levels, texts]
  have blank : LeavesLoop f.levels → ¬Faces BlankAgainst f.levels t.levels :=
    reads_texts.not_faces_of_leavesLoop
  have empty : LeavesLoop f.levels → ¬Faces EmptyAgainst f.levels t.levels :=
    reads_levels.not_faces_of_leavesLoop
  by_cases leaves : LeavesLoop f.levels
  · simp [blank leaves, empty leaves]
  · by_cases filled : MqttMatches ⟨fill f.levels t.levels⟩ t
    · simp [leaves, filled, iff_comm, not_iff_not]
    · simp [leaves, filled]

/-- The filter `a/` and the topic `a/`. -/
theorem matches_agrees_blank :
    Topic.matches ⟨[.normal "a", .blank]⟩ ⟨[.normal "a", .blank]⟩ =
      Topic.matchesStr ⟨[.normal "a", .blank]⟩ "a/" := by
  have parsed : Topic.fromStr "a/" = .ok ⟨[.normal "a", .blank]⟩ := by decide
  exact (matches_agrees_iff (by decide) parsed (by decide)).mpr (.inl (by decide))

/-- The filter `a/` matches the parsed topic `a/b`, but not its text. -/
theorem blank_matches_any :
    Topic.fromStr "a/" = .ok ⟨[.normal "a", .blank]⟩ ∧
      Topic.fromStr "a/b" = .ok ⟨[.normal "a", .normal "b"]⟩ ∧
      Topic.WildcardFree ⟨[.normal "a", .normal "b"]⟩ ∧
      Topic.matches ⟨[.normal "a", .blank]⟩ ⟨[.normal "a", .normal "b"]⟩ = true ∧
      Topic.matchesStr ⟨[.normal "a", .blank]⟩ "a/b" = false := by
  decide

end OxiMqtt

import OxiMqtt.Session.Subscriptions

/-!
# The grammar of subscription filters

`parse_topic_filter` against a grammar: `$share/g/f`, `$limit/n/f` and `$exclusive/f`, each behind
its feature flag, and filters taken literally.  The grammar leaves open what is a group and what is
a number.  The code takes every group without a slash, and what `usize` reads as a number.

Behind `$exclusive/` the code removes further copies of it, and takes a bare `$exclusive` as its own
filter; the grammar does neither.

* `parse_eq_ok_iff`: the code accepts what the grammar derives, and nothing else.
* `empty_group_accepted`: `$share//f` is parsed as the filter `f` of the group without a name.
-/

namespace OxiMqtt.Session.FilterGrammar

open Text Subscriptions
open OxiMqtt.Codec (ByteString)
open Router (TopicFilter SharedGroup)

/-! ## The grammar -/

/-- A filter, its group and its limit. -/
abbrev Parsed : Type := TopicFilter × Option SharedGroup × Option Nat

/-- The text in front of the first slash. -/
def firstLevel (s : String) : String := String.ofList (s.toList.takeWhile (· ≠ '/'))

def prefixes : List String := ["$share", "$limit", "$exclusive"]

/-- What a filter is parsed as, where `group` tells the groups and `number` the numbers. -/
inductive Parses (group : String → Prop) (number : String → Nat → Prop)
    (sharedSubscription limitSubscription : Bool) : ByteString → Parsed → Prop
  | share {g f : String} : sharedSubscription = true → group g → f ≠ "" →
    Parses group number sharedSubscription limitSubscription ("$share/" ++ g ++ "/" ++ f)
      (f, some g, none)
  | limit {n f : String} {value : Nat} : limitSubscription = true → number n value → f ≠ "" →
    Parses group number sharedSubscription limitSubscription ("$limit/" ++ n ++ "/" ++ f)
      (f, none, some value)
  | exclusive {f : String} : limitSubscription = true → f ≠ "" →
    Parses group number sharedSubscription limitSubscription ("$exclusive/" ++ f)
      (f, none, some 1)
  | literal {s : String} : s ≠ "" →
    (sharedSubscription = false ∧ limitSubscription = false ∨ firstLevel s ∉ prefixes) →
    Parses group number sharedSubscription limitSubscription s (s, none, none)

/-- A group is any text without a slash. -/
def GroupText (g : String) : Prop := '/' ∉ g.toList

/-- A number is digits, behind a `+` or not, that `usize` can hold. -/
def UsizeText (n : String) (value : Nat) : Prop :=
  ∃ digits, (n.toList = digits ∨ n.toList = '+' :: digits) ∧ digits ≠ [] ∧
    (∀ c ∈ digits, c.isDigit = true) ∧ decimal 0 digits = value ∧ value < Subscriptions.usizeSize

/-- The texts behind `$exclusive` that the code does not parse by the grammar. -/
def ExclusiveSlip (s : String) : Prop :=
  s = "$exclusive" ∨ "$exclusive/$exclusive/".toList <+: s.toList

/-! ## The levels of a filter -/

/-- The levels that `parse_topic_filter` looks at. -/
def levels (s : String) : List String := (splitn '/' 3 s.toList).map String.ofList

theorem levels_one {first : String} (free : '/' ∉ first.toList) : levels first = [first] := by
  rw [levels, splitn_of_notMem free, List.map_singleton, String.ofList_toList]

theorem levels_two {first second : String} (free : '/' ∉ first.toList)
    (free' : '/' ∉ second.toList) : levels (first ++ "/" ++ second) = [first, second] := by
  have text : (first ++ "/" ++ second).toList = first.toList ++ '/' :: second.toList := by
    simp [String.toList_append]
  rw [levels, text, splitn_append free, splitn_of_notMem free']
  simp

theorem levels_three (first second third : String) (free : '/' ∉ first.toList)
    (free' : '/' ∉ second.toList) :
    levels (first ++ "/" ++ second ++ "/" ++ third) = [first, second, third] := by
  have text : (first ++ "/" ++ second ++ "/" ++ third).toList =
      first.toList ++ '/' :: (second.toList ++ '/' :: third.toList) := by
    simp [String.toList_append]
  rw [levels, text, splitn_append free, splitn_append free', splitn]
  simp

theorem exists_split_string (s : String) :
    '/' ∉ s.toList ∨ ∃ first rest : String, '/' ∉ first.toList ∧ s = first ++ "/" ++ rest := by
  rcases exists_split '/' s.toList with free | ⟨first, rest, free, eq⟩
  · exact .inl free
  · refine .inr ⟨String.ofList first, String.ofList rest, by rwa [String.toList_ofList], ?_⟩
    rw [← String.toList_inj]
    simp [String.toList_append, eq]

/-- The first level, and what is behind it: nothing, a second level, or two more pieces. -/
theorem levels_cases (s : String) :
    ('/' ∉ s.toList ∧ levels s = [s]) ∨
      (∃ first second : String, '/' ∉ first.toList ∧ '/' ∉ second.toList ∧
        s = first ++ "/" ++ second ∧ levels s = [first, second]) ∨
      ∃ first second third : String, '/' ∉ first.toList ∧ '/' ∉ second.toList ∧
        s = first ++ "/" ++ second ++ "/" ++ third ∧ levels s = [first, second, third] := by
  rcases exists_split_string s with free | ⟨first, rest, free, rfl⟩
  · exact .inl ⟨free, levels_one free⟩
  · rcases exists_split_string rest with free' | ⟨second, third, free', rfl⟩
    · exact .inr (.inl ⟨first, rest, free, free', rfl, levels_two free free'⟩)
    · have same : first ++ "/" ++ (second ++ "/" ++ third) =
          first ++ "/" ++ second ++ "/" ++ third := by
        simp only [String.append_assoc]
      exact .inr (.inr ⟨first, second, third, free, free', same,
        same ▸ levels_three first second third free free'⟩)

theorem firstLevel_of_levels {s first : String} {rest : List String}
    (h : levels s = first :: rest) : firstLevel s = first := by
  rw [levels, splitn, List.span_eq_takeWhile_dropWhile] at h
  cases behind : s.toList.dropWhile (· ≠ '/') with
  | nil =>
      rw [behind] at h
      exact (List.cons.inj h).1
  | cons c cs =>
      rw [behind] at h
      exact (List.cons.inj h).1

theorem exists_levels (s : String) : ∃ rest, levels s = firstLevel s :: rest := by
  have shape : ∃ first rest, levels s = first :: rest := by
    rcases levels_cases s with
      ⟨-, h⟩ | ⟨first, second, -, -, -, h⟩ | ⟨first, second, third, -, -, -, h⟩
    · exact ⟨_, _, h⟩
    · exact ⟨_, _, h⟩
    · exact ⟨_, _, h⟩
  obtain ⟨first, rest, h⟩ := shape
  exact ⟨rest, by rw [firstLevel_of_levels h, h]⟩

/-- Three pieces give the filter back. -/
theorem levels_eq_three {s first second third : String} (h : levels s = [first, second, third]) :
    s = first ++ "/" ++ second ++ "/" ++ third ∧ '/' ∉ second.toList := by
  rcases levels_cases s with ⟨-, h'⟩ | ⟨a, b, -, -, -, h'⟩ | ⟨a, b, c, -, free, eq, h'⟩
  · rw [h] at h'
    cases h'
  · rw [h] at h'
    cases h'
  · rw [h] at h'
    cases h'
    exact ⟨eq, free⟩

/-! ## The branches of the code -/

section

variable {s : String} {shared limits : Bool}

theorem split_share {rest : List String} : levels s = "$share" :: rest →
    splitTopicFilter s shared limits =
      if shared then
        match rest with
        | [group, tf] => .ok (tf, some group, none)
        | _ => .error (invalidFilter s)
      else .error ("Shared subscription is not enabled, " ++ s.quote) := by
  intro h
  unfold levels at h
  rw [splitTopicFilter, h]
  rfl

theorem split_limit {rest : List String} : levels s = "$limit" :: rest →
    splitTopicFilter s shared limits =
      if limits then
        match rest with
        | [limit, tf] =>
            match parseUnsigned Subscriptions.usizeSize limit.toList with
            | .ok limit => .ok (tf, none, some limit)
            | .error _ => .error (invalidFilter s)
        | _ => .error (invalidFilter s)
      else .error ("Limit subscription is not enabled, " ++ s.quote) := by
  intro h
  unfold levels at h
  rw [splitTopicFilter, h]
  rfl

theorem split_exclusive {rest : List String} : levels s = "$exclusive" :: rest →
    splitTopicFilter s shared limits =
      if limits then
        .ok (String.ofList (trimStartMatches "$exclusive/".toList s.toList), none, some 1)
      else .error ("Limit subscription is not enabled, " ++ s.quote) := by
  intro h
  unfold levels at h
  rw [splitTopicFilter, h]
  rfl

theorem split_literal {first : String} {rest : List String} (h : levels s = first :: rest)
    (other : first ∉ prefixes) : splitTopicFilter s shared limits = .ok (s, none, none) := by
  unfold levels at h
  unfold splitTopicFilter
  dsimp only
  rw [h]
  split
  · rename_i eq
    cases eq
    exact absurd (by decide) other
  · rename_i eq
    cases eq
    exact absurd (by decide) other
  · rename_i eq
    cases eq
    exact absurd (by decide) other
  · rfl

/-- The check behind them. -/
theorem parse_eq_ok_iff_split {r : Parsed} :
    parseTopicFilter s shared limits = .ok r ↔
      (if shared || limits then splitTopicFilter s shared limits else .ok (s, none, none)) = .ok r ∧
        r.1 ≠ "" := by
  have checked : ∀ parsed : Except String Parsed,
      (parsed >>= fun parsed =>
        if parsed.1 = "" then .error (invalidFilter s) else .ok parsed) = .ok r ↔
      parsed = .ok r ∧ r.1 ≠ "" := by
    intro parsed
    cases parsed with
    | error e => exact ⟨(nomatch ·), fun h => nomatch h.1⟩
    | ok parsed =>
        change (if parsed.1 = "" then _ else _) = _ ↔ _
        by_cases empty : parsed.1 = ""
        · rw [if_pos empty]
          refine ⟨(nomatch ·), ?_⟩
          rintro ⟨h, nonempty⟩
          cases h
          exact absurd empty nonempty
        · rw [if_neg empty]
          refine ⟨fun h => ⟨h, ?_⟩, fun h => h.1⟩
          cases h
          exact empty
  unfold parseTopicFilter
  cases flags : shared || limits with
  | true => exact checked _
  | false => exact checked _

end

/-! ## The code and the grammar -/

theorem exclusive_trim {f : String} (once : ¬ "$exclusive/".toList <+: f.toList) :
    String.ofList (trimStartMatches "$exclusive/".toList ("$exclusive/" ++ f).toList) = f := by
  rw [String.toList_append, trimStartMatches_once (by decide) once, String.ofList_toList]

theorem not_again {f : String} (regular : ¬ ExclusiveSlip ("$exclusive/" ++ f)) :
    ¬ "$exclusive/".toList <+: f.toList := by
  intro again
  refine regular (.inr ?_)
  have text : "$exclusive/$exclusive/".toList = "$exclusive/".toList ++ "$exclusive/".toList := by
    decide
  rw [text, String.toList_append, List.prefix_append_right_inj]
  exact again

theorem levels_exclusive (f : String) :
    ∃ rest, levels ("$exclusive/" ++ f) = "$exclusive" :: rest := by
  have start : "$exclusive/" ++ f = "$exclusive" ++ "/" ++ f := rfl
  rcases exists_split_string f with free | ⟨second, third, free, rfl⟩
  · exact ⟨[f], by rw [start, levels_two (by decide) free]⟩
  · refine ⟨[second, third], ?_⟩
    rw [start, ← levels_three "$exclusive" second third (by decide) free]
    simp only [String.append_assoc]

/-- A filter whose first level is `$exclusive`. -/
theorem exclusive_cases {s : String} (h : firstLevel s = "$exclusive") :
    s = "$exclusive" ∨ ∃ f, s = "$exclusive/" ++ f := by
  rcases exists_split_string s with free | ⟨first, rest, free, rfl⟩
  · obtain ⟨rest, shape⟩ := exists_levels s
    rw [levels_one free, h] at shape
    exact .inl (List.cons.inj shape).1
  · have same : first = "$exclusive" := by
      rw [← h]
      rcases exists_split_string rest with free' | ⟨second, third, free', rfl⟩
      · exact (firstLevel_of_levels (levels_two free free')).symm
      · have shape := firstLevel_of_levels (levels_three first second third free free')
        simp only [String.append_assoc] at shape ⊢
        exact shape.symm
    subst same
    exact .inr ⟨rest, rfl⟩

/-- What the grammar derives is accepted. -/
theorem parse_of_parses {s : String} {shared limits : Bool} {r : Parsed}
    (regular : limits = true → ¬ ExclusiveSlip s)
    (h : Parses GroupText UsizeText shared limits s r) :
    parseTopicFilter s shared limits = .ok r := by
  rw [parse_eq_ok_iff_split]
  cases h with
  | @share g f enabled slashless nonempty =>
      subst enabled
      have shape : levels ("$share/" ++ g ++ "/" ++ f) = ["$share", g, f] :=
        levels_three "$share" g f (by decide) slashless
      exact ⟨by rw [Bool.true_or, if_pos rfl, split_share shape]; rfl, nonempty⟩
  | @limit n f value enabled number nonempty =>
      subst enabled
      have slashless : '/' ∉ n.toList := by
        obtain ⟨digits, shape, -, digit, -⟩ := number
        intro slash
        rcases shape with eq | eq
        · exact absurd (digit '/' (eq ▸ slash)) (by decide)
        · rw [eq, List.mem_cons] at slash
          exact slash.elim (by decide) fun h => absurd (digit '/' h) (by decide)
      have shape : levels ("$limit/" ++ n ++ "/" ++ f) = ["$limit", n, f] :=
        levels_three "$limit" n f (by decide) slashless
      have value := (parseUnsigned_eq_ok_iff (by decide)).mpr number
      refine ⟨?_, nonempty⟩
      rw [Bool.or_true, if_pos rfl, split_limit shape]
      simp only [if_true, value]
  | @exclusive f enabled nonempty =>
      subst enabled
      obtain ⟨rest, shape⟩ := levels_exclusive f
      refine ⟨?_, nonempty⟩
      rw [Bool.or_true, if_pos rfl, split_exclusive shape, if_pos rfl,
        exclusive_trim (not_again (regular rfl))]
  | literal nonempty plain =>
      refine ⟨?_, nonempty⟩
      rcases plain with ⟨off, off'⟩ | other
      · rw [off, off']
        rfl
      · obtain ⟨rest, shape⟩ := exists_levels s
        rw [split_literal shape other, ite_self]

section

variable {s : String} {shared limits : Bool} {r : Parsed} {rest : List String}

theorem parses_share (shape : levels s = "$share" :: rest)
    (h : splitTopicFilter s shared limits = .ok r) (nonempty : r.1 ≠ "") :
    Parses GroupText UsizeText shared limits s r := by
  rw [split_share shape] at h
  cases enabled : shared with
  | false =>
      rw [enabled] at h
      cases h
  | true =>
      rw [enabled, if_pos rfl] at h
      split at h
      · obtain ⟨rfl, slashless⟩ := levels_eq_three shape
        cases h
        exact .share rfl slashless nonempty
      · cases h

theorem parses_limit (shape : levels s = "$limit" :: rest)
    (h : splitTopicFilter s shared limits = .ok r) (nonempty : r.1 ≠ "") :
    Parses GroupText UsizeText shared limits s r := by
  rw [split_limit shape] at h
  cases enabled : limits with
  | false =>
      rw [enabled] at h
      cases h
  | true =>
      rw [enabled, if_pos rfl] at h
      split at h
      · obtain ⟨rfl, -⟩ := levels_eq_three shape
        split at h
        · rename_i value
          cases h
          exact .limit rfl ((parseUnsigned_eq_ok_iff (by decide)).mp value) nonempty
        · cases h
      · cases h

theorem parses_exclusive (first : firstLevel s = "$exclusive")
    (regular : limits = true → ¬ ExclusiveSlip s)
    (h : splitTopicFilter s shared limits = .ok r) (nonempty : r.1 ≠ "") :
    Parses GroupText UsizeText shared limits s r := by
  obtain ⟨rest, shape⟩ := exists_levels s
  rw [first] at shape
  rw [split_exclusive shape] at h
  cases enabled : limits with
  | false =>
      rw [enabled] at h
      cases h
  | true =>
      rw [enabled, if_pos rfl] at h
      rcases exclusive_cases first with rfl | ⟨f, rfl⟩
      · exact absurd (.inl rfl) (regular enabled)
      · rw [exclusive_trim (not_again fun slip => regular enabled slip)] at h
        cases h
        exact .exclusive rfl nonempty

end

/-- What is accepted is derived by the grammar. -/
theorem parses_of_parse {s : String} {shared limits : Bool} {r : Parsed}
    (regular : limits = true → ¬ ExclusiveSlip s) (h : parseTopicFilter s shared limits = .ok r) :
    Parses GroupText UsizeText shared limits s r := by
  obtain ⟨h, nonempty⟩ := parse_eq_ok_iff_split.mp h
  cases flags : shared || limits with
  | false =>
      rw [flags] at h
      cases h
      exact .literal nonempty (.inl (Bool.or_eq_false_iff.mp flags))
  | true =>
      rw [flags, if_pos rfl] at h
      obtain ⟨rest, shape⟩ := exists_levels s
      by_cases other : firstLevel s ∉ prefixes
      · rw [split_literal shape other] at h
        cases h
        exact .literal nonempty (.inr other)
      · have cases : firstLevel s = "$share" ∨ firstLevel s = "$limit" ∨
            firstLevel s = "$exclusive" := by
          simpa [prefixes] using not_not.mp other
        rcases cases with first | first | first
        · rw [first] at shape
          exact parses_share shape h nonempty
        · rw [first] at shape
          exact parses_limit shape h nonempty
        · exact parses_exclusive first regular h nonempty

/-- Where no text is repeated behind `$exclusive`, the filters that `parse_topic_filter` accepts are
those of the grammar, parsed as it says. -/
theorem parse_eq_ok_iff (s : String) (sharedSubscription limitSubscription : Bool) (r : Parsed)
    (regular : limitSubscription = true → ¬ ExclusiveSlip s) :
    parseTopicFilter s sharedSubscription limitSubscription = .ok r ↔
      Parses GroupText UsizeText sharedSubscription limitSubscription s r :=
  ⟨parses_of_parse regular, parse_of_parses regular⟩

theorem parse_limited : parseTopicFilter "$limit/5/a/b" false true = .ok ("a/b", none, some 5) := by
  have digit : ∀ c ∈ ['5'], c.isDigit = true := by
    intro c hc
    rw [List.mem_singleton.mp hc]
    rfl
  have number : UsizeText "5" 5 :=
    ⟨['5'], .inl rfl, List.cons_ne_nil _ _, digit, rfl, by decide⟩
  exact (parse_eq_ok_iff "$limit/5/a/b" false true ("a/b", none, some 5)
    (fun _ slip => slip.elim (by decide) (by decide))).mpr
      (.limit rfl number (show "a/b" ≠ "" by decide))

/-- A group as the protocol has it. -/
def ShareName (g : String) : Prop :=
  g ≠ "" ∧ '/' ∉ g.toList ∧ '+' ∉ g.toList ∧ '#' ∉ g.toList

/-- A number as it is written. -/
def DecimalText (n : String) (value : Nat) : Prop :=
  n ≠ "" ∧ (∀ c ∈ n.toList, c.isDigit = true) ∧ decimal 0 n.toList = value

/-- `$share//f` is accepted. -/
theorem empty_group_accepted :
    ¬ ∀ (s : String) (sharedSubscription limitSubscription : Bool) (r : Parsed),
        parseTopicFilter s sharedSubscription limitSubscription = .ok r ↔
          Parses ShareName DecimalText sharedSubscription limitSubscription s r := by
  intro claimed
  have accepted : parseTopicFilter "$share//f" true false = .ok ("f", some "", none) :=
    (parse_eq_ok_iff_split).mpr ⟨rfl, by decide⟩
  have derived := (claimed "$share//f" true false ("f", some "", none)).mp accepted
  generalize text : "$share//f" = s at derived
  generalize result : (("f", some "", none) : Parsed) = r at derived
  cases derived with
  | share _ group _ =>
      cases result
      exact group.1 rfl
  | limit enabled => cases enabled
  | exclusive enabled => cases enabled
  | literal => cases result

end OxiMqtt.Session.FilterGrammar

import OxiMqtt.Router.Table
import OxiMqtt.TopicMatch

/-!
# The text of a topic and its levels

The router keeps every filter twice: as a path of levels in the topic tree, and as the text that is
the key of the relation map.  `_matches` goes from the first to the second by printing the path.

`Topic.Grammatical` is the grammar of the texts, in terms of the pieces between the `/`.

* `exists_fromStr_iff_grammatical`: the parser accepts the texts of the grammar, and no others.
* `fromStr_text`: it loses nothing of them, so that after any calls of the router the paths of the
  tree and the keys of the map are the same filters.
-/

namespace OxiMqtt

namespace Topic

/-- A text whose levels are `+`, `#` or free of both signs, with `#` as the last level only and
`$` in front of the first level only. -/
structure Grammatical (s : String) : Prop where
  level : ∀ text ∈ split s, text = "+" ∨ text = "#" ∨ ('+' ∉ text.toList ∧ '#' ∉ text.toList)
  multi_last : ∀ pre post, split s = pre ++ "#" :: post → post = []
  dollar_first : ∀ pre text post, split s = pre ++ text :: post →
    text.toList.head? = some '$' → pre = []

/-! ## One level -/

theorem hasWildcardChar_eq_false_iff {s : String} :
    Level.hasWildcardChar s = false ↔ '+' ∉ s.toList ∧ '#' ∉ s.toList := by
  simp only [Level.hasWildcardChar, List.any_eq_false, Bool.or_eq_true, beq_iff_eq, not_or]
  constructor
  · intro h
    exact ⟨fun plus => (h _ plus).1 rfl, fun hash => (h _ hash).2 rfl⟩
  · intro h c hc
    exact ⟨fun plus => h.1 (plus ▸ hc), fun hash => h.2 (hash ▸ hc)⟩

theorem level_fromStr_ok_iff {s : String} :
    (∃ l, Level.fromStr s = .ok l) ↔ s = "+" ∨ s = "#" ∨ ('+' ∉ s.toList ∧ '#' ∉ s.toList) := by
  rw [← hasWildcardChar_eq_false_iff]
  unfold Level.fromStr
  split_ifs with plus hash empty wild dollar
  · simp [plus]
  · simp [hash]
  · simp [empty, Level.hasWildcardChar]
  · simp [plus, hash, wild]
  · simp [wild]
  · simp [wild]

theorem isValid_of_level_fromStr {s : String} {l : Level} (h : Level.fromStr s = .ok l) :
    l.isValid = true := by
  unfold Level.fromStr at h
  split_ifs at h with plus hash empty wild dollar <;> cases h <;> simp_all [Level.isValid]

/-- Only the text `#` is read as the multi-level wildcard. -/
theorem eq_multiWildcard {l : Level} (printed : Printed l) (text : l.toString = "#") :
    l = .multiWildcard := by
  have parsed := printed.parses
  rw [text] at parsed
  cases parsed
  rfl

/-! ## The whole text -/

theorem mapM_ok {f : String → Except TopicError Level} {texts : List String}
    (h : ∀ text ∈ texts, ∃ l, f text = .ok l) : ∃ levels, texts.mapM f = .ok levels := by
  induction texts with
  | nil => exact ⟨[], rfl⟩
  | cons text texts ih =>
      obtain ⟨l, hl⟩ := h text List.mem_cons_self
      obtain ⟨levels, hlevels⟩ := ih fun text' hmem => h text' (List.mem_cons_of_mem _ hmem)
      refine ⟨l :: levels, ?_⟩
      rw [List.mapM_cons, hl, hlevels]
      rfl

/-- A text that parses is of the grammar. -/
theorem grammatical_of_fromStr {s : String} {t : Topic} (parsed : fromStr s = .ok t) :
    Grammatical s := by
  have valid := valid_of_fromStr parsed
  have printed := printed_of_fromStr parsed
  have texts := split_of_fromStr parsed
  refine ⟨?_, ?_, ?_⟩
  · intro text hmem
    rw [texts] at hmem
    obtain ⟨l, hl, rfl⟩ := List.mem_map.mp hmem
    exact level_fromStr_ok_iff.mp ⟨l, (printed l hl).parses⟩
  · intro pre post parts
    rw [texts] at parts
    obtain ⟨lpre, rest, levels, -, hrest⟩ := List.map_eq_append_iff.mp parts
    obtain ⟨l, lpost, rfl, hash, rfl⟩ := List.map_eq_cons_iff.mp hrest
    have hl : l ∈ t.levels := by simp [levels]
    obtain rfl := eq_multiWildcard (printed l hl) hash
    rw [valid.multi_last lpre lpost levels]
    rfl
  · intro pre text post parts dollar
    rw [texts] at parts
    obtain ⟨lpre, rest, levels, rfl, hrest⟩ := List.map_eq_append_iff.mp parts
    obtain ⟨l, lpost, rfl, rfl, -⟩ := List.map_eq_cons_iff.mp hrest
    have hl : l ∈ t.levels := by simp [levels]
    have system : l.isMetadata = true := by
      rw [← Level.dollar_eq_isMetadata (valid.levels_valid l hl)]
      simpa [Level.dollar, Level.startsWithDollar] using dollar
    cases l with
    | metadata name =>
        rw [valid.metadata_first lpre lpost name levels]
        rfl
    | _ => cases system

/-- Levels read from a text of the grammar are a valid topic. -/
theorem Grammatical.valid {s : String} (grammatical : Grammatical s) {levels : List Level}
    (read : (split s).mapM Level.fromStr = .ok levels) : Valid ⟨levels⟩ := by
  have texts := (mapM_ok_toString read).symm
  have levels_valid : ∀ l ∈ levels, l.isValid = true := by
    intro l hl
    obtain ⟨text, -, parsed⟩ := mapM_ok_mem read l hl
    exact isValid_of_level_fromStr parsed
  refine ⟨?_, levels_valid, ?_, ?_⟩
  · intro none
    rw [show levels = [] from none] at texts
    exact split_ne_nil s texts
  · intro pre post parts
    rw [show levels = _ from parts, List.map_append, List.map_cons] at texts
    exact List.map_eq_nil_iff.mp (grammatical.multi_last _ _ texts)
  · intro pre post name parts
    have first : (Level.metadata name).isValid = true := by
      refine levels_valid _ ?_
      rw [show levels = _ from parts]
      simp
    rw [show levels = _ from parts, List.map_append, List.map_cons] at texts
    refine List.map_eq_nil_iff.mp (grammatical.dollar_first _ _ _ texts ?_)
    simpa [Level.startsWithDollar, Level.toString] using (Bool.and_eq_true_iff.mp first).1

/-- The parser accepts the texts of the grammar. -/
theorem exists_fromStr_iff_grammatical {s : String} :
    (∃ t, fromStr s = .ok t) ↔ Grammatical s := by
  constructor
  · intro accepted
    obtain ⟨t, parsed⟩ := accepted
    exact grammatical_of_fromStr parsed
  · intro grammatical
    obtain ⟨levels, read⟩ := mapM_ok fun text hmem =>
      level_fromStr_ok_iff.mpr (grammatical.level text hmem)
    refine ⟨⟨levels⟩, ?_⟩
    rw [fromStr, read]
    change (if isValid ⟨levels⟩ then Except.ok (⟨levels⟩ : Topic) else _) = .ok ⟨levels⟩
    rw [if_pos (isValid_of_valid (grammatical.valid read))]

end Topic

namespace Router

/-! ## The paths of the tree and the keys of the map -/

/-- The tree and the relation map hold the same filters: a path is in the tree when its printed
form is a key, and every key is the printed form of such a path. -/
structure DefaultRouter.SameFilters (r : DefaultRouter) : Prop where
  path : ∀ levels, () ∈ r.topics.valuesAt levels ↔
    (r.relations.lookup (toTopicFilter levels)).isSome = true ∧
      Topic.fromStr (toTopicFilter levels) = .ok ⟨levels⟩
  key : ∀ f, (r.relations.lookup f).isSome = true → ∃ levels,
    () ∈ r.topics.valuesAt levels ∧ Topic.fromStr f = .ok ⟨levels⟩ ∧ toTopicFilter levels = f

theorem DefaultRouter.Consistent.sameFilters {r : DefaultRouter} (consistent : r.Consistent) :
    r.SameFilters := by
  refine ⟨?_, ?_⟩
  · intro levels
    rw [consistent.stored ⟨levels⟩]
    constructor
    · intro stored
      obtain ⟨f, rels, parsed, found⟩ := stored
      have text : toTopicFilter levels = f := Topic.toString_of_fromStr parsed
      rw [text]
      exact ⟨by rw [found]; rfl, parsed⟩
    · intro known
      obtain ⟨rels, found⟩ := Option.isSome_iff_exists.mp known.1
      exact ⟨_, rels, known.2, found⟩
  · intro f known
    obtain ⟨rels, found⟩ := Option.isSome_iff_exists.mp known
    obtain ⟨topic, parsed⟩ := consistent.parsed f rels found
    exact ⟨topic.levels, (consistent.stored topic).mpr ⟨f, rels, parsed, found⟩, parsed,
      Topic.toString_of_fromStr parsed⟩

/-- The parser accepts a text exactly if it is of the grammar; what it accepts prints as the text
again, directly and as a path of the tree; no other text gives the same topic; and the paths and
the keys of the router are the same filters after any calls. -/
theorem fromStr_text (s : String) (calls : List Call) :
    ((∃ t, Topic.fromStr s = .ok t) ↔ Topic.Grammatical s) ∧
      (∀ t, Topic.fromStr s = .ok t →
        t.toString = s ∧ toTopicFilter t.levels = s ∧ Topic.fromStr t.toString = .ok t ∧
          ∀ s', Topic.fromStr s' = .ok t → s' = s) ∧
      (routerOf calls).SameFilters := by
  refine ⟨Topic.exists_fromStr_iff_grammatical, ?_, (consistent_routerOf calls).sameFilters⟩
  intro t parsed
  have text := Topic.toString_of_fromStr parsed
  refine ⟨text, text, by rw [text, parsed], ?_⟩
  intro s' parsed'
  rw [← text, Topic.toString_of_fromStr parsed']

end Router

end OxiMqtt

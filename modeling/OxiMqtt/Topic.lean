import Mathlib.Data.List.Basic
import Mathlib.Data.List.Forall2

/-!
# Topics and topic filters

The data model of `topic.rs`: a topic or a topic filter is a list of levels,
parsed from the text between the `/` separators.  `Topic.fromStr` is the parser
(`FromStr for Topic`), `Topic.toString` the printer (`Display for Topic`).

`Topic.Valid` names what the parser guarantees about an accepted topic
(`Topic.valid_of_fromStr`): every level is well formed, `#` stands last, and
only the first level starts with `$`.
-/

namespace OxiMqtt

/-- The errors of the topic parser, with the source's message texts. -/
inductive TopicError : Type
  | invalidTopic (msg : String)
  | invalidLevel (msg : String)
  deriving DecidableEq, Repr

/-- One level of a topic or of a topic filter. -/
inductive Level : Type
  | normal (s : String)
  | metadata (s : String)
  | blank
  | singleWildcard
  | multiWildcard
  deriving DecidableEq, Repr

namespace Level

/-- `s.contains(['+', '#'])` -/
def hasWildcardChar (s : String) : Bool := s.toList.any (fun c => c == '+' || c == '#')

/-- `s.starts_with('$')` -/
def startsWithDollar (s : String) : Bool := s.toList.head? == some '$'

def isMetadata : Level → Bool
  | metadata _ => true
  | _ => false

/-- `Level::is_valid` -/
def isValid : Level → Bool
  | normal s => !startsWithDollar s && !hasWildcardChar s
  | metadata s => startsWithDollar s && !hasWildcardChar s
  | _ => true

/-- The level is `+` or `#`. -/
def isWildcard : Level → Bool
  | singleWildcard => true
  | multiWildcard => true
  | _ => false

/-- `FromStr for Level` -/
def fromStr (s : String) : Except TopicError Level :=
  if s = "+" then .ok singleWildcard
  else if s = "#" then .ok multiWildcard
  else if s = "" then .ok blank
  else if hasWildcardChar s then .error (.invalidLevel s!"invalid level `{s}` contains +|#")
  else if startsWithDollar s then .ok (metadata s)
  else .ok (normal s)

/-- `Display for Level` -/
def toString : Level → String
  | normal s => s
  | metadata s => s
  | blank => ""
  | singleWildcard => "+"
  | multiWildcard => "#"

/-- The text of the level starts with `$`. -/
def dollar (l : Level) : Bool := startsWithDollar l.toString

/-- On valid levels, starting with `$` is being a metadata level. -/
theorem dollar_eq_isMetadata {l : Level} (h : l.isValid = true) : l.dollar = l.isMetadata := by
  cases l <;> simp_all [dollar, isMetadata, isValid, toString, startsWithDollar]

theorem dollar_of_isWildcard {l : Level} (h : l.isWildcard = true) : l.dollar = false := by
  cases l <;> first | rfl | cases h

end Level

/-- A topic name or a topic filter. -/
structure Topic : Type where
  levels : List Level
  deriving DecidableEq, Repr

namespace Topic

/-- A level at a position where `Topic::is_valid` refuses it. -/
def misplaced (len : Nat) : Level × Nat → Bool
  | (.multiWildcard, pos) => pos != len - 1
  | (.metadata _, pos) => pos != 0
  | _ => false

/-- `Topic::is_valid` -/
def isValid (t : Topic) : Bool :=
  ((t.levels.findIdx? (fun level => !level.isValid)).or
    (t.levels.zipIdx.findIdx? (misplaced t.levels.length))).isNone

/-- `s.split('/')` -/
def split (s : String) : List String := (s.toList.splitOn '/').map String.ofList

/-- `FromStr for Topic` -/
def fromStr (s : String) : Except TopicError Topic := do
  let levels ← (split s).mapM Level.fromStr
  if isValid ⟨levels⟩ then .ok ⟨levels⟩
  else .error (.invalidTopic s!"invalid topic `{s}`")

/-- `Display for Topic` -/
def toString (t : Topic) : String := "/".intercalate (t.levels.map Level.toString)

/-! ## What the parser guarantees -/

/-- The shape of an accepted topic: at least one level, every level well
formed, `#` only in the last place and `$` only in the first. -/
structure Valid (t : Topic) : Prop where
  nonempty : t.levels ≠ []
  levels_valid : ∀ l ∈ t.levels, l.isValid = true
  multi_last : ∀ pre post, t.levels = pre ++ .multiWildcard :: post → post = []
  metadata_first : ∀ pre post s, t.levels = pre ++ .metadata s :: post → pre = []

theorem split_ne_nil (s : String) : split s ≠ [] := by
  simp only [split, ne_eq, List.map_eq_nil_iff]
  exact List.splitOn_ne_nil _ _

/-- What is read of a list of texts, one by one. -/
theorem mapM_ok_forall₂ {f : String → Except TopicError Level} {xs : List String}
    {ys : List Level} (h : xs.mapM f = .ok ys) : List.Forall₂ (fun x y => f x = .ok y) xs ys := by
  induction xs generalizing ys with
  | nil =>
      cases h
      exact .nil
  | cons x xs ih =>
      rw [List.mapM_cons] at h
      cases hx : f x with
      | error e => rw [hx] at h; cases h
      | ok y =>
          rw [hx] at h
          cases hxs : xs.mapM f with
          | error e => rw [hxs] at h; cases h
          | ok rest =>
              rw [hxs] at h
              cases h
              exact .cons hx (ih hxs)

/-- A text is parsed level by level, and the levels are checked together. -/
theorem levels_of_fromStr {s : String} {t : Topic} (h : fromStr s = .ok t) :
    (split s).mapM Level.fromStr = .ok t.levels ∧ t.isValid = true := by
  unfold fromStr at h
  cases hl : (split s).mapM Level.fromStr with
  | error e => rw [hl] at h; cases h
  | ok levels =>
      rw [hl] at h
      change (if isValid ⟨levels⟩ then Except.ok (⟨levels⟩ : Topic) else _) = .ok t at h
      split at h
      · rename_i valid
        cases h
        exact ⟨rfl, valid⟩
      · cases h

/-- `Topic::is_valid` accepts only topics of the valid shape. -/
theorem valid_of_isValid {t : Topic} (nonempty : t.levels ≠ []) (h : t.isValid = true) :
    t.Valid := by
  unfold isValid at h
  rw [Option.isNone_iff_eq_none, Option.or_eq_none_iff, List.findIdx?_eq_none_iff,
    List.findIdx?_eq_none_iff] at h
  obtain ⟨hlevels, hplaces⟩ := h
  have placed : ∀ pre l post, t.levels = pre ++ l :: post →
      misplaced t.levels.length (l, pre.length) = false := by
    intro pre l post heq
    have hmem : (l, pre.length) ∈ t.levels.zipIdx := by
      rw [List.mem_zipIdx_iff_getElem?, heq]
      simp
    exact hplaces _ hmem
  refine ⟨nonempty, fun l hl => by simpa using hlevels l hl, fun pre post heq => ?_,
    fun pre post s heq => ?_⟩
  · have hpos := placed pre _ post heq
    simp only [misplaced, heq, bne_eq_false_iff_eq, List.length_append, List.length_cons] at hpos
    exact List.eq_nil_of_length_eq_zero (by omega)
  · have hpos := placed pre _ post heq
    simp only [misplaced, bne_eq_false_iff_eq] at hpos
    exact List.eq_nil_of_length_eq_zero hpos

/-- A parsed topic is of the valid shape. -/
theorem valid_of_fromStr {s : String} {t : Topic} (h : fromStr s = .ok t) : t.Valid := by
  obtain ⟨parsed, valid⟩ := levels_of_fromStr h
  refine valid_of_isValid (fun none => split_ne_nil s ?_) valid
  have pieces := mapM_ok_forall₂ parsed
  rw [none] at pieces
  exact List.forall₂_nil_right_iff.mp pieces

/-! ## Printing and parsing back -/

theorem not_mem_of_mem_splitOn {c : Char} :
    ∀ {cs piece : List Char}, piece ∈ cs.splitOn c → c ∉ piece := by
  intro cs
  induction cs with
  | nil =>
      intro piece hpiece
      rw [List.splitOn_nil, List.mem_singleton] at hpiece
      simp [hpiece]
  | cons d cs ih =>
      intro piece hpiece
      rw [List.splitOn_cons_eq_if_modifyHead] at hpiece
      split at hpiece
      · cases hpiece with
        | head => simp
        | tail _ hpiece => exact ih hpiece
      · rename_i hd
        cases hs : cs.splitOn c with
        | nil => exact absurd hs (List.splitOn_ne_nil _ _)
        | cons first rest =>
            rw [hs, List.modifyHead_cons] at hpiece
            rw [hs] at ih
            cases hpiece with
            | head =>
                have hfirst := ih List.mem_cons_self
                simpa [hfirst] using fun h : c = d => hd (by simp [h])
            | tail _ hpiece => exact ih (List.mem_cons_of_mem _ hpiece)

/-- The text of the level parses to it and stays within one level. -/
structure Printed (l : Level) : Prop where
  parses : Level.fromStr l.toString = .ok l
  no_slash : '/' ∉ l.toString.toList

theorem toString_of_level_fromStr {s : String} {l : Level} (h : Level.fromStr s = .ok l) :
    l.toString = s := by
  unfold Level.fromStr at h
  split_ifs at h with h1 h2 h3 h4 h5 <;> cases h <;> simp_all [Level.toString]

theorem mapM_ok_mem {f : String → Except TopicError Level} {xs : List String} {ys : List Level}
    (h : xs.mapM f = .ok ys) : ∀ y ∈ ys, ∃ x ∈ xs, f x = .ok y := by
  have pieces := mapM_ok_forall₂ h
  clear h
  induction pieces with
  | nil => exact fun y hy => absurd hy List.not_mem_nil
  | cons hx _ ih =>
      intro y hy
      rcases List.mem_cons.mp hy with rfl | hy
      · exact ⟨_, List.mem_cons_self, hx⟩
      · obtain ⟨x', hx', parsed⟩ := ih y hy
        exact ⟨x', List.mem_cons_of_mem _ hx', parsed⟩

/-- Every level of a parsed topic prints as the text it was read from. -/
theorem printed_of_fromStr {s : String} {t : Topic} (h : fromStr s = .ok t) :
    ∀ l ∈ t.levels, Printed l := by
  intro l hl
  obtain ⟨piece, hpiece, heq⟩ := mapM_ok_mem (levels_of_fromStr h).1 l hl
  have text := toString_of_level_fromStr heq
  refine ⟨by rw [text, heq], ?_⟩
  rw [text]
  obtain ⟨cs, hcs, rfl⟩ := List.mem_map.mp hpiece
  rw [String.toList_ofList]
  exact not_mem_of_mem_splitOn hcs

/-- A text that is parsed to levels is the texts of these levels. -/
theorem mapM_ok_toString {xs : List String} {ys : List Level}
    (h : xs.mapM Level.fromStr = .ok ys) : ys.map Level.toString = xs := by
  have pieces := mapM_ok_forall₂ h
  clear h
  induction pieces with
  | nil => rfl
  | cons hx _ ih => rw [List.map_cons, toString_of_level_fromStr hx, ih]

/-- A parsed topic prints as the text it was read from. -/
theorem toString_of_fromStr {s : String} {t : Topic} (h : fromStr s = .ok t) : t.toString = s := by
  rw [toString, mapM_ok_toString (levels_of_fromStr h).1, ← String.toList_inj,
    String.toList_intercalate, split, List.map_map]
  have texts : String.toList ∘ String.ofList = id := funext fun cs => String.toList_ofList
  rw [texts, List.map_id]
  exact List.intercalate_splitOn _

/-- `Topic::is_valid` accepts every topic of the valid shape. -/
theorem isValid_of_valid {t : Topic} (h : t.Valid) : t.isValid = true := by
  unfold isValid
  rw [Option.isNone_iff_eq_none, Option.or_eq_none_iff, List.findIdx?_eq_none_iff,
    List.findIdx?_eq_none_iff]
  refine ⟨fun l hl => by simp [h.levels_valid l hl], ?_⟩
  rintro ⟨l, pos⟩ hmem
  have hget? : t.levels[pos]? = some l := List.mem_zipIdx_iff_getElem?.mp hmem
  obtain ⟨hpos, hget⟩ := List.getElem?_eq_some_iff.mp hget?
  have parts : t.levels = t.levels.take pos ++ l :: t.levels.drop (pos + 1) := by
    rw [← hget, List.getElem_cons_drop, List.take_append_drop]
  have hlen : (t.levels.take pos).length = pos := by
    rw [List.length_take]
    omega
  cases l with
  | multiWildcard =>
      have hnil := h.multi_last _ _ parts
      rw [List.drop_eq_nil_iff] at hnil
      simp only [misplaced, bne_eq_false_iff_eq]
      omega
  | metadata s =>
      have hnil := h.metadata_first _ _ s parts
      rw [hnil] at hlen
      simp [misplaced, ← hlen]
  | normal s => rfl
  | blank => rfl
  | singleWildcard => rfl

/-- A topic of the valid shape whose levels print as themselves is what some
text parses to. -/
theorem exists_fromStr {t : Topic} (valid : t.Valid) (printed : ∀ l ∈ t.levels, Printed l) :
    ∃ s, fromStr s = .ok t := by
  have pieces : ((t.levels.map fun l => l.toString.toList).map String.ofList).mapM Level.fromStr =
      .ok t.levels := by
    have all : ∀ ls : List Level, (∀ l ∈ ls, Printed l) →
        ((ls.map fun l => l.toString.toList).map String.ofList).mapM Level.fromStr =
          (.ok ls : Except TopicError (List Level)) := by
      intro ls
      induction ls with
      | nil => exact fun _ => rfl
      | cons l ls ih =>
          intro h
          have hl := (h l List.mem_cons_self).parses
          have hls := ih fun l' hl' => h l' (List.mem_cons_of_mem _ hl')
          rw [List.map_cons, List.map_cons, List.mapM_cons, String.ofList_toList, hl, hls]
          rfl
    exact all t.levels printed
  refine ⟨String.ofList (['/'].intercalate (t.levels.map fun l => l.toString.toList)), ?_⟩
  have split_eq : split (String.ofList (['/'].intercalate
      (t.levels.map fun l => l.toString.toList))) =
        (t.levels.map fun l => l.toString.toList).map String.ofList := by
    rw [split, String.toList_ofList, List.splitOn_intercalate]
    · intro cs hcs
      obtain ⟨l, hl, rfl⟩ := List.mem_map.mp hcs
      exact (printed l hl).no_slash
    · simpa using valid.nonempty
  rw [fromStr, split_eq, pieces]
  change (if isValid t then Except.ok t else _) = .ok t
  rw [if_pos (isValid_of_valid valid)]

end Topic

end OxiMqtt

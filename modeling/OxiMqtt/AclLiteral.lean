import OxiMqtt.AclPlaceholders
import OxiMqtt.Lib.Placeholders
import OxiMqtt.TopicMatch

/-!
# What a placeholder entry stands for

A placeholder entry is a topic filter in which `%c` and `%u` stand for the client's id and its user
name: a level that is `+` or `#` is a wildcard, any other is the text of one level of a topic, with
the two names in their places (`LiteralMatch`).  The source replaces the placeholders in the text of
the entry, the one after the other, and parses what comes out as a filter.

The two differ where a name brings a `%u` about, which the second replacement takes for one of the
entry's, and where a level becomes a wildcard or several levels by it.

* `literalText_pieces`: the literal text of an entry, level by level.
* `Fits.fromStr`: where the literal reading matches anything, the literal text is a filter.
* `substitutes_literally_iff`: when an entry matches what it stands for.
* `client_id_as_wildcard`: three clients for which it does not.
-/

namespace OxiMqtt.Acl

open Collections Placeholders
open Topic (Printed)

/-! ## The literal reading -/

/-- A text with the client id and the user name in the place of its `%c` and `%u`, of both at
once. -/
def literalText (clientId : ClientId) (username : Option UserName) (text : String) : String :=
  String.ofList (fillIn (username.getD "").toList (marks '%' 'c' 'u' clientId.toList text.toList))

/-- A level of a placeholder entry. -/
inductive Pattern : Type
  | single
  | multi
  | text (s : String)
  deriving DecidableEq, Repr

def patternOf (clientId : ClientId) (username : Option UserName) (piece : String) : Pattern :=
  if piece = "+" then .single
  else if piece = "#" then .multi
  else .text (literalText clientId username piece)

/-- The levels of an entry, for a client. -/
def patterns (clientId : ClientId) (username : Option UserName) (entry : String) : List Pattern :=
  (Topic.split entry).map (patternOf clientId username)

/-- The levels of the entry walk along a path.  A text is the text of a level of a topic, never that
of a wildcard. -/
inductive Fits : List Pattern → List Level → Prop
  | nil : Fits [] []
  | multi {p : List Level} : Fits [.multi] p
  | single {f : List Pattern} {p : List Level} {l : Level} :
      Fits f p → Fits (.single :: f) (l :: p)
  | text {f : List Pattern} {p : List Level} {l : Level} :
      l.isWildcard = false → Fits f p → Fits (.text l.toString :: f) (l :: p)

/-- The entry starts with a wildcard. -/
def LeadingPattern (f : List Pattern) : Prop := f.head? = some .single ∨ f.head? = some .multi

/-- The topic is one that the entry stands for, with system topics isolated as everywhere. -/
def LiteralMatch (clientId : ClientId) (username : Option UserName) (entry s : String) : Prop :=
  Fits (patterns clientId username entry) (parseOrEmpty s).levels ∧
    ¬ (LeadingPattern (patterns clientId username entry) ∧ LeadingDollar (parseOrEmpty s).levels)

/-! ## The entry as it is built -/

/-- A rule without topics, after the build task of the client has instantiated the entry in it. -/
def builtTopics (clientId : ClientId) (username : Option UserName) (entry : String) : Topics :=
  let rule : Rule := { access := .allow, users := [], control := .all, topics := .empty }
  match rule.addTopicFilter (instantiateEntry clientId username entry) clientId with
  | .ok rule' => rule'.topics
  | .error _ => rule.topics

/-- The check of a topic against the entry. -/
def entryMatches (clientId : ClientId) (username : Option UserName) (entry s : String) : Bool :=
  (builtTopics clientId username entry).isMatch (parseOrEmpty s) s clientId

/-- The entry matches what it stands for: the text that is parsed has each placeholder of the entry
replaced and no other, and the topics are those of the literal reading. -/
structure SubstitutesLiterally (clientId : ClientId) (username : Option UserName)
    (entry : String) : Prop where
  text : instantiateEntry clientId username entry = literalText clientId username entry
  topics : ∀ s, entryMatches clientId username entry s = true ↔
    LiteralMatch clientId username entry s

/-- The text is one level, and no wildcard. -/
def OneLevel (text : String) : Prop := '/' ∉ text.toList ∧ text ≠ "+" ∧ text ≠ "#"

/-- The client id brings no `%u` about, or the user name is just that, and where the literal text is
a filter at all, every level that is no wildcard of the entry remains one level, and no wildcard. -/
structure StaysLiteral (clientId : ClientId) (username : Option UserName) (entry : String) :
    Prop where
  names : ¬ Arises '%' 'u' (marks '%' 'c' 'u' clientId.toList entry.toList) ∨ username = some "%u"
  levels : ∀ f, Topic.fromStr (literalText clientId username entry) = .ok f →
    ∀ piece ∈ Topic.split entry, piece = "+" ∨ piece = "#" ∨
      OneLevel (literalText clientId username piece)

/-! ## The texts -/

theorem replaceFrom_eq_replacePair (k : Char) (text cs : List Char) :
    replaceFrom ['%', k] text 0 cs = replacePair '%' k text cs := by
  induction cs using replacePair.induct '%' k with
  | case1 a b cs found ih =>
      rw [replacePair, if_pos found, replaceFrom, found.1, found.2, if_pos (by simp), ← ih]
      rfl
  | case2 a b cs other ih =>
      rw [replacePair, if_neg other, replaceFrom, if_neg, ih]
      intro found
      have both : '%' = a ∧ k = b := by simpa using found
      exact other ⟨both.1.symm, both.2.symm⟩
  | case3 cs short =>
      rcases cs with _ | ⟨c, _ | ⟨d, cs⟩⟩
      · rfl
      · rw [replaceFrom, if_neg (by simp), replaceFrom]
        rfl
      · exact absurd rfl (short c d cs)

section

variable {clientId : ClientId} {username : Option UserName} {entry : String}

/-- The two replacements are the literal text exactly when the client id brings no `%u` about, or
the user name is just that. -/
theorem instantiateEntry_eq_iff :
    instantiateEntry clientId username entry = literalText clientId username entry ↔
      ¬ Arises '%' 'u' (marks '%' 'c' 'u' clientId.toList entry.toList) ∨
        username = some "%u" := by
  have twice : instantiateEntry clientId username entry = String.ofList
      (replacePair '%' 'u' (username.getD "").toList
        (replacePair '%' 'c' clientId.toList entry.toList)) := by
    unfold instantiateEntry replace phC phU
    cases username <;> simp only [replaceFrom_eq_replacePair, String.toList_ofList] <;> rfl
  have itself : (username.getD "").toList = ['%', 'u'] ↔ username = some "%u" := by
    cases username with
    | none => simp
    | some un => rw [Option.getD_some, Option.some.injEq, ← String.toList_inj]; rfl
  rw [twice, literalText, String.ofList_inj, replace_twice_eq_iff (by decide), itself]

/-- The literal text is that of its levels. -/
theorem literalText_pieces :
    (literalText clientId username entry).toList =
      ['/'].intercalate (((Topic.split entry).map (literalText clientId username)).map
        String.toList) := by
  have parts := @fillIn_intercalate '%' 'c' 'u' '/' (by decide) (by decide) (by decide)
    clientId.toList (username.getD "").toList (entry.toList.splitOn '/')
  rw [List.intercalate_splitOn] at parts
  rw [literalText, String.toList_ofList, parts, Topic.split, List.map_map, List.map_map]
  refine congrArg (List.intercalate ['/']) (List.map_congr_left fun piece _ => ?_)
  rw [Function.comp_apply, Function.comp_apply, literalText, String.toList_ofList,
    String.toList_ofList]

end

/-! ## The entry as a filter -/

/-- What a level of the entry is as a level of a filter. -/
def Pattern.Reads : Pattern → Level → Prop
  | .single, l => l = .singleWildcard
  | .multi, l => l = .multiWildcard
  | .text s, l => l.isWildcard = false ∧ l.toString = s

/-- A filter that the levels of an entry are. -/
structure FilterOf (f : List Pattern) (g : List Level) : Prop where
  levels : List.Forall₂ Pattern.Reads f g
  valid : ∀ l ∈ g, l.isValid = true
  printed : ∀ l ∈ g, Printed l
  multi_last : MultiLast g

theorem printed_single : Printed .singleWildcard := ⟨rfl, by decide⟩

theorem printed_multi : Printed .multiWildcard := ⟨rfl, by decide⟩

theorem FilterOf.nil : FilterOf [] [] where
  levels := .nil
  valid := fun _ h => absurd h List.not_mem_nil
  printed := fun _ h => absurd h List.not_mem_nil
  multi_last := by
    intro pre post split
    cases pre <;> cases split

theorem FilterOf.cons {f : List Pattern} {g : List Level} {x : Pattern} {l : Level}
    (h : FilterOf f g) (reads : x.Reads l) (valid : l.isValid = true) (printed : Printed l)
    (not_multi : l ≠ .multiWildcard) : FilterOf (x :: f) (l :: g) where
  levels := .cons reads h.levels
  valid := List.forall_mem_cons.mpr ⟨valid, h.valid⟩
  printed := List.forall_mem_cons.mpr ⟨printed, h.printed⟩
  multi_last := by
    intro pre post split
    cases pre with
    | nil =>
        cases split
        exact absurd rfl not_multi
    | cons _ pre =>
        cases split
        exact h.multi_last pre post rfl

theorem FilterOf.tail {f : List Pattern} {g : List Level} {x : Pattern} {l : Level}
    (h : FilterOf (x :: f) (l :: g)) : FilterOf f g where
  levels := (List.forall₂_cons.mp h.levels).2
  valid := (List.forall_mem_cons.mp h.valid).2
  printed := (List.forall_mem_cons.mp h.printed).2
  multi_last := h.multi_last.tail

/-- The levels of an entry that walk along a path of a topic are a filter that walks along it. -/
theorem Fits.filter {f : List Pattern} {p : List Level} (fits : Fits f p)
    (valid : ∀ l ∈ p, l.isValid = true) (printed : ∀ l ∈ p, Printed l) :
    ∃ g, FilterOf f g ∧ Accepts g p := by
  induction fits with
  | nil => exact ⟨[], .nil, .nil⟩
  | multi =>
      refine ⟨[.multiWildcard], ⟨.cons rfl .nil, ?_, ?_, ?_⟩, .multi⟩
      · simp [Level.isValid]
      · simpa using printed_multi
      · intro pre post split
        cases pre with
        | nil => cases split; rfl
        | cons _ pre => cases pre <;> cases split
  | single _ ih =>
      obtain ⟨g, h, accepts⟩ := ih (List.forall_mem_cons.mp valid).2
        (List.forall_mem_cons.mp printed).2
      exact ⟨_, h.cons rfl rfl printed_single (by decide), .single accepts⟩
  | text literal _ ih =>
      obtain ⟨validHead, valid⟩ := List.forall_mem_cons.mp valid
      obtain ⟨printedHead, printed⟩ := List.forall_mem_cons.mp printed
      obtain ⟨g, h, accepts⟩ := ih valid printed
      refine ⟨_, h.cons ⟨literal, rfl⟩ validHead printedHead ?_, .precise accepts⟩
      intro multi
      rw [multi] at literal
      cases literal

/-- A level is known by its text. -/
theorem eq_of_toString_eq {l l' : Level} (printed : Printed l) (printed' : Printed l')
    (same : l.toString = l'.toString) : l = l' := by
  have parsed := printed.parses
  rw [same, printed'.parses] at parsed
  cases parsed
  rfl

theorem FilterOf.fits {f : List Pattern} {g p : List Level} (h : FilterOf f g)
    (accepts : Accepts g p) : Fits f p := by
  induction accepts generalizing f with
  | nil =>
      cases h.levels
      exact .nil
  | multi =>
      have levels := h.levels
      cases levels with
      | @cons x _ _ _ reads rest =>
          cases rest
          cases x with
          | multi => exact .multi
          | single => cases reads
          | text s => cases reads.1
  | single _ ih =>
      have levels := h.levels
      cases levels with
      | @cons x _ _ _ reads rest =>
          cases x with
          | single => exact .single (ih h.tail)
          | multi => cases reads
          | text s => cases reads.1
  | @precise _ _ l _ ih =>
      have levels := h.levels
      cases levels with
      | @cons x _ f' _ reads rest =>
          cases x with
          | single => exact .single (ih h.tail)
          | multi =>
              -- nothing is behind a `#`
              cases reads
              have last := h.multi_last.nil_of_multi
              subst last
              cases rest
              exact .multi
          | text s =>
              obtain ⟨literal, text⟩ := reads
              subst text
              exact .text literal (ih h.tail)

theorem FilterOf.leading_iff {f : List Pattern} {g : List Level} (h : FilterOf f g) :
    LeadingPattern f ↔ LeadingWildcard g := by
  have levels := h.levels
  cases levels with
  | nil => simp [LeadingPattern, LeadingWildcard]
  | @cons x l _ _ reads _ =>
      rw [leadingWildcard_cons]
      cases x with
      | single =>
          cases reads
          simp [LeadingPattern, Level.isWildcard]
      | multi =>
          cases reads
          simp [LeadingPattern, Level.isWildcard]
      | text s => simp [LeadingPattern, reads.1]

/-- A `$` level that walks along a path is one of the path, in the same place. -/
theorem metadata_of_accepts {pre post p : List Level} {s : String}
    (accepts : Accepts (pre ++ .metadata s :: post) p) :
    ∃ pre' post', p = pre' ++ .metadata s :: post' ∧ pre'.length = pre.length := by
  induction pre generalizing p with
  | nil =>
      cases accepts with
      | precise _ => exact ⟨[], _, rfl, rfl⟩
  | cons l pre ih =>
      have walk : ∀ {l' : Level} {p' : List Level}, Accepts (pre ++ .metadata s :: post) p' →
          ∃ pre' post', l' :: p' = pre' ++ .metadata s :: post' ∧
            pre'.length = (l :: pre).length := by
        intro l' p' rest
        obtain ⟨pre', post', rfl, length⟩ := ih rest
        exact ⟨l' :: pre', post', rfl, congrArg (· + 1) length⟩
      generalize split : (l :: pre) ++ .metadata s :: post = g at accepts
      cases accepts with
      | nil => cases split
      | multi => cases pre <;> cases split
      | single rest =>
          cases split
          exact walk rest
      | precise rest =>
          cases split
          exact walk rest

section

variable {clientId : ClientId} {username : Option UserName} {entry : String}

theorem literalText_plus : literalText clientId username "+" = "+" := rfl

theorem literalText_hash : literalText clientId username "#" = "#" := rfl

/-- A level of a filter that is a level of the entry has its literal text. -/
theorem toString_of_reads {piece : String} {l : Level}
    (reads : (patternOf clientId username piece).Reads l) :
    l.toString = literalText clientId username piece := by
  unfold patternOf at reads
  split at reads
  · rename_i plus
    cases reads
    rw [plus, literalText_plus]
    rfl
  · split at reads
    · rename_i hash
      cases reads
      rw [hash, literalText_hash]
      rfl
    · exact reads.2

/-- A level whose text is the literal text of a level of the entry, where that remains one level. -/
theorem reads_of_toString {piece : String} {l : Level} (printed : Printed l)
    (text : l.toString = literalText clientId username piece)
    (kept : piece = "+" ∨ piece = "#" ∨ OneLevel (literalText clientId username piece)) :
    (patternOf clientId username piece).Reads l := by
  unfold patternOf
  split
  · rename_i plus
    rw [plus, literalText_plus] at text
    exact eq_of_toString_eq printed printed_single text
  · rename_i not_plus
    split
    · rename_i hash
      rw [hash, literalText_hash] at text
      exact eq_of_toString_eq printed printed_multi text
    · rename_i not_hash
      obtain ⟨-, no_plus, no_hash⟩ := (kept.resolve_left not_plus).resolve_left not_hash
      refine ⟨?_, text⟩
      rw [← text] at no_plus no_hash
      cases l with
      | singleWildcard => exact absurd rfl no_plus
      | multiWildcard => exact absurd rfl no_hash
      | normal _ => rfl
      | metadata _ => rfl
      | blank => rfl

/-- Levels with the literal texts of the entry's. -/
theorem toString_eq_iff {g : List Level} :
    g.map Level.toString = (Topic.split entry).map (literalText clientId username) ↔
      List.Forall₂ (fun piece l => l.toString = literalText clientId username piece)
        (Topic.split entry) g := by
  rw [← List.forall₂_eq_eq_eq, List.forall₂_map_left_iff, List.forall₂_map_right_iff]
  exact ⟨fun h => h.flip, fun h => h.flip⟩

theorem FilterOf.texts {g : List Level} (h : FilterOf (patterns clientId username entry) g) :
    g.map Level.toString = (Topic.split entry).map (literalText clientId username) :=
  toString_eq_iff.mpr
    ((List.forall₂_map_left_iff.mp h.levels).imp fun _ _ reads => toString_of_reads reads)

/-- A filter that the levels of the entry are is what the literal text parses to. -/
theorem FilterOf.fromStr {g p : List Level} (h : FilterOf (patterns clientId username entry) g)
    (accepts : Accepts g p)
    (first : ∀ pre post s, p = pre ++ .metadata s :: post → pre = []) :
    Topic.fromStr (literalText clientId username entry) = .ok ⟨g⟩ := by
  have valid : Topic.Valid ⟨g⟩ := by
    refine ⟨?_, h.valid, h.multi_last, fun pre post s split => ?_⟩
    · rintro rfl
      have pieces := h.texts
      exact Topic.split_ne_nil entry (List.map_eq_nil_iff.mp pieces.symm)
    · subst split
      obtain ⟨pre', post', split', length⟩ := metadata_of_accepts accepts
      rw [first pre' post' s split'] at length
      exact List.eq_nil_of_length_eq_zero length.symm
  obtain ⟨s, parsed⟩ := Topic.exists_fromStr valid h.printed
  have text : s = literalText clientId username entry := by
    rw [← Topic.toString_of_fromStr parsed, ← String.toList_inj, literalText_pieces, Topic.toString,
      String.toList_intercalate, h.texts]
    rfl
  rw [← text, parsed]

/-- Where every level of the entry remains one, the filter that the literal text parses to is one
that the levels of the entry are. -/
theorem filterOf_of_fromStr {f : Topic}
    (parsed : Topic.fromStr (literalText clientId username entry) = .ok f)
    (kept : ∀ piece ∈ Topic.split entry, piece = "+" ∨ piece = "#" ∨
      OneLevel (literalText clientId username piece)) :
    FilterOf (patterns clientId username entry) f.levels := by
  have valid := Topic.valid_of_fromStr parsed
  have printed := Topic.printed_of_fromStr parsed
  have pieces : Topic.split (literalText clientId username entry) =
      (Topic.split entry).map (literalText clientId username) := by
    rw [Topic.split, literalText_pieces, List.splitOn_intercalate, List.map_map]
    · have back : String.ofList ∘ String.toList = id := funext fun s => String.ofList_toList
      rw [back, List.map_id]
    · intro part hpart
      obtain ⟨text, htext, rfl⟩ := List.mem_map.mp hpart
      obtain ⟨piece, hpiece, rfl⟩ := List.mem_map.mp htext
      rcases kept piece hpiece with rfl | rfl | one
      · rw [literalText_plus]
        decide
      · rw [literalText_hash]
        decide
      · exact one.1
    · simpa using Topic.split_ne_nil entry
  refine ⟨?_, valid.levels_valid, printed, valid.multi_last⟩
  have texts := toString_eq_iff.mp ((split_of_fromStr parsed).symm.trans pieces)
  unfold patterns
  rw [List.forall₂_map_left_iff, List.forall₂_iff_zip]
  refine ⟨texts.length_eq, fun {piece l} both => ?_⟩
  obtain ⟨hpiece, hl⟩ := List.of_mem_zip both
  exact reads_of_toString (printed l hl) (List.forall₂_zip texts both) (kept piece hpiece)

/-- Every text that walks along the levels of a topic is one level of it. -/
theorem Fits.oneLevel {f : List Pattern} {p : List Level} (fits : Fits f p)
    (printed : ∀ l ∈ p, Printed l) : ∀ s, .text s ∈ f → OneLevel s := by
  induction fits with
  | nil => exact fun s h => absurd h List.not_mem_nil
  | multi =>
      intro s h
      cases List.mem_singleton.mp h
  | single _ ih =>
      intro s h
      refine ih (List.forall_mem_cons.mp printed).2 s ?_
      exact (List.mem_cons.mp h).resolve_left (by simp)
  | @text _ _ l literal _ ih =>
      intro s h
      rcases List.mem_cons.mp h with eq | h
      · cases eq
        have shown := (List.forall_mem_cons.mp printed).1
        refine ⟨shown.no_slash, fun plus => ?_, fun hash => ?_⟩
        · rw [eq_of_toString_eq shown printed_single plus] at literal
          cases literal
        · rw [eq_of_toString_eq shown printed_multi hash] at literal
          cases literal
      · exact ih (List.forall_mem_cons.mp printed).2 s h

/-! ## The check -/

/-- The entry is checked against the filter that its instance parses to. -/
theorem entryMatches_iff (s : String) :
    entryMatches clientId username entry s = true ↔
      ∃ f, Topic.fromStr (instantiateEntry clientId username entry) = .ok f ∧
        Admits f.levels (parseOrEmpty s).levels := by
  unfold entryMatches
  rw [Topics.isMatch_iff (isValid_of_mem_parseOrEmpty s)]
  unfold builtTopics Rule.addTopicFilter
  cases parsed : Topic.fromStr (instantiateEntry clientId username entry) with
  | error e =>
      constructor
      · rintro (all | eq | ⟨f, tag, htag, -⟩)
        · cases all
        · cases eq
        · change tag ∈ Node.default.valuesAt f.levels at htag
          rw [Node.valuesAt_default] at htag
          exact absurd htag (OrdSet.not_mem_empty tag)
      · rintro ⟨f, h, -⟩
        cases h
  | ok f =>
      have inserted : ∀ (g : Topic) (tag : Tag),
          tag ∈ (Node.default.insert f (clientId : Tag)).1.valuesAt g.levels ↔
            g = f ∧ tag = clientId := by
        intro g tag
        rw [Node.mem_valuesAt_insert, Node.valuesAt_default]
        exact or_iff_left (OrdSet.not_mem_empty tag)
      constructor
      · rintro (all | eq | ⟨g, tag, htag, -, admits⟩)
        · cases all
        · cases eq
        · rw [← ((inserted g tag).mp htag).1]
          exact ⟨g, rfl, admits⟩
      · rintro ⟨g, h, admits⟩
        cases h
        exact .inr (.inr ⟨f, clientId, (inserted f clientId).mpr ⟨rfl, rfl⟩, by simp [tagMatches],
          admits⟩)

theorem printed_parseOrEmpty (s : String) : ∀ l ∈ (parseOrEmpty s).levels, Printed l := by
  unfold parseOrEmpty
  cases h : Topic.fromStr s with
  | ok t => exact Topic.printed_of_fromStr h
  | error e => exact nofun

theorem metadata_first_parseOrEmpty (s : String) :
    ∀ pre post m, (parseOrEmpty s).levels = pre ++ .metadata m :: post → pre = [] := by
  unfold parseOrEmpty
  cases h : Topic.fromStr s with
  | ok t => exact (Topic.valid_of_fromStr h).metadata_first
  | error e =>
      intro pre post m split
      cases pre <;> cases split

/-- What the entry stands for, it matches where the literal text is parsed. -/
theorem LiteralMatch.admits {s : String} (h : LiteralMatch clientId username entry s) :
    ∃ f, Topic.fromStr (literalText clientId username entry) = .ok f ∧
      Admits f.levels (parseOrEmpty s).levels := by
  obtain ⟨g, filter, accepts⟩ :=
    h.1.filter (isValid_of_mem_parseOrEmpty s) (printed_parseOrEmpty s)
  refine ⟨⟨g⟩, filter.fromStr accepts (metadata_first_parseOrEmpty s), accepts, ?_⟩
  rw [← filter.leading_iff]
  exact h.2

/-- A filter matches its own text. -/
theorem admits_self {f : Topic} {s : String} (parsed : Topic.fromStr s = .ok f) :
    Admits f.levels (parseOrEmpty s).levels := by
  have self : parseOrEmpty s = f := by
    unfold parseOrEmpty
    rw [parsed]
  rw [self]
  refine ⟨Accepts.refl _, ?_⟩
  rintro ⟨⟨l, head, wild⟩, l', head', dollar⟩
  rw [head] at head'
  cases head'
  rw [Level.dollar_of_isWildcard wild] at dollar
  cases dollar

/-- An entry whose literal text is parsed matches what it stands for exactly when each of its levels
remains one, or the text is no filter. -/
theorem topics_iff :
    (∀ s, (∃ f, Topic.fromStr (literalText clientId username entry) = .ok f ∧
        Admits f.levels (parseOrEmpty s).levels) ↔ LiteralMatch clientId username entry s) ↔
      ∀ f, Topic.fromStr (literalText clientId username entry) = .ok f →
        ∀ piece ∈ Topic.split entry, piece = "+" ∨ piece = "#" ∨
          OneLevel (literalText clientId username piece) := by
  constructor
  · intro same f parsed piece hpiece
    -- the text of the filter is one of its topics
    have stands := (same _).mp ⟨f, parsed, admits_self parsed⟩
    by_cases plus : piece = "+"
    · exact .inl plus
    by_cases hash : piece = "#"
    · exact .inr (.inl hash)
    refine .inr (.inr (stands.1.oneLevel (printed_parseOrEmpty _) _ ?_))
    refine List.mem_map.mpr ⟨piece, hpiece, ?_⟩
    rw [patternOf, if_neg plus, if_neg hash]
  · intro kept s
    refine ⟨?_, LiteralMatch.admits⟩
    rintro ⟨f, parsed, accepts, isolated⟩
    have filter := filterOf_of_fromStr parsed (kept f parsed)
    refine ⟨filter.fits accepts, ?_⟩
    rw [filter.leading_iff]
    exact isolated

/-- An entry matches what it stands for exactly when the names of the client leave it as it is. -/
theorem substitutes_literally_iff (clientId : ClientId) (username : Option UserName)
    (entry : String) :
    SubstitutesLiterally clientId username entry ↔ StaysLiteral clientId username entry := by
  constructor
  · rintro ⟨text, topics⟩
    refine ⟨instantiateEntry_eq_iff.mp text, topics_iff.mp fun s => ?_⟩
    rw [← topics s, entryMatches_iff, text]
  · rintro ⟨names, levels⟩
    have text := instantiateEntry_eq_iff.mpr names
    refine ⟨text, fun s => ?_⟩
    rw [entryMatches_iff, text]
    exact topics_iff.mpr levels s

end

/-! ## Three clients -/

theorem fits_text_iff {f : List Pattern} {p : List Level} {l : Level} {s : String} :
    Fits (.text s :: f) (l :: p) ↔ l.isWildcard = false ∧ l.toString = s ∧ Fits f p := by
  constructor
  · intro fits
    cases fits with
    | text literal rest => exact ⟨literal, rfl, rest⟩
  · rintro ⟨literal, rfl, rest⟩
    exact .text literal rest

/-- A client whose id is `+`, one whose id is `%u`, and one without a user name are let in where
their entries do not stand for it. -/
theorem client_id_as_wildcard :
    (entryMatches "+" none "sensor/%c/ctrl" "sensor/light/ctrl" = true ∧
      ¬ LiteralMatch "+" none "sensor/%c/ctrl" "sensor/light/ctrl") ∧
    (entryMatches "%u" (some "boss") "inbox/%c" "inbox/boss" = true ∧
      ¬ LiteralMatch "%u" (some "boss") "inbox/%c" "inbox/boss") ∧
    (entryMatches "light" none "room/+%u" "room/1" = true ∧
      ¬ LiteralMatch "light" none "room/+%u" "room/1") := by
  refine ⟨⟨by decide +kernel, fun h => ?_⟩, ⟨by decide +kernel, fun h => ?_⟩,
    by decide +kernel, fun h => ?_⟩
  · exact (h.1.oneLevel (printed_parseOrEmpty _) "+" (by decide +kernel)).2.1 rfl
  · have levels : Fits [.text "inbox", .text "%u"] [.normal "inbox", .normal "boss"] := h.1
    have last := (fits_text_iff.mp (fits_text_iff.mp levels).2.2).2.1
    exact absurd last (by decide)
  · exact (h.1.oneLevel (printed_parseOrEmpty _) "+" (by decide +kernel)).2.1 rfl

end OxiMqtt.Acl

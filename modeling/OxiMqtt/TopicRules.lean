import OxiMqtt.Topic

/-!
# The MQTT matching rules

What it means for a topic filter to match a topic name, stated on levels and
independently of the code that decides it.

* `Matches f t`: `+` matches exactly one level (a blank one included), a trailing
  `#` matches the parent and any number of further levels, and any other level of
  the filter matches only the equal level.
* `MqttMatches f t` adds the isolation of system topics: a filter whose first
  level is a wildcard does not match a topic whose first level starts with `$`.
* `Accepts f p` is the same walk with `p` read as plain levels: a wildcard in `p`
  is a level like any other.  It is what a matcher decides when it is handed a
  subscription filter in the place of a topic name; on a wildcard-free `p` it is
  `Matches` (`accepts_iff_matches`).
* `Admits f p` is `Accepts` with the isolation of system topics; on a topic name
  it is `MqttMatches` (`admits_iff_mqttMatches`).
-/

namespace OxiMqtt

/-- The level-by-level rule for a filter and a topic name. -/
inductive Matches : List Level → List Level → Prop
  | nil : Matches [] []
  | multi {t : List Level} : Matches [.multiWildcard] t
  | single {f t : List Level} {l : Level} : Matches f t → Matches (.singleWildcard :: f) (l :: t)
  | literal {f t : List Level} {l : Level} :
      l.isWildcard = false → Matches f t → Matches (l :: f) (l :: t)

/-- The level-by-level walk of a filter along a path whose own wildcards are
read as plain levels. -/
inductive Accepts : List Level → List Level → Prop
  | nil : Accepts [] []
  | multi {p : List Level} : Accepts [.multiWildcard] p
  | single {f p : List Level} {l : Level} : Accepts f p → Accepts (.singleWildcard :: f) (l :: p)
  | precise {f p : List Level} {l : Level} : Accepts f p → Accepts (l :: f) (l :: p)

/-- The filter starts with `+` or `#`. -/
def LeadingWildcard (f : List Level) : Prop := ∃ l, f.head? = some l ∧ l.isWildcard = true

/-- The topic starts with a level whose text starts with `$`. -/
def LeadingDollar (t : List Level) : Prop := ∃ l, t.head? = some l ∧ l.dollar = true

/-- A topic filter matches a topic name under the MQTT rules. -/
def MqttMatches (f t : Topic) : Prop :=
  Matches f.levels t.levels ∧ ¬ (LeadingWildcard f.levels ∧ LeadingDollar t.levels)

/-- A topic filter is walked along a path whose wildcards are read as plain
levels, system topics isolated. -/
def Admits (f p : List Level) : Prop := Accepts f p ∧ ¬ (LeadingWildcard f ∧ LeadingDollar p)

/-- A topic name: no level is a wildcard. -/
def Topic.WildcardFree (t : Topic) : Prop := ∀ l ∈ t.levels, l.isWildcard = false

instance (t : Topic) : Decidable t.WildcardFree :=
  inferInstanceAs (Decidable (∀ l ∈ t.levels, l.isWildcard = false))

theorem Matches.accepts {f t : List Level} (h : Matches f t) : Accepts f t := by
  induction h with
  | nil => exact .nil
  | multi => exact .multi
  | single _ ih => exact .single ih
  | literal _ _ ih => exact .precise ih

/-- Along a path without wildcards the plain walk is the MQTT rule. -/
theorem accepts_iff_matches {f t : List Level} (free : ∀ l ∈ t, l.isWildcard = false) :
    Accepts f t ↔ Matches f t := by
  refine ⟨fun h => ?_, Matches.accepts⟩
  induction h with
  | nil => exact .nil
  | multi => exact .multi
  | single _ ih => exact .single (ih fun l hl => free l (List.mem_cons_of_mem _ hl))
  | precise _ ih =>
      exact .literal (free _ List.mem_cons_self)
        (ih fun l hl => free l (List.mem_cons_of_mem _ hl))

theorem Accepts.refl : ∀ p : List Level, Accepts p p
  | [] => .nil
  | _ :: p => .precise (refl p)

theorem admits_iff_mqttMatches {f t : Topic} (free : t.WildcardFree) :
    Admits f.levels t.levels ↔ MqttMatches f t := by
  rw [Admits, MqttMatches, accepts_iff_matches free]

/-! ## Inversion of the walk by the shape of the path -/

theorem accepts_nil_iff {f : List Level} : Accepts f [] ↔ f = [] ∨ f = [.multiWildcard] := by
  constructor
  · intro h
    cases h with
    | nil => exact .inl rfl
    | multi => exact .inr rfl
  · rintro (rfl | rfl)
    · exact .nil
    · exact .multi

theorem accepts_cons_iff {f p : List Level} {l : Level} :
    Accepts f (l :: p) ↔ f = [.multiWildcard] ∨
      (∃ f', f = .singleWildcard :: f' ∧ Accepts f' p) ∨ ∃ f', f = l :: f' ∧ Accepts f' p := by
  constructor
  · intro h
    cases h with
    | multi => exact .inl rfl
    | single h => exact .inr (.inl ⟨_, rfl, h⟩)
    | precise h => exact .inr (.inr ⟨_, rfl, h⟩)
  · rintro (rfl | ⟨f', rfl, h⟩ | ⟨f', rfl, h⟩)
    · exact .multi
    · exact .single h
    · exact .precise h

theorem leadingWildcard_cons {l : Level} {f : List Level} :
    LeadingWildcard (l :: f) ↔ l.isWildcard = true := by
  simp [LeadingWildcard]

theorem leadingDollar_cons {l : Level} {t : List Level} :
    LeadingDollar (l :: t) ↔ l.dollar = true := by
  simp [LeadingDollar]

/-! ## Filters -/

/-- The filter has `#` only in the last place. -/
def MultiLast (f : List Level) : Prop := ∀ pre post, f = pre ++ .multiWildcard :: post → post = []

theorem MultiLast.tail {l : Level} {f : List Level} (h : MultiLast (l :: f)) : MultiLast f :=
  fun pre post split => h (l :: pre) post (by rw [split]; rfl)

theorem MultiLast.nil_of_multi {f : List Level} (h : MultiLast (.multiWildcard :: f)) : f = [] :=
  h [] f rfl

/-- A literal level of the filter is the first level of the name. -/
theorem matches_literal_iff {l : Level} {f p : List Level} (literal : l.isWildcard = false) :
    Matches (l :: f) p ↔ ∃ p', p = l :: p' ∧ Matches f p' := by
  constructor
  · intro h
    cases h with
    | multi => cases literal
    | single _ => cases literal
    | literal _ rest => exact ⟨_, rfl, rest⟩
  · intro h
    rcases h with ⟨p', rfl, rest⟩
    exact .literal literal rest

end OxiMqtt

import Mathlib.Data.Set.Finite.Basic
import OxiMqtt.Acl

/-!
# Subscriptions granted by a rule

A rule checks a subscription filter by walking its topic tree with the filter in
the place of a topic name.  Whether the rule then covers every topic the
subscription delivers is a question of containment, which this walk does not
decide: a `+` of the rule takes the `#` of the subscription as one level, and
`a/+` grants `a/#`.

* `Admits.mqttMatches_trans`: a filter that admits a path without `#` matches
  every topic name the path matches, so only the last level of a subscription
  can go wrong.
* `Matches.accepts_of_instantiate`: a filter that matches a topic name with
  fresh levels in the place of the `+` levels of a path admits the path.
* `granted_topics_covered_iff`: the exact condition under which a rule of plain
  filters covers what it grants (`HashCovered`).
-/

namespace OxiMqtt

/-! ## Paths without `#` -/

/-- No level of the path is `#`. -/
def HashFree (p : List Level) : Prop := ∀ l ∈ p, l ≠ .multiWildcard

theorem hashFree_cons {l : Level} {p : List Level} :
    HashFree (l :: p) ↔ l ≠ .multiWildcard ∧ HashFree p := by
  simp [HashFree]

theorem hashFree_append {p r : List Level} : HashFree (p ++ r) ↔ HashFree p ∧ HashFree r := by
  simp [HashFree, or_imp, forall_and]

theorem hashFree_replicate (n : Nat) : HashFree (List.replicate n .singleWildcard) := by
  intro l hl
  rw [List.eq_of_mem_replicate hl]
  decide

theorem Accepts.matches_trans {g p t : List Level} (h : Accepts g p) (free : HashFree p)
    (ht : Matches p t) : Matches g t := by
  induction h generalizing t with
  | nil =>
      cases ht with
      | nil => exact .nil
  | multi => exact .multi
  | single _ ih =>
      rw [hashFree_cons] at free
      cases ht with
      | multi => exact absurd rfl free.1
      | single ht => exact .single (ih free.2 ht)
      | literal _ ht => exact .single (ih free.2 ht)
  | precise _ ih =>
      rw [hashFree_cons] at free
      cases ht with
      | multi => exact absurd rfl free.1
      | single ht => exact .single (ih free.2 ht)
      | literal hl ht => exact .literal hl (ih free.2 ht)

/-- A filter that admits a path without `#` matches every topic name the path
matches. -/
theorem Admits.mqttMatches_trans {g p t : Topic} (h : Admits g.levels p.levels)
    (free : HashFree p.levels) (ht : MqttMatches p t) : MqttMatches g t := by
  refine ⟨h.1.matches_trans free ht.1, fun ⟨wild, dollar⟩ => ?_⟩
  obtain ⟨hmatch, shown⟩ := ht
  obtain ⟨⟨p⟩, ⟨t⟩⟩ := p, t
  -- The head of `t` is the head of `p`, or stands under a wildcard of `p`.
  cases hmatch with
  | nil => simp [LeadingDollar] at dollar
  | multi => exact shown ⟨⟨_, rfl, rfl⟩, dollar⟩
  | single _ => exact shown ⟨⟨_, rfl, rfl⟩, dollar⟩
  | literal _ _ => exact h.2 ⟨wild, leadingDollar_cons.mpr (leadingDollar_cons.mp dollar)⟩

theorem Accepts.append {r q s p : List Level} (h : Accepts r q) (free : HashFree r)
    (hs : Accepts s p) : Accepts (r ++ s) (q ++ p) := by
  induction h with
  | nil => exact hs
  | multi => exact absurd rfl (hashFree_cons.mp free).1
  | single _ ih => exact .single (ih (hashFree_cons.mp free).2)
  | precise _ ih => exact .precise (ih (hashFree_cons.mp free).2)

/-- A filter shorter than the path it accepts ends in `#` and accepts every
longer path. -/
theorem Accepts.extend {g p : List Level} (h : Accepts g p) (short : g.length < p.length)
    (r : List Level) : Accepts g (p ++ r) := by
  induction h with
  | nil => exact absurd short (by simp)
  | multi => exact .multi
  | single _ ih => exact .single (ih (by simpa using short))
  | precise _ ih => exact .precise (ih (by simpa using short))

/-! ## Fresh topic names -/

/-- The path with `x` in the place of every `+`. -/
def instantiate (x : Level) (p : List Level) : List Level :=
  p.map fun l => if l = .singleWildcard then x else l

theorem matches_instantiate (x : Level) {p : List Level} (free : HashFree p) :
    Matches p (instantiate x p) := by
  induction p with
  | nil => exact .nil
  | cons l p ih =>
      rw [hashFree_cons] at free
      have rest := ih free.2
      cases l with
      | multiWildcard => exact absurd rfl free.1
      | singleWildcard => exact .single rest
      | normal s => exact .literal rfl rest
      | metadata s => exact .literal rfl rest
      | blank => exact .literal rfl rest

/-- A filter without the level `x` cannot tell `x` from `+`. -/
theorem Matches.accepts_of_instantiate {x : Level} {p g : List Level} (fresh : x ∉ g)
    (h : Matches g (instantiate x p)) : Accepts g p := by
  induction p generalizing g with
  | nil => exact h.accepts
  | cons l p ih =>
      change Matches g ((if l = .singleWildcard then x else l) :: instantiate x p) at h
      cases h with
      | multi => exact .multi
      | single h => exact .single (ih (fun hx => fresh (List.mem_cons_of_mem _ hx)) h)
      | literal _ h =>
          have rest := ih (fun hx => fresh (List.mem_cons_of_mem _ hx)) h
          split at fresh
          · exact absurd List.mem_cons_self fresh
          · rename_i hl
            rw [if_neg hl]
            exact .precise rest

theorem head?_instantiate (x : Level) (p : List Level) :
    (instantiate x p).head? = p.head?.map fun l => if l = .singleWildcard then x else l := by
  cases p <;> rfl

/-- If the fresh name starts with `$`, so does the path. -/
theorem leadingDollar_of_instantiate {x : Level} (plain : x.dollar = false) {p : List Level}
    (h : LeadingDollar (instantiate x p)) : LeadingDollar p ∧ ¬ LeadingWildcard p := by
  obtain ⟨first, head, dollar⟩ := h
  rw [head?_instantiate] at head
  cases p with
  | nil => cases head
  | cons l p =>
      simp only [List.head?_cons, Option.map_some, Option.some.injEq] at head
      split at head
      · rw [← head, plain] at dollar
        cases dollar
      · rw [leadingDollar_cons, leadingWildcard_cons]
        subst head
        refine ⟨dollar, fun wild => ?_⟩
        rw [Level.dollar_of_isWildcard wild] at dollar
        cases dollar

theorem leadingDollar_instantiate (x : Level) {p : List Level} (h : LeadingDollar p) :
    LeadingDollar (instantiate x p) := by
  obtain ⟨l, head, dollar⟩ := h
  refine ⟨l, ?_, dollar⟩
  rw [head?_instantiate, head, Option.map_some, if_neg]
  rintro rfl
  exact absurd dollar (by decide)

/-! ## Subscriptions that end in `#` -/

/-- The filter `g` takes the `#` that follows `q` with a `+` of its own. -/
def TakesHash (g q : List Level) : Prop :=
  ∃ r, Accepts r q ∧ (g = r ++ [.singleWildcard] ∨ g = r ++ [.singleWildcard, .multiWildcard])

/-- `q` followed by `n` levels `+`. -/
def withLevels (q : List Level) (n : Nat) : List Level := q ++ List.replicate n .singleWildcard

theorem hashFree_withLevels {q : List Level} (free : HashFree q) (n : Nat) :
    HashFree (withLevels q n) :=
  hashFree_append.mpr ⟨free, hashFree_replicate n⟩

/-- A filter with `#` only in the last place that accepts `q/#` takes the `#`
with a `+`, or covers every continuation of `q`. -/
theorem takesHash_or_covers {g q : List Level}
    (last : ∀ pre post, g = pre ++ .multiWildcard :: post → post = [])
    (h : Accepts g (q ++ [.multiWildcard])) : TakesHash g q ∨ ∀ r, Accepts g (q ++ r) := by
  induction q generalizing g with
  | nil =>
      rw [List.nil_append, accepts_cons_iff] at h
      obtain rfl | ⟨f', rfl, h⟩ | ⟨f', rfl, -⟩ := h
      · exact .inr fun r => .multi
      · rw [accepts_nil_iff] at h
        obtain rfl | rfl := h
        · exact .inl ⟨[], .nil, .inl rfl⟩
        · exact .inl ⟨[], .nil, .inr rfl⟩
      · rw [last [] f' rfl]
        exact .inr fun r => .multi
  | cons l q ih =>
      rw [List.cons_append, accepts_cons_iff] at h
      obtain rfl | ⟨f', rfl, h⟩ | ⟨f', rfl, h⟩ := h
      · exact .inr fun r => .multi
      · obtain ⟨r, hr, heq⟩ | covers :=
          ih (fun pre post heq => last (_ :: pre) post (by rw [heq]; rfl)) h
        · refine .inl ⟨_ :: r, .single hr, ?_⟩
          obtain rfl | rfl := heq
          · exact .inl rfl
          · exact .inr rfl
        · exact .inr fun r => .single (covers r)
      · obtain ⟨r, hr, heq⟩ | covers :=
          ih (fun pre post heq => last (_ :: pre) post (by rw [heq]; rfl)) h
        · refine .inl ⟨_ :: r, .precise hr, ?_⟩
          obtain rfl | rfl := heq
          · exact .inl rfl
          · exact .inr rfl
        · exact .inr fun r => .precise (covers r)

/-- Taking the `#` with a `+` is accepting it. -/
theorem TakesHash.accepts {g q : List Level}
    (last : ∀ pre post, g = pre ++ .multiWildcard :: post → post = []) (h : TakesHash g q) :
    Accepts g (q ++ [.multiWildcard]) := by
  obtain ⟨r, hr, heq⟩ := h
  have free : HashFree r := by
    rintro l hl rfl
    obtain ⟨pre, post, rfl⟩ := List.append_of_mem hl
    obtain rfl | rfl := heq
    · exact absurd (last pre (post ++ [.singleWildcard]) (by simp)) (by simp)
    · exact absurd (last pre (post ++ [.singleWildcard, .multiWildcard]) (by simp)) (by simp)
  obtain rfl | rfl := heq
  · exact hr.append free (.single .nil)
  · exact hr.append free (.single .multi)

/-- What `q/#` matches is matched by `q` with some number of `+` levels. -/
theorem matches_hash {q t : List Level} (h : Matches (q ++ [.multiWildcard]) t) :
    ∃ n, Matches (withLevels q n) t := by
  induction q generalizing t with
  | nil =>
      refine ⟨t.length, ?_⟩
      clear h
      induction t with
      | nil => exact .nil
      | cons l t ih => exact .single ih
  | cons l q ih =>
      rw [List.cons_append] at h
      cases hq : q ++ [Level.multiWildcard] with
      | nil => simp at hq
      | cons first rest =>
          rw [hq] at h ih
          cases h with
          | single h =>
              obtain ⟨n, hn⟩ := ih h
              exact ⟨n, .single hn⟩
          | literal hl h =>
              obtain ⟨n, hn⟩ := ih h
              exact ⟨n, .literal hl hn⟩

theorem Matches.hash {q t : List Level} (h : Matches q t) (free : HashFree q) (r : List Level) :
    Matches (q ++ [.multiWildcard]) (t ++ r) := by
  induction h with
  | nil => exact .multi
  | multi => exact absurd rfl (hashFree_cons.mp free).1
  | single _ ih => exact .single (ih (hashFree_cons.mp free).2)
  | literal hl _ ih => exact .literal hl (ih (hashFree_cons.mp free).2)

/-! ## The first level of a path and of its continuations -/

theorem leadingDollar_append {q r : List Level} (wild : ∀ l ∈ r, l.isWildcard = true) :
    LeadingDollar (q ++ r) ↔ LeadingDollar q := by
  cases q with
  | cons l q => simp only [List.cons_append, leadingDollar_cons]
  | nil =>
      refine ⟨fun ⟨l, head, dollar⟩ => ?_, fun ⟨l, head, _⟩ => by cases head⟩
      rw [Level.dollar_of_isWildcard (wild l (List.mem_of_mem_head? head))] at dollar
      cases dollar

theorem leadingDollar_hash {q : List Level} :
    LeadingDollar (q ++ [.multiWildcard]) ↔ LeadingDollar q :=
  leadingDollar_append (by simp [Level.isWildcard])

theorem leadingDollar_withLevels {q : List Level} {n : Nat} :
    LeadingDollar (withLevels q n) ↔ LeadingDollar q :=
  leadingDollar_append fun l hl => by rw [List.eq_of_mem_replicate hl]; rfl

theorem leadingWildcard_hash {q r : List Level} (h : LeadingWildcard (q ++ r)) :
    LeadingWildcard (q ++ [.multiWildcard]) := by
  cases q with
  | nil => exact ⟨_, rfl, rfl⟩
  | cons l q => exact leadingWildcard_cons.mpr (leadingWildcard_cons.mp h)

/-- What `q/#` matches under the MQTT rules is so matched by `q` with some
number of `+` levels. -/
theorem mqttMatches_hash {q : List Level} {t : Topic}
    (h : MqttMatches ⟨q ++ [.multiWildcard]⟩ t) : ∃ n, MqttMatches ⟨withLevels q n⟩ t := by
  obtain ⟨n, hn⟩ := matches_hash h.1
  exact ⟨n, hn, fun ⟨wild, dollar⟩ => h.2 ⟨leadingWildcard_hash wild, dollar⟩⟩

/-- A parsed filter has no `#`, or only the one that ends it. -/
theorem hashFree_or_hash {f : Topic} (valid : f.Valid) :
    HashFree f.levels ∨ ∃ q, f.levels = q ++ [.multiWildcard] ∧ HashFree q := by
  by_cases hmem : Level.multiWildcard ∈ f.levels
  · obtain ⟨q, post, heq⟩ := List.append_of_mem hmem
    have hpost := valid.multi_last q post heq
    subst hpost
    refine .inr ⟨q, heq, fun l hl hhash => ?_⟩
    subst hhash
    obtain ⟨pre, post, rfl⟩ := List.append_of_mem hl
    exact absurd (valid.multi_last pre (post ++ [.multiWildcard]) (by rw [heq]; simp)) (by simp)
  · refine .inl fun l hl hhash => ?_
    subst hhash
    exact hmem hl

/-! ## A level no filter names -/

/-- A plain level that none of the filters holds. -/
structure Fresh (filters : List Topic) (x : Level) : Prop where
  valid : x.isValid = true
  plain : x.isWildcard = false
  not_dollar : x.dollar = false
  not_metadata : x.isMetadata = false
  printed : Topic.Printed x
  not_mem : ∀ g ∈ filters, x ∉ g.levels

def plainText (k : Nat) : String := String.ofList (List.replicate (k + 1) 'x')

theorem plainText_injective : Function.Injective plainText := by
  intro j k h
  have hlen := congrArg (fun s : String => s.toList.length) h
  simpa [plainText] using hlen

theorem plainText_parses (k : Nat) : Level.fromStr (plainText k) = .ok (.normal (plainText k)) := by
  have hne : ∀ s : String, s.toList.head? ≠ some 'x' → plainText k ≠ s := by
    rintro s hs rfl
    exact hs (by simp [plainText, List.replicate_succ])
  have hwild : Level.hasWildcardChar (plainText k) = false := by
    simp [Level.hasWildcardChar, plainText]
  have hdollar : Level.startsWithDollar (plainText k) = false := by
    simp [Level.startsWithDollar, plainText, List.replicate_succ]
  unfold Level.fromStr
  rw [if_neg (hne _ (by decide)), if_neg (hne _ (by decide)), if_neg (hne _ (by decide)), hwild,
    hdollar]
  rfl

theorem exists_fresh (filters : List Topic) : ∃ x, Fresh filters x := by
  have infinite : (Set.range fun k => Level.normal (plainText k)).Infinite :=
    Set.infinite_range_of_injective fun j k h => plainText_injective (Level.normal.inj h)
  obtain ⟨x, ⟨k, rfl⟩, hx⟩ := infinite.exists_notMem_finset
    (filters.flatMap fun g => g.levels).toFinset
  refine ⟨.normal (plainText k), ?_, rfl, ?_, rfl, ⟨plainText_parses k, ?_⟩,
    fun g hg hmem => hx ?_⟩
  · simp [Level.isValid, Level.startsWithDollar, Level.hasWildcardChar, plainText,
      List.replicate_succ]
  · simp [Level.dollar, Level.toString, Level.startsWithDollar, plainText, List.replicate_succ]
  · simp [Level.toString, plainText]
  · rw [List.mem_toFinset, List.mem_flatMap]
    exact ⟨g, hg, hmem⟩

theorem mem_instantiate {x l : Level} {p : List Level} (h : l ∈ instantiate x p) :
    l = x ∨ (l ∈ p ∧ l ≠ .singleWildcard) := by
  obtain ⟨l', hl', rfl⟩ := List.mem_map.mp h
  split
  · exact .inl rfl
  · exact .inr ⟨hl', ‹_›⟩

/-- The fresh name for `q` and `n` further levels is a topic name some text
parses to. -/
theorem exists_name {filters : List Topic} {x : Level} (fresh : Fresh filters x) {s : String}
    {f : Topic} (parsed : Topic.fromStr s = .ok f) {q : List Level}
    (heq : f.levels = q ++ [.multiWildcard]) (free : HashFree q) {n : Nat}
    (nonempty : q = [] → n ≠ 0) :
    ∃ name, Topic.fromStr name = .ok ⟨instantiate x (withLevels q n)⟩ ∧
      Topic.WildcardFree ⟨instantiate x (withLevels q n)⟩ := by
  have valid := Topic.valid_of_fromStr parsed
  have level : ∀ l ∈ instantiate x (withLevels q n),
      l = x ∨ (l ∈ f.levels ∧ l.isWildcard = false) := by
    intro l hl
    obtain rfl | ⟨hmem, hplus⟩ := mem_instantiate hl
    · exact .inl rfl
    · have hhash := hashFree_withLevels free n l hmem
      rw [withLevels, List.mem_append, List.mem_replicate] at hmem
      obtain hq | ⟨-, rfl⟩ := hmem
      · refine .inr ⟨by rw [heq]; exact List.mem_append_left _ hq, ?_⟩
        cases l <;> first | rfl | contradiction
      · exact absurd rfl hplus
  have printed : ∀ l ∈ instantiate x (withLevels q n), Topic.Printed l := by
    intro l hl
    obtain rfl | ⟨hmem, -⟩ := level l hl
    · exact fresh.printed
    · exact Topic.printed_of_fromStr parsed l hmem
  have wildcardFree : ∀ l ∈ instantiate x (withLevels q n), l.isWildcard = false := by
    intro l hl
    obtain rfl | ⟨-, hplain⟩ := level l hl
    · exact fresh.plain
    · exact hplain
  have shape : Topic.Valid ⟨instantiate x (withLevels q n)⟩ := by
    refine ⟨?_, fun l hl => ?_, fun pre post hpre => ?_, fun pre post text hpre => ?_⟩
    · cases q with
      | nil => simpa [instantiate, withLevels] using nonempty rfl
      | cons l q => simp [instantiate, withLevels]
    · obtain rfl | ⟨hmem, -⟩ := level l hl
      · exact fresh.valid
      · exact valid.levels_valid l hmem
    · have hmem : Level.multiWildcard ∈ instantiate x (withLevels q n) := by
        rw [show instantiate x (withLevels q n) = _ from hpre]
        simp
      exact absurd (wildcardFree _ hmem) (by decide)
    · obtain ⟨a, b, hab, rfl, hb⟩ := List.map_eq_append_iff.mp hpre
      obtain ⟨l, b, rfl, hl, -⟩ := List.map_eq_cons_iff.mp hb
      -- The `$` level of the name is the one of `q`, in the same place.
      have hmeta : l = .metadata text := by
        split at hl
        · have := fresh.not_metadata
          rw [hl] at this
          cases this
        · exact hl
      subst hmeta
      have hnot : Level.metadata text ∉ List.replicate n Level.singleWildcard := by
        simp [List.mem_replicate]
      obtain ⟨c, -, hc⟩ | ⟨c, rfl, hc⟩ := List.append_eq_append_iff.mp hab
      · exact absurd (hc ▸ List.mem_append_right c List.mem_cons_self) hnot
      · cases c with
        | nil => exact absurd (by rw [← List.nil_append (List.replicate _ _), ← hc]; simp) hnot
        | cons first c =>
            obtain ⟨rfl, -⟩ := List.cons.inj hc
            rw [valid.metadata_first a (c ++ [.multiWildcard]) text (by rw [heq]; simp)]
            rfl
  obtain ⟨name, hname⟩ := Topic.exists_fromStr shape printed
  exact ⟨name, hname, wildcardFree⟩

/-! ## When a list of filters covers what it grants -/

/-- The number of levels of the longest filter. -/
def longest (filters : List Topic) : Nat := (filters.map fun g => g.levels.length).foldr max 0

theorem length_le_longest {filters : List Topic} {g : Topic} (h : g ∈ filters) :
    g.levels.length ≤ longest filters := by
  unfold longest
  induction filters with
  | nil => cases h
  | cons first rest ih =>
      simp only [List.map_cons, List.foldr_cons]
      cases h with
      | head => exact le_max_left _ _
      | tail _ h => exact (ih h).trans (le_max_right _ _)

/-- Every topic name the subscription delivers is matched by one of the filters. -/
def Covers (filters : List Topic) (f : Topic) : Prop :=
  ∀ name t, Topic.fromStr name = .ok t → t.WildcardFree → MqttMatches f t →
    ∃ g ∈ filters, MqttMatches g t

/-- If one of the filters takes the `#` of a subscription `q/#` with a `+`, then
for every number of levels up to one more than the longest filter has, some
filter admits `q` followed by that many `+`. -/
def HashCovered (filters : List Topic) (f : Topic) : Prop :=
  ∀ q, f.levels = q ++ [.multiWildcard] →
    (∃ g ∈ filters, TakesHash g.levels q ∧ ¬ (LeadingWildcard g.levels ∧ LeadingDollar q)) →
      ∀ n ≤ longest filters + 1, (q = [] → n ≠ 0) →
        ∃ g ∈ filters, Admits g.levels (withLevels q n)

/-- What is admitted up to the bound is admitted for any number of levels. -/
theorem admits_beyond {filters : List Topic} {q : List Level} {n : Nat}
    (bounded : ∀ n ≤ longest filters + 1, (q = [] → n ≠ 0) →
      ∃ g ∈ filters, Admits g.levels (withLevels q n)) (nonempty : q = [] → n ≠ 0) :
    ∃ g ∈ filters, Admits g.levels (withLevels q n) := by
  by_cases hn : n ≤ longest filters + 1
  · exact bounded n hn nonempty
  · obtain ⟨g, hg, accepts, shown⟩ := bounded (longest filters + 1) le_rfl fun _ => by simp
    have hlen := length_le_longest hg
    have hsplit : withLevels q n = withLevels q (longest filters + 1) ++
        List.replicate (n - (longest filters + 1)) .singleWildcard := by
      rw [withLevels, withLevels, List.append_assoc, List.replicate_append_replicate]
      congr 2
      omega
    refine ⟨g, hg, ?_, ?_⟩
    · rw [hsplit]
      refine accepts.extend ?_ _
      simp only [withLevels, List.length_append, List.length_replicate]
      omega
    · rw [leadingDollar_withLevels] at shown ⊢
      exact shown

theorem covers_of_hashCovered {filters : List Topic} (valid : ∀ g ∈ filters, g.Valid) {f : Topic}
    (fvalid : f.Valid) (cond : HashCovered filters f)
    (granted : ∃ g ∈ filters, Admits g.levels f.levels) : Covers filters f := by
  intro name t parsed _ hmatch
  obtain ⟨g, hg, hadmits⟩ := granted
  obtain free | ⟨q, heq, free⟩ := hashFree_or_hash fvalid
  · exact ⟨g, hg, hadmits.mqttMatches_trans free hmatch⟩
  · obtain ⟨f⟩ := f
    subst heq
    obtain ⟨n, hn⟩ := mqttMatches_hash hmatch
    have nonempty : q = [] → n ≠ 0 := by
      rintro rfl rfl
      have hnil := hn.1
      rw [show (⟨withLevels [] 0⟩ : Topic).levels = [] from rfl] at hnil
      cases ht : t.levels with
      | nil => exact (Topic.valid_of_fromStr parsed).nonempty ht
      | cons l ls => rw [ht] at hnil; cases hnil
    suffices found : ∃ g ∈ filters, Admits g.levels (withLevels q n) by
      obtain ⟨g, hg, hadmits⟩ := found
      exact ⟨g, hg, hadmits.mqttMatches_trans (p := ⟨withLevels q n⟩)
        (hashFree_withLevels free n) hn⟩
    have shown : ¬ (LeadingWildcard g.levels ∧ LeadingDollar q) := by
      rw [← leadingDollar_hash]
      exact hadmits.2
    obtain takes | covers := takesHash_or_covers (valid g hg).multi_last hadmits.1
    · exact admits_beyond (cond q rfl ⟨g, hg, takes, shown⟩) nonempty
    · exact ⟨g, hg, covers _, by rwa [leadingDollar_withLevels]⟩

theorem hashCovered_of_covers {filters : List Topic} (valid : ∀ g ∈ filters, g.Valid) {s : String}
    {f : Topic} (parsed : Topic.fromStr s = .ok f)
    (covers : (∃ g ∈ filters, Admits g.levels f.levels) → Covers filters f) :
    HashCovered filters f := by
  rintro q heq ⟨g, hg, takes, shown⟩ n - nonempty
  have free : HashFree q := by
    obtain free | ⟨q', heq', free⟩ := hashFree_or_hash (Topic.valid_of_fromStr parsed)
    · exact absurd rfl (free _ (by rw [heq]; simp))
    · rw [heq] at heq'
      rwa [(List.append_inj_left' heq' rfl)]
  have granted : Admits g.levels f.levels := by
    rw [heq]
    exact ⟨takes.accepts (valid g hg).multi_last, by rwa [leadingDollar_hash]⟩
  -- A topic name with levels that no filter names tells the filters apart.
  obtain ⟨x, fresh⟩ := exists_fresh filters
  obtain ⟨name, hname, wildcardFree⟩ := exists_name fresh parsed heq free nonempty
  have hmatch : MqttMatches f ⟨instantiate x (withLevels q n)⟩ := by
    have split : instantiate x (withLevels q n) =
        instantiate x q ++ instantiate x (List.replicate n .singleWildcard) := List.map_append
    constructor
    · rw [heq]
      change Matches _ (instantiate x (withLevels q n))
      rw [split]
      exact (matches_instantiate x free).hash free _
    · rintro ⟨wild, dollar⟩
      obtain ⟨dollar, nowild⟩ := leadingDollar_of_instantiate fresh.not_dollar dollar
      rw [heq] at wild
      cases q with
      | nil =>
          rw [leadingDollar_withLevels] at dollar
          simp [LeadingDollar] at dollar
      | cons l q => exact nowild (leadingWildcard_cons.mpr (leadingWildcard_cons.mp wild))
  obtain ⟨g', hg', accepts, hidden⟩ :=
    covers ⟨g, hg, granted⟩ name _ hname wildcardFree hmatch
  refine ⟨g', hg', accepts.accepts_of_instantiate (fresh.not_mem g' hg'), ?_⟩
  rintro ⟨wild, dollar⟩
  exact hidden ⟨wild, leadingDollar_instantiate x dollar⟩

/-! ## Rules of plain filters -/

namespace Acl

/-- The filters of a list of plain entries. -/
def filtersOf (names : List String) : List Topic :=
  names.filterMap fun name => (Topic.fromStr name).toOption

theorem mem_filtersOf {names : List String} {g : Topic} :
    g ∈ filtersOf names ↔ ∃ name ∈ names, Topic.fromStr name = .ok g := by
  unfold filtersOf
  rw [List.mem_filterMap]
  refine exists_congr fun name => and_congr_right fun _ => ?_
  cases Topic.fromStr name <;> simp [Except.toOption]

/-- Plain entries go to the tree, untagged, and nowhere else. -/
theorem foldlM_addEntry_plain {cfg : Option Value} {names : List String} {topics topics' : Topics}
    (plain : ∀ name ∈ names, hasPlaceholder name = false)
    (built : (names.map Value.string).foldlM (Topics.addEntry cfg) topics = .ok topics') :
    topics'.all = topics.all ∧ topics'.eqs = topics.eqs ∧
      ∀ (f : Topic) (tag : Tag), tag ∈ topics'.tree.valuesAt f.levels ↔
        tag ∈ topics.tree.valuesAt f.levels ∨ (tag = ⊥ ∧ f ∈ filtersOf names) := by
  induction names generalizing topics with
  | nil =>
      cases built
      simp [filtersOf]
  | cons name names ih =>
      rw [List.map_cons, List.foldlM_cons, Topics.addEntry,
        if_neg (by simp [plain name List.mem_cons_self])] at built
      cases hparse : Topic.fromStr name with
      | error e => rw [hparse] at built; cases built
      | ok g =>
          rw [hparse] at built
          obtain ⟨hall, heqs, htree⟩ :=
            ih (fun name' hmem => plain name' (List.mem_cons_of_mem _ hmem)) built
          refine ⟨hall, heqs, fun f tag => ?_⟩
          rw [htree, Node.mem_valuesAt_insert, mem_filtersOf, mem_filtersOf]
          simp only [List.mem_cons, exists_eq_or_imp, hparse, Except.ok.injEq, eq_comm (a := g)]
          tauto

/-- A rule of plain filters grants a subscription iff one of its filters admits
it. -/
theorem isMatch_plain_iff {names : List String} {topics : Topics}
    (plain : ∀ name ∈ names, hasPlaceholder name = false)
    (built : Topics.tryFrom (some (.array (names.map .string))) = .ok topics) {f : Topic}
    (valid : ∀ l ∈ f.levels, l.isValid = true) (s : String) (clientId : ClientId) :
    topics.isMatch f s clientId = true ↔
      ∃ g ∈ filtersOf names, Admits g.levels f.levels := by
  obtain ⟨hall, heqs, htree⟩ := foldlM_addEntry_plain plain built
  rw [Topics.isMatch_iff valid, hall, heqs]
  simp only [Topics.empty, Bool.false_eq_true, List.not_mem_nil, false_or]
  constructor
  · rintro ⟨g, tag, htag, -, hadmits⟩
    obtain hdefault | ⟨-, hg⟩ := (htree g tag).mp htag
    · simp [Topics.empty] at hdefault
    · exact ⟨g, hg, hadmits⟩
  · rintro ⟨g, hg, hadmits⟩
    exact ⟨g, ⊥, (htree g ⊥).mpr (.inr ⟨rfl, hg⟩), rfl, hadmits⟩

/-- A rule of plain filters covers the subscriptions it grants exactly under
`HashCovered`: whatever the rule's access and users are, and for every client. -/
theorem granted_topics_covered_iff {items : List Value} {names : List String} {rule : Rule}
    (built : Rule.tryFrom (.array items) = .ok rule)
    (topicList : items[3]? = some (.array (names.map .string)))
    (plain : ∀ name ∈ names, hasPlaceholder name = false) {filter : String} {f : Topic}
    (parsed : Topic.fromStr filter = .ok f) (clientId : ClientId) :
    (rule.topics.isMatch f filter clientId = true → Covers (filtersOf names) f) ↔
      HashCovered (filtersOf names) f := by
  have topics := topics_of_tryFrom built
  rw [topicList] at topics
  have fvalid := Topic.valid_of_fromStr parsed
  have valid : ∀ g ∈ filtersOf names, g.Valid := by
    intro g hg
    obtain ⟨name, -, hname⟩ := mem_filtersOf.mp hg
    exact Topic.valid_of_fromStr hname
  rw [isMatch_plain_iff plain topics fvalid.levels_valid]
  exact ⟨hashCovered_of_covers valid parsed,
    fun cond granted => covers_of_hashCovered valid fvalid cond granted⟩

/-- `["allow", "all", "subscribe", ["a/+"]]` -/
def plusRule : List Value :=
  [.string "allow", .string "all", .string "subscribe", .array [.string "a/+"]]

theorem granted_topics_covered_iff_plus :
    ∃ rule, Rule.tryFrom (.array plusRule) = .ok rule ∧
      ((rule.topics.isMatch ⟨[.normal "a", .multiWildcard]⟩ "a/#" "c1" = true →
        Covers (filtersOf ["a/+"]) ⟨[.normal "a", .multiWildcard]⟩) ↔
          HashCovered (filtersOf ["a/+"]) ⟨[.normal "a", .multiWildcard]⟩) := by
  obtain ⟨rule, built⟩ : ∃ rule, Rule.tryFrom (.array plusRule) = .ok rule := ⟨_, rfl⟩
  have topicList : plusRule[3]? = some (.array (["a/+"].map .string)) := rfl
  exact ⟨rule, built, granted_topics_covered_iff built topicList (by decide) (by decide) "c1"⟩

/-- The rule `a/+` grants `a/#` to a client it hits, and `a/#` delivers `a/b/c`,
which the rule does not cover. -/
theorem plus_rule_grants_hash :
    ∃ rule, Rule.tryFrom (.array plusRule) = .ok rule ∧ rule.access = .allow ∧
      (rule.hit ⟨"c1", none, none⟩ none none true).1 = true ∧
      Topic.fromStr "a/#" = .ok ⟨[.normal "a", .multiWildcard]⟩ ∧
      rule.topics.isMatch ⟨[.normal "a", .multiWildcard]⟩ "a/#" "c1" = true ∧
      ¬ Covers (filtersOf ["a/+"]) ⟨[.normal "a", .multiWildcard]⟩ := by
  refine ⟨_, rfl, rfl, by decide, by decide, by decide, fun covers => ?_⟩
  have delivered : MqttMatches ⟨[.normal "a", .multiWildcard]⟩
      ⟨[.normal "a", .normal "b", .normal "c"]⟩ :=
    ⟨.literal rfl .multi, fun h => by simp [LeadingWildcard, Level.isWildcard] at h⟩
  obtain ⟨g, hg, hmatch, -⟩ := covers "a/b/c" _ (by decide) (by decide) delivered
  rw [show filtersOf ["a/+"] = [⟨[.normal "a", .singleWildcard]⟩] by decide,
    List.mem_singleton] at hg
  subst hg
  cases hmatch with
  | literal _ hrest =>
      cases hrest with
      | single hend => cases hend

end Acl

end OxiMqtt

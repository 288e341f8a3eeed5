import SearchBox.Proofs.Search.Gates
import SearchBox.Record.Kind

/-!
  SearchBox.Proofs.Search.Combined — two filters in one. Where of each list that wants one value, and
  of each sort of date, only one of the filters has any, each gate lets pass what it lets pass for
  both filters (`passes_of_combines`). A record then fails first at the earlier one of the gates that
  it fails first for either filter (`firstFailing_of_combines`). Where two filters differ in one
  list that wants one value, the filter with the values of both matches what either of them
  matches (`explain_withPart_append`).
-/

namespace SearchBox.Query

/-- A filter with the values of two filters in each list, and with the dates of either one. -/
structure Filter.Combines (h f g : Filter) : Prop where
  terms : h.terms = f.terms ++ g.terms
  choices : h.choices = f.choices ++ g.choices
  phrases : h.phrases = f.phrases ++ g.phrases
  excludedTerms : h.excludedTerms = f.excludedTerms ++ g.excludedTerms
  excludedPhrases : h.excludedPhrases = f.excludedPhrases ++ g.excludedPhrases
  objects : h.objects = f.objects ++ g.objects
  texts : h.texts = f.texts ++ g.texts
  types : h.types = f.types ++ g.types
  formats : h.formats = f.formats ++ g.formats
  preset : h.preset? = f.preset?.or g.preset?
  day : h.day = f.day.or g.day
  sites : h.sites = f.sites ++ g.sites
  tags : h.tags = f.tags ++ g.tags

/-- Filters of which only one has values where one value is wanted, and only one a date of each
    sort. -/
structure Filter.IsApartFrom (f g : Filter) : Prop where
  types : f.types = [] ∨ g.types = []
  sites : f.sites = [] ∨ g.sites = []
  formats : f.formats = [] ∨ g.formats = []
  objects : f.objects = [] ∨ g.objects = []
  texts : f.texts = [] ∨ g.texts = []
  preset : f.preset? = none ∨ g.preset? = none
  day : f.day = none ∨ g.day = none

end SearchBox.Query

namespace SearchBox.Search

open SearchBox.Query SearchBox.Text

variable {m : Matcher} {r : Record} {text : List Char}

/-! ## Values of two filters -/

section Values

variable {vs ws : List String}

theorem isEmpty_or_all_append (vs ws : List String) (p : String → Bool) :
    ((vs ++ ws).isEmpty || (vs ++ ws).all p) = ((vs.isEmpty || vs.all p) && (ws.isEmpty || ws.all p)) := by
  cases vs <;> cases ws <;> simp [Bool.and_assoc]

variable {a b : Bool}

/-- A date is looked at where there is one, which not both filters have. -/
theorem dateGate_or {α : Type} {d e : Option α} (h : d = none ∨ e = none) {gate : α → Except MatchError Bool}
    (ha : (d.elim (.ok true) gate) = .ok a) (hb : (e.elim (.ok true) gate) = .ok b) :
    (d.or e).elim (.ok true) gate = .ok (a && b) := by
  rcases h with rfl | rfl
  · cases ha
    exact hb
  · cases hb
    rwa [Option.or_none, Bool.and_true]

end Values

/-! ## Gates of two filters in one -/

section Combined

variable {f g h : Filter}

theorem passes_since (f : Filter) : m.passes f r text .since = f.preset?.elim (.ok true) (m.isSince r) := by
  unfold Matcher.passes
  cases f.preset? <;> rfl

theorem passes_day (f : Filter) : m.passes f r text .day = f.day.elim (.ok true) (m.isWithin r) := by
  unfold Matcher.passes
  cases f.day <;> rfl

variable (hc : h.Combines f g) (hapart : f.IsApartFrom g)
include hc hapart

/-- A gate of the combined filter tells what the gates of both filters tell. -/
theorem passes_of_combines {x : Gate} {a b : Bool} (hf : m.passes f r text x = .ok a)
    (hg : m.passes g r text x = .ok b) : m.passes h r text x = .ok (a && b) := by
  cases x with
  | type =>
    rw [Matcher.passes, hc.types]
    exact anyOf_append hapart.types hf hg
  | site =>
    rw [Matcher.passes, hc.sites]
    exact anyOf_append hapart.sites hf hg
  | format =>
    rw [Matcher.passes, hc.formats]
    exact anyOf_append hapart.formats hf hg
  | object =>
    rw [Matcher.passes, hc.objects]
    exact anyOf_append hapart.objects hf hg
  | text =>
    rw [Matcher.passes, hc.texts]
    exact anyOf_append hapart.texts hf hg
  | since =>
    rw [passes_since] at hf hg ⊢
    rw [hc.preset]
    exact dateGate_or hapart.preset hf hg
  | day =>
    rw [passes_day] at hf hg ⊢
    rw [hc.day]
    exact dateGate_or hapart.day hf hg
  | exclude =>
    cases hf
    cases hg
    simp only [Matcher.passes, hc.excludedTerms, hc.excludedPhrases, List.any_append, Bool.not_or]
    congr 1
    ac_rfl
  | phrase =>
    cases hf
    cases hg
    rw [Matcher.passes, hc.phrases, List.all_append]
  | choice =>
    cases hf
    cases hg
    rw [Matcher.passes, hc.choices, List.all_append]
  | term =>
    cases hf
    cases hg
    rw [Matcher.passes, hc.terms, List.all_append]
  | tag =>
    cases hf
    cases hg
    rw [Matcher.passes, hc.tags]
    exact congrArg Except.ok (isEmpty_or_all_append f.tags g.tags _)

end Combined

/-! ## The gate that fails first -/

section FirstFailing

variable {f g h : Filter} {x : Gate} {gates : List Gate} {a b : Option Gate}

theorem firstFailing_cons_eq_ok :
    m.firstFailing f r text (x :: gates) = .ok a ↔
      (m.passes f r text x = .ok false ∧ a = some x) ∨
        (m.passes f r text x = .ok true ∧ m.firstFailing f r text gates = .ok a) := by
  rw [Matcher.firstFailing]
  cases hx : m.passes f r text x with
  | error e => simp [bind, Except.bind]
  | ok passes => cases passes <;> simp [bind, Except.bind, pure, Except.pure, @eq_comm _ a]

theorem passes_of_firstFailing_eq_some (h : m.firstFailing f r text gates = .ok (some x)) :
    m.passes f r text x = .ok false := by
  induction gates with
  | nil => cases h
  | cons y later ih =>
    rcases firstFailing_cons_eq_ok.1 h with ⟨hy, heq⟩ | ⟨-, hlater⟩
    · cases heq
      exact hy
    · exact ih hlater

theorem exists_passes_of_firstFailing (h : m.firstFailing f r text (x :: gates) = .ok a) :
    ∃ passes, m.passes f r text x = .ok passes := by
  rcases firstFailing_cons_eq_ok.1 h with ⟨hx, -⟩ | ⟨hx, -⟩
  · exact ⟨_, hx⟩
  · exact ⟨_, hx⟩

/-- The first of some gates that either of two answers names. -/
def earlierOf (gates : List Gate) (a b : Option Gate) : Option Gate :=
  gates.find? fun x => a = some x || b = some x

/-- Of two answers, the gate that comes first in the order of gates. No gate comes last. -/
def earlier (a b : Option Gate) : Option Gate :=
  earlierOf Gate.inOrder a b

theorem earlier_eq_none_iff : earlier a b = none ↔ a = none ∧ b = none := by
  unfold earlier earlierOf
  rw [List.find?_eq_none]
  constructor
  · intro hnone
    have hneither : ∀ y, a ≠ some y ∧ b ≠ some y := by
      intro y
      simpa [not_or] using hnone y (Gate.mem_inOrder y)
    exact ⟨Option.eq_none_iff_forall_ne_some.2 fun y => (hneither y).1,
      Option.eq_none_iff_forall_ne_some.2 fun y => (hneither y).2⟩
  · rintro ⟨rfl, rfl⟩ y -
    simp

/-- A record fails the combined filter first where it fails one of the two filters first. -/
theorem firstFailing_of_combines (hc : h.Combines f g) (hapart : f.IsApartFrom g)
    (hf : m.firstFailing f r text gates = .ok a) (hg : m.firstFailing g r text gates = .ok b) :
    m.firstFailing h r text gates = .ok (earlierOf gates a b) := by
  unfold earlierOf
  induction gates with
  | nil => rfl
  | cons x later ih =>
    obtain ⟨p, hfx⟩ := exists_passes_of_firstFailing hf
    obtain ⟨q, hgx⟩ := exists_passes_of_firstFailing hg
    have hx := passes_of_combines hc hapart hfx hgx
    rw [firstFailing_cons_eq_ok] at hf hg ⊢
    rw [hfx] at hf
    rw [hgx] at hg
    rw [hx]
    rcases hf with ⟨hp, rfl⟩ | ⟨hp, hf⟩
    · cases hp
      exact .inl ⟨rfl, List.find?_cons_of_pos (by simp)⟩
    rcases hg with ⟨hq, rfl⟩ | ⟨hq, hg⟩
    · cases hp
      cases hq
      exact .inl ⟨rfl, List.find?_cons_of_pos (by simp)⟩
    -- Both pass the gate, so neither answer names it: a gate that is named is failed.
    cases hp
    cases hq
    refine .inr ⟨rfl, ?_⟩
    rw [List.find?_cons_of_neg, ih hf hg]
    simp only [Bool.or_eq_true, decide_eq_true_eq]
    rintro (rfl | rfl)
    · rw [passes_of_firstFailing_eq_some hf] at hfx
      cases hfx
    · rw [passes_of_firstFailing_eq_some hg] at hgx
      cases hgx

end FirstFailing

/-! ## Further values where one is wanted -/

def gateOf : Part → Gate
  | .terms => .term
  | .phrases => .phrase
  | .excludedTerms => .exclude
  | .excludedPhrases => .exclude
  | .objects => .object
  | .texts => .text
  | .types => .type
  | .formats => .format
  | .sites => .site
  | .tags => .tag

section Further

variable {f : Filter} {p : Part} {vs ws : List String}

theorem passes_withPart_of_ne {x : Gate} (hx : x ≠ gateOf p) (f : Filter) (vs : List String) :
    m.passes (f.withPart vs p) r text x = m.passes f r text x := by
  cases p <;> cases x <;> first | rfl | exact absurd rfl hx

/-- The gate of a list that wants one value is passed with the values of two lists if it is
    passed with those of either one. -/
theorem passes_withPart_append (hp : p.isAnyOf = true) (hvs : vs ≠ []) (hws : ws ≠ []) :
    m.passes (f.withPart (vs ++ ws) p) r text (gateOf p) = .ok true ↔
      m.passes (f.withPart vs p) r text (gateOf p) = .ok true ∨
        m.passes (f.withPart ws p) r text (gateOf p) = .ok true := by
  cases p with
  | types | objects | texts | formats | sites => exact anyOf_append_eq_true_iff hvs hws
  | _ => cases hp

theorem explain_withPart_eq_none_iff (hr : r.IsSearchable) :
    m.explain (f.withPart vs p) r = .ok none ↔
      m.passes (f.withPart vs p) r r.searched (gateOf p) = .ok true ∧
        ∀ x, x ≠ gateOf p → m.passes f r r.searched x = .ok true := by
  rw [explain_eq_none_iff hr]
  constructor
  · intro h
    refine ⟨h (gateOf p), ?_⟩
    intro x hx
    rw [← passes_withPart_of_ne hx f vs]
    exact h x
  · rintro ⟨hgate, hothers⟩ x
    by_cases hx : x = gateOf p
    · rw [hx]
      exact hgate
    · rw [passes_withPart_of_ne hx]
      exact hothers x hx

theorem explain_withPart_append (hp : p.isAnyOf = true) (hvs : vs ≠ []) (hws : ws ≠ []) :
    m.explain (f.withPart (vs ++ ws) p) r = .ok none ↔
      m.explain (f.withPart vs p) r = .ok none ∨ m.explain (f.withPart ws p) r = .ok none := by
  by_cases hr : r.IsSearchable
  · rw [explain_withPart_eq_none_iff hr, explain_withPart_eq_none_iff hr, explain_withPart_eq_none_iff hr,
      passes_withPart_append hp hvs hws, or_and_right]
  · simp [explain_of_not_isSearchable m _ hr]

end Further

/-! ## All gates -/

/-- If it can be told where a record fails two filters first, it fails the two in one at the earlier
    of the two gates, and so matches them in one just if it matches both. With the values of two
    lists in one place where one value is wanted, it matches just if it does with either list. -/
theorem explain_combined (m : Matcher) (r : Record) :
    (∀ (h f g : Filter) (a b : Option Gate), h.Combines f g → f.IsApartFrom g →
      m.explain f r = .ok a → m.explain g r = .ok b →
      m.explain h r = .ok (earlier a b) ∧
        (m.explain h r = .ok none ↔ m.explain f r = .ok none ∧ m.explain g r = .ok none)) ∧
    ∀ (f : Filter) (p : Part) (vs ws : List String), p.isAnyOf = true → vs ≠ [] → ws ≠ [] →
      (m.explain (f.withPart (vs ++ ws) p) r = .ok none ↔
        m.explain (f.withPart vs p) r = .ok none ∨ m.explain (f.withPart ws p) r = .ok none) := by
  constructor
  · intro h f g a b hc hapart hf hg
    have hr : r.IsSearchable := isSearchable_of_explain hf
    have hh : m.explain h r = .ok (earlier a b) := by
      rw [explain_of_isSearchable hr] at hf hg ⊢
      exact firstFailing_of_combines hc hapart hf hg
    refine ⟨hh, ?_⟩
    rw [hh, hf, hg, Except.ok.injEq, Except.ok.injEq, Except.ok.injEq]
    exact earlier_eq_none_iff
  · intro f p vs ws hp hvs hws
    exact explain_withPart_append hp hvs hws

/-- Red shoes are no note and not blue. Of the two gates that fail, that of the words comes before
    that of the types, and among two types one is enough. -/
theorem explain_combined_red_shoes :
    let m := Matcher.standard ⟨.universal 0, .utc⟩ .builtin Record.kind
    let r : Record := .mapping [(.text "title", .text "Red shoes"), (.text "url", .text "https://shop.example/shoes.pdf")]
    let f : Filter := { terms := ["red"], types := ["note"], formats := ["pdf"] }
    let g : Filter := { terms := ["shoes", "blue"], sites := ["shop"] }
    let h : Filter := { terms := ["red", "shoes", "blue"], types := ["note"], formats := ["pdf"], sites := ["shop"] }
    h.Combines f g ∧ f.IsApartFrom g ∧ m.explain f r = .ok (some .type) ∧ m.explain g r = .ok (some .term) ∧
      m.explain h r = .ok (some .term) ∧ m.explain (f.withPart ["article"] .types) r = .ok none ∧
      m.explain (f.withPart (["note"] ++ ["article"]) .types) r = .ok none := by
  intro m r f g h
  have hc : h.Combines f g := by constructor <;> rfl
  have hapart : f.IsApartFrom g := by constructor <;> decide
  have hf : m.explain f r = .ok (some .type) := by decide +kernel
  have hg : m.explain g r = .ok (some .term) := by decide +kernel
  have harticle : m.explain (f.withPart ["article"] .types) r = .ok none := by decide +kernel
  obtain ⟨hcombined, hfurther⟩ := explain_combined m r
  obtain ⟨hh, -⟩ := hcombined h f g _ _ hc hapart hf hg
  exact ⟨hc, hapart, hf, hg, hh, harticle,
    (hfurther f .types ["note"] ["article"] rfl (by simp) (by simp)).2 (.inr harticle)⟩

end SearchBox.Search

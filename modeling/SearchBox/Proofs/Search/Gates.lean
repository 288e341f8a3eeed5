import SearchBox.Proofs.Query.Parts
import SearchBox.Proofs.Record.Texts
import SearchBox.Search.Gate

/-!
  SearchBox.Proofs.Search.Gates — what a filter made of two lets pass. A gate sees the values
  of its part as a set: it wants all of them, one of them or none. So a filter that asks for
  what two filters ask for lets pass what both let pass, gate by gate
  (`passes_of_isUnion`), provided that no gate that wants one value has some of each filter.
-/

namespace SearchBox.Search

open SearchBox.Calendar SearchBox.Query SearchBox.Text

/-! ## Gates one after another -/

section Order

variable {m : Matcher} {f : Filter} {r : Record} {text : List Char}

/-- If each gate has an answer, so has the search for the first one that fails. -/
theorem firstFailing_total {gates : List Gate} (h : ∀ g ∈ gates, ∃ b, m.passes f r text g = .ok b) :
    ∃ failing, m.firstFailing f r text gates = .ok failing := by
  induction gates with
  | nil => exact ⟨none, rfl⟩
  | cons g later ih =>
    obtain ⟨⟨b, hb⟩, hlater⟩ := List.forall_mem_cons.1 h
    cases b with
    | false => exact ⟨some g, by rw [Matcher.firstFailing, hb]; rfl⟩
    | true =>
      obtain ⟨failing, hf⟩ := ih hlater
      exact ⟨failing, by rw [Matcher.firstFailing, hb]; exact hf⟩

theorem explain_of_isSearchable (h : r.IsSearchable) : m.explain f r = m.firstFailing f r r.searched Gate.inOrder := by
  rw [Matcher.explain, Record.searchText_of_isSearchable h]
  rfl

/-- Without a search text no gate is tried. -/
theorem explain_of_not_isSearchable (m : Matcher) (f : Filter) (h : ¬ r.IsSearchable) :
    m.explain f r = .error (.noText .tooManyDigits) := by
  rw [Matcher.explain, Record.searchText_of_not_isSearchable h]
  rfl

theorem isSearchable_of_explain {failing : Option Gate} (h : m.explain f r = .ok failing) : r.IsSearchable := by
  by_contra hnot
  rw [explain_of_not_isSearchable m f hnot] at h
  cases h

theorem explain_eq_none_iff (h : r.IsSearchable) :
    m.explain f r = .ok none ↔ ∀ g, m.passes f r r.searched g = .ok true := by
  rw [explain_of_isSearchable h, Matcher.firstFailing_eq_none_iff]
  exact ⟨fun h g => h g (Gate.mem_inOrder g), fun h g _ => h g⟩

/-- A filter that asks for nothing lets every record pass that has a search text. -/
theorem explain_of_isEmpty (m : Matcher) (hr : r.IsSearchable) (h : f.isEmpty = true) : m.explain f r = .ok none := by
  simp only [Filter.isEmpty, Bool.and_eq_true, List.isEmpty_iff, Option.isNone_iff_eq_none] at h
  refine (explain_eq_none_iff hr).2 fun g => ?_
  cases g <;> simp [Matcher.passes, h]

end Order

/-! ## Tests that one value has to stand -/

section AnyOf

variable {vs ws : List String} {test : Except MatchError (String → Bool)} {p : String → Bool}

theorem anyOf_ok (vs : List String) (p : String → Bool) : anyOf vs (.ok p) = .ok (vs.isEmpty || vs.any p) := by
  rw [anyOf]
  cases vs.isEmpty <;> rfl

theorem anyOf_eq_true_iff : anyOf vs (.ok p) = .ok true ↔ vs = [] ∨ ∃ v ∈ vs, p v = true := by
  simp [anyOf_ok]

theorem failsWith_anyOf {P : MatchError → Prop} (h : FailsWith P test) : FailsWith P (anyOf vs test) := by
  unfold anyOf
  split
  · exact failsWith_ok true
  · exact h.bind fun p _ => failsWith_ok _

/-- Values of two lists stand the tests of both, where not both lists have some. -/
theorem anyOf_append (h : vs = [] ∨ ws = []) {a b : Bool} (ha : anyOf vs test = .ok a) (hb : anyOf ws test = .ok b) :
    anyOf (vs ++ ws) test = .ok (a && b) := by
  rcases h with rfl | rfl
  · cases ha
    exact hb
  · cases hb
    rwa [List.append_nil, Bool.and_true]

/-- Where both lists have values, one of either is enough. -/
theorem anyOf_append_eq_true_iff (hvs : vs ≠ []) (hws : ws ≠ []) :
    anyOf (vs ++ ws) test = .ok true ↔ anyOf vs test = .ok true ∨ anyOf ws test = .ok true := by
  cases test <;> simp [anyOf, hvs, hws, bind, Except.bind, pure, Except.pure, -List.any_eq_true]

end AnyOf

/-! ## Parts of two filters -/

section Union

variable {h f g : Filter}

theorem forall_part_iff (hu : h.IsUnion f g) (p : Part) (P : String → Prop) :
    (∀ v ∈ h.part p, P v) ↔ (∀ v ∈ f.part p, P v) ∧ ∀ v ∈ g.part p, P v := by
  simp only [hu p, or_imp, forall_and]

/-- One of the values, where not both filters have some. -/
theorem exists_part_iff (hu : h.IsUnion f g) {p : Part} (hp : f.part p = [] ∨ g.part p = []) (P : String → Prop) :
    (h.part p = [] ∨ ∃ v ∈ h.part p, P v) ↔
      (f.part p = [] ∨ ∃ v ∈ f.part p, P v) ∧ (g.part p = [] ∨ ∃ v ∈ g.part p, P v) := by
  have hnil : h.part p = [] ↔ f.part p = [] ∧ g.part p = [] := by
    simp only [List.eq_nil_iff_forall_not_mem, hu p, not_or, forall_and]
  have hex : (∃ v ∈ h.part p, P v) ↔ (∃ v ∈ f.part p, P v) ∨ ∃ v ∈ g.part p, P v := by
    simp only [hu p, or_and_right, exists_or]
  rw [hnil, hex]
  rcases hp with hp | hp <;> simp [hp]

end Union

/-! ## Filters without choices and dates -/

section Listed

variable {m : Matcher} {f : Filter} {r : Record} {kind : String}

/-- A field in lower case, of a record whose fields can be written. -/
def lowered (r : Record) (field : Record.Field) : List Char :=
  lower (r.textOf field).toList

theorem lowerField_of_isWritable (hr : r.IsWritable) {field : Record.Field} (h : field ≠ .id) :
    lowerField r field = .ok (lowered r field) := by
  rw [lowerField, hr.field h]
  rfl

/-- What a filter without choices and dates wants of a record at a gate. -/
def Wants (f : Filter) (r : Record) (kind : String) (text : List Char) : Gate → Prop
  | .exclude => (∀ v ∈ f.part .excludedTerms, isIn text v = false) ∧
      ∀ v ∈ f.part .excludedPhrases, isIn text v = false
  | .phrase => ∀ v ∈ f.part .phrases, isIn text v = true
  | .choice => True
  | .term => ∀ v ∈ f.part .terms, isIn text v = true
  | .type => f.part .types = [] ∨ ∃ v ∈ f.part .types, v = kind
  | .site => f.part .sites = [] ∨ ∃ v ∈ f.part .sites, isIn (lowered r .url) v = true
  | .tag => ∀ v ∈ f.part .tags, v ∈ r.tags.map lowerText
  | .format => f.part .formats = [] ∨ ∃ v ∈ f.part .formats, hasFormat (lowered r .url) v = true
  | .since => True
  | .day => True
  | .object => f.part .objects = [] ∨
      ∃ v ∈ f.part .objects, isIn (lowered r .description) v = true ∨ isIn (lowered r .notes) v = true
  | .text => f.part .texts = [] ∨
      ∃ v ∈ f.part .texts, (isIn (lowered r .notes) v = true ∨ isIn (lowered r .content) v = true) ∨
        isIn (lowered r .description) v = true

theorem passes_eq_true_iff (hf : f.SameBeside {}) (hr : r.IsWritable) (hkind : m.kind r = .ok kind) (text : List Char)
    (g : Gate) : m.passes f r text g = .ok true ↔ Wants f r kind text g := by
  obtain ⟨hchoices, hsince, hday⟩ := hf
  have hlowered : ∀ field : Record.Field, field ≠ .id → lowerField r field = .ok (lowered r field) :=
    fun _ => lowerField_of_isWritable hr
  cases g with
  | choice => simp [Matcher.passes, Wants, hchoices]
  | since => simp [Matcher.passes, Wants, hsince, Filter.preset?]
  | day => simp [Matcher.passes, Wants, hday]
  | tag => by_cases ht : f.tags = [] <;> simp [Matcher.passes, Wants, Filter.part, ht]
  | exclude | phrase | term => simp [Matcher.passes, Wants, Filter.part]
  | type | site | format | object | text =>
    simp [Matcher.passes, Wants, Filter.part, hkind, hlowered, pure, Except.pure, anyOf_eq_true_iff]

theorem passes_total (hf : f.SameBeside {}) (hr : r.IsWritable) (hkind : m.kind r = .ok kind) (text : List Char)
    (g : Gate) : ∃ b, m.passes f r text g = .ok b := by
  obtain ⟨-, hsince, hday⟩ := hf
  have hlowered : ∀ field : Record.Field, field ≠ .id → lowerField r field = .ok (lowered r field) :=
    fun _ => lowerField_of_isWritable hr
  cases g with
  | since => exact ⟨true, by simp [Matcher.passes, hsince, Filter.preset?]⟩
  | day => exact ⟨true, by simp [Matcher.passes, hday]⟩
  | type | site | format | object | text => simp [Matcher.passes, hkind, hlowered, pure, Except.pure, anyOf_ok]
  | _ => exact ⟨_, rfl⟩

theorem explain_total (hf : f.SameBeside {}) (hr : r.IsWritable) (hkind : m.kind r = .ok kind) :
    ∃ failing, m.explain f r = .ok failing := by
  rw [explain_of_isSearchable hr.isSearchable]
  exact firstFailing_total fun g _ => passes_total hf hr hkind _ g

end Listed

/-- At each gate, two filters in one want what both want. -/
theorem wants_of_isUnion {h f g : Filter} (hu : h.IsUnion f g)
    (hdisjoint : ∀ p, p.isAnyOf = true → f.part p = [] ∨ g.part p = []) (r : Record) (kind : String)
    (text : List Char) (gate : Gate) : Wants h r kind text gate ↔ Wants f r kind text gate ∧ Wants g r kind text gate := by
  cases gate with
  | exclude =>
    simp only [Wants, forall_part_iff hu]
    tauto
  | phrase | term | tag => exact forall_part_iff hu _ _
  | choice | since | day => simp [Wants]
  | type | site | format | object | text => exact exists_part_iff hu (hdisjoint _ rfl) _

/-- A record matches two filters in one if it matches both. -/
theorem explain_of_isUnion {m : Matcher} {h f g : Filter} {r : Record} {kind : String} (hr : r.IsWritable)
    (hkind : m.kind r = .ok kind) (hu : h.IsUnion f g) (hdisjoint : ∀ p, p.isAnyOf = true → f.part p = [] ∨ g.part p = [])
    (hh : h.SameBeside {}) (hf : f.SameBeside {}) (hg : g.SameBeside {}) :
    m.explain h r = .ok none ↔ m.explain f r = .ok none ∧ m.explain g r = .ok none := by
  simp only [explain_eq_none_iff hr.isSearchable, passes_eq_true_iff hh hr hkind, passes_eq_true_iff hf hr hkind,
    passes_eq_true_iff hg hr hkind, wants_of_isUnion hu hdisjoint, forall_and]

end SearchBox.Search

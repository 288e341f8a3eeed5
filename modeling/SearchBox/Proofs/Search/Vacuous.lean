import SearchBox.Proofs.Query.WellFormed
import SearchBox.Proofs.Record.Sites
import SearchBox.Proofs.Search.Cutoffs
import SearchBox.Proofs.Search.Phrases
import SearchBox.Proofs.Text.Lines

/-!
  SearchBox.Proofs.Search.Vacuous — no query's filter is vacuous. A filter restricts the records by
  the gates that it does not leave open (`isEmpty_iff_isOpen`), and for every such gate there is a
  record that fails it:
  - one with an excluded value for its title, since values are lower-cased and say something
    (`exists_excluded`);
  - the record without any field fails every other gate but the one for types: what is searched of
    it is empty or blank, and it has no tags and no creation time (`passes_bare`);
  - a record of a type that is not listed, unless all seven are (`mem_kinds_iff`).
  So a filter is empty just if every record matches it, but for types that leave none out
  (`isEmpty_exact`). Every record is every one that has a search text: without it nothing is
  tested, although there is nothing to test either (`isEmpty_number`).
-/

namespace SearchBox.Record

open SearchBox.Text

/-! ## Types of records -/

def kinds : List String :=
  ["note", "youtube", "tweet", "reddit", "wikipedia", "image", "article"]

theorem tagOf_mem_kinds (explicit category : String) (url : List Char) : tagOf explicit category url ∈ kinds := by
  have hsites : ∀ e ∈ siteTags, e.2 ∈ kinds := by decide
  unfold tagOf
  split
  · rename_i tag hsite
    obtain ⟨domains, hmem, -⟩ := isOnSite_of_siteTag? hsite
    exact hsites _ hmem
  · split <;> decide

theorem kind_mem_kinds {r : Record} {tag : String} (h : r.kind = .ok tag) : tag ∈ kinds := by
  obtain ⟨url, -, h⟩ := bind_eq_ok.1 h
  obtain ⟨explicit, -, h⟩ := bind_eq_ok.1 h
  obtain ⟨category, -, h⟩ := bind_eq_ok.1 h
  dsimp only at h
  split at h
  · cases h
    decide
  · obtain ⟨isBare, -, h⟩ := bind_eq_ok.1 h
    cases h
    cases isBare with
    | true => exact List.mem_cons_self
    | false => exact tagOf_mem_kinds _ _ _

/-- There is a record of each type, whose fields can be written, and of no other type. -/
theorem mem_kinds_iff {tag : String} : tag ∈ kinds ↔ ∃ r : Record, r.IsWritable ∧ r.kind = .ok tag := by
  have hrecords : ∀ tag ∈ kinds, ∃ es ∈ ([[(.text "title", .text "a")], [(.text "url", .text "youtu.be")],
      [(.text "url", .text "x.com")], [(.text "url", .text "redd.it")], [(.text "url", .text "wikipedia.org")],
      [(.text "type", .text "image")], []] : List Entries),
      (Record.mapping es).IsWritable ∧ (Record.mapping es).kind = .ok tag := by
    decide +kernel
  constructor
  · intro h
    obtain ⟨es, -, hr⟩ := hrecords tag h
    exact ⟨_, hr⟩
  · rintro ⟨r, -, hkind⟩
    exact kind_mem_kinds hkind

end SearchBox.Record

namespace SearchBox.Search

open SearchBox.Calendar SearchBox.Query SearchBox.Text

/-! ## Gates that are left open -/

/-- Whether the part of a filter is empty that a gate looks at. -/
def isOpen (f : Filter) : Gate → Bool
  | .exclude => f.excludedTerms.isEmpty && f.excludedPhrases.isEmpty
  | .phrase => f.phrases.isEmpty
  | .choice => f.choices.isEmpty
  | .term => f.terms.isEmpty
  | .type => f.types.isEmpty
  | .site => f.sites.isEmpty
  | .tag => f.tags.isEmpty
  | .format => f.formats.isEmpty
  | .since => f.preset?.isNone
  | .day => f.day.isNone
  | .object => f.objects.isEmpty
  | .text => f.texts.isEmpty

theorem isEmpty_iff_isOpen {f : Filter} : f.isEmpty = true ↔ ∀ g, isOpen f g = true := by
  constructor
  · intro h g
    simp only [Filter.isEmpty, Bool.and_eq_true] at h
    cases g <;> simp [isOpen, h]
  · intro h
    have hexclude := (Bool.and_eq_true _ _).mp (h .exclude)
    simp only [Filter.isEmpty, Bool.and_eq_true]
    exact ⟨⟨⟨⟨⟨⟨⟨⟨⟨⟨⟨⟨h .term, h .choice⟩, h .phrase⟩, hexclude.1⟩, hexclude.2⟩, h .object⟩, h .text⟩, h .type⟩,
      h .format⟩, h .since⟩, h .day⟩, h .site⟩, h .tag⟩

theorem passes_of_isOpen {f : Filter} {g : Gate} (h : isOpen f g = true) (m : Matcher) (r : Record) (text : List Char) :
    m.passes f r text g = .ok true := by
  cases g <;> simp_all [isOpen, Matcher.passes]

/-- A record is not accepted just if it fails a gate after gates that it passes. -/
theorem accepts_eq_false_iff {m : Matcher} {f : Filter} {r : Record} :
    m.accepts f r = .ok false ↔ ∃ g, m.explain f r = .ok (some g) := by
  rw [Matcher.accepts]
  cases m.explain f r with
  | error e => simp [bind, Except.bind]
  | ok failing => cases failing <;> simp [bind, Except.bind, pure, Except.pure]

/-- A record that fails a gate is not accepted, if all gates have an answer. -/
theorem accepts_eq_false {m : Matcher} {f : Filter} {r : Record} (hr : r.IsSearchable)
    (htotal : ∀ g, ∃ b, m.passes f r r.searched g = .ok b) {g : Gate} (hg : m.passes f r r.searched g = .ok false) :
    m.accepts f r = .ok false := by
  obtain ⟨failing, hexplain⟩ := firstFailing_total fun g (_ : g ∈ Gate.inOrder) => htotal g
  rw [← explain_of_isSearchable hr] at hexplain
  cases failing with
  | some g => exact accepts_eq_false_iff.2 ⟨g, hexplain⟩
  | none =>
    have hpass := (explain_eq_none_iff hr).1 hexplain g
    rw [hg] at hpass
    cases hpass

/-! ## A record with an excluded value -/

/-- A record of nothing but a title. -/
def ofTitle (v : String) : Record :=
  .mapping [(.text "title", .text v)]

theorem isSearchable_ofTitle (v : String) : (ofTitle v).IsSearchable := by
  refine Record.isSearchable_of_texts fun f hf => ?_
  by_cases htitle : f = .title
  · exact .inr ⟨v, by rw [htitle]; rfl⟩
  · refine .inl ?_
    cases f <;> first | exact absurd rfl htitle | rfl

theorem isIn_searched_ofTitle {v : String} (hv : lowerText v = v) : isIn (ofTitle v).searched v = true := by
  have htitle : (ofTitle v).textOf .title = v := Record.textOf_of_field (Value.shownText_text v)
  have hmem : v ∈ searchedTexts (ofTitle v) := List.mem_append_left _ (List.mem_cons.2 (.inl htitle.symm))
  have hinfix := lower_isInfix_searched hmem
  rw [isIn, occursIn_iff]
  rw [← String.toList_inj, lowerText, String.toList_ofList] at hv
  rwa [hv] at hinfix

/-- The first gate is failed by a record with an excluded value. -/
theorem exists_excluded {zone : Zone} {lexicon : Lexicon} {f : Filter} (h : f.IsWellFormed zone lexicon)
    (hclosed : isOpen f .exclude = false) (m : Matcher) : ∃ r, m.accepts f r = .ok false := by
  have hvalue : ∃ v, lowerText v = v ∧ (v ∈ f.excludedTerms ∨ v ∈ f.excludedPhrases) := by
    rw [isOpen, Bool.and_eq_false_iff, List.isEmpty_eq_false_iff_exists_mem, List.isEmpty_eq_false_iff_exists_mem] at hclosed
    rcases hclosed with ⟨v, hv⟩ | ⟨v, hv⟩
    · exact ⟨v, h.lowered .excludedTerms nofun v hv, .inl hv⟩
    · exact ⟨v, h.lowered .excludedPhrases nofun v hv, .inr hv⟩
  obtain ⟨v, hlowered, hv⟩ := hvalue
  have hin := isIn_searched_ofTitle hlowered
  have hfails : m.passes f (ofTitle v) (ofTitle v).searched .exclude = .ok false := by
    rw [Matcher.passes, Except.ok.injEq, Bool.and_eq_false_iff]
    exact hv.imp (fun hv => by simpa using ⟨v, hv, hin⟩) (fun hv => by simpa using ⟨v, hv, hin⟩)
  refine ⟨ofTitle v, accepts_eq_false_iff.2 ⟨.exclude, ?_⟩⟩
  rw [explain_of_isSearchable (isSearchable_ofTitle v), Gate.inOrder, Matcher.firstFailing, hfails]
  rfl

/-! ## The record without fields -/

/-- The record without any field. -/
def bare : Record :=
  .mapping []

theorem isWritable_bare : bare.IsWritable := by
  decide

theorem searched_bare : bare.searched = [' ', ' ', ' ', ' ', ' '] := by
  decide +kernel

theorem lowerField_bare (field : Record.Field) : lowerField bare field = .ok [] := by
  cases field <;> rfl

/-- Only blank values stand in what is searched of it. -/
theorem isIn_searched_bare {v : String} (hv : isBlankText v.toList = false) : isIn bare.searched v = false := by
  rw [Bool.eq_false_iff, searched_bare]
  intro hin
  rw [isIn, occursIn_iff] at hin
  have hblank : isBlankText v.toList = true := by
    refine isBlankText_iff.2 fun c hc => ?_
    have hspace := hin.subset hc
    simp only [List.mem_cons, List.not_mem_nil, or_false, or_self] at hspace
    rw [hspace]
    decide
  rw [hv] at hblank
  cases hblank

theorem isIn_nil {v : String} (hv : IsSolid v.toList) : isIn [] v = false := by
  rw [Bool.eq_false_iff, isIn, Ne, occursIn_iff, List.infix_nil]
  exact hv.1

theorem hasFormat_nil {v : String} (hv : IsSolid v.toList) : hasFormat [] v = false := by
  have hdot : occursIn ('.' :: v.toList) [] = false := rfl
  rw [hasFormat, hdot, Bool.or_false, decide_eq_false_iff_not]
  exact fun hnil => hv.1 hnil.symm

/-- Values that none of a list fits fit the list only if it is empty. -/
theorem all_eq_isEmpty {α : Type} {p : α → Bool} {l : List α} (h : ∀ v ∈ l, p v = false) : l.all p = l.isEmpty := by
  cases l with
  | nil => rfl
  | cons v l => simp [h v List.mem_cons_self]

theorem anyOf_eq_isEmpty {p : String → Bool} {vs : List String} (h : ∀ v ∈ vs, p v = false) :
    anyOf vs (.ok p) = .ok vs.isEmpty := by
  rw [anyOf_ok, List.any_eq_false.2 fun v hv => Bool.eq_false_iff.1 (h v hv), Bool.or_false]

/-- The record without fields passes a gate only if it is open, but for exclusions and types. -/
theorem passes_bare {zone : Zone} {lexicon : Lexicon} {f : Filter} (h : f.IsWellFormed zone lexicon) {m : Matcher}
    (hcutoff : ∀ word ∈ f.since, ∃ earliest, m.cutoff word = .ok (some earliest)) {g : Gate} (hexclude : g ≠ .exclude)
    (htype : g ≠ .type) : m.passes f bare bare.searched g = .ok (isOpen f g) := by
  have hsolid : ∀ v : String, IsSolid v.toList → isIn bare.searched v = false :=
    fun v hv => isIn_searched_bare hv.isEdged.isBlankText
  cases g with
  | exclude => exact absurd rfl hexclude
  | type => exact absurd rfl htype
  | phrase => exact congrArg _ (all_eq_isEmpty fun v hv => isIn_searched_bare (h.parts .phrases v hv).1)
  | term => exact congrArg _ (all_eq_isEmpty fun v hv => hsolid v (h.parts .terms v hv).1)
  | choice =>
    refine congrArg _ (all_eq_isEmpty fun c hc => ?_)
    have hleft := hsolid _ (h.choices c hc c.1 (by simp)).1
    have hright := hsolid _ (h.choices c hc c.2 (by simp)).1
    exact Bool.or_eq_false_iff.2 ⟨hleft, hright⟩
  | site =>
    rw [Matcher.passes, lowerField_bare]
    exact anyOf_eq_isEmpty fun v hv => isIn_nil (h.parts .sites v hv)
  | format =>
    rw [Matcher.passes, lowerField_bare]
    exact anyOf_eq_isEmpty fun v hv => hasFormat_nil (h.parts .formats v hv)
  | object =>
    rw [Matcher.passes, lowerField_bare, lowerField_bare]
    refine anyOf_eq_isEmpty fun v hv => ?_
    rw [isIn_nil (h.parts .objects v hv)]
    rfl
  | text =>
    rw [Matcher.passes, lowerField_bare, lowerField_bare, lowerField_bare]
    refine anyOf_eq_isEmpty fun v hv => ?_
    rw [isIn_nil (h.parts .texts v hv)]
    rfl
  | tag =>
    have hall : f.tags.all (bare.tags.map lowerText).contains = f.tags.isEmpty := all_eq_isEmpty fun v _ => rfl
    rw [Matcher.passes, hall, Bool.or_self]
    rfl
  | since =>
    rw [passes_since, isOpen]
    cases hpreset : f.preset? with
    | none => rfl
    | some word =>
      obtain ⟨earliest, hearliest⟩ := hcutoff word (Option.filter_eq_some_iff.1 hpreset).1
      have hcreated : bare.createdAt m.clock = .ok none := rfl
      exact isSince_of_cutoff hearliest hcreated
  | day =>
    rw [Matcher.passes, isOpen]
    cases f.day with
    | none => rfl
    | some span => rfl

/-! ## Types -/

section Types

variable {m : Matcher} {f : Filter} {r : Record} {kind : String}

/-- Types are asked for where a filter has some. -/
theorem passes_type (hkind : m.kind r = .ok kind) (text : List Char) :
    m.passes f r text .type = .ok (f.types.isEmpty || f.types.contains kind) := by
  rw [Matcher.passes, hkind]
  exact (anyOf_ok f.types _).trans (by rw [List.any_beq'])

theorem isOpen_without_types {g : Gate} (hg : g ≠ .type) : isOpen { f with types := [] } g = isOpen f g := by
  cases g
  case type => exact absurd rfl hg
  all_goals rfl

/-- Types are all that a filter asks for if the other gates are open. -/
theorem isEmpty_without_types_iff : { f with types := [] }.isEmpty = true ↔ ∀ g, g ≠ .type → isOpen f g = true := by
  rw [isEmpty_iff_isOpen]
  constructor
  · exact fun h g hg => (isOpen_without_types hg).symm.trans (h g)
  · intro h g
    by_cases hg : g = .type
    · rw [hg]
      rfl
    · exact (isOpen_without_types hg).trans (h g hg)

/-- A filter that asks for types only is failed by the records of other types, and passed by those that
    have one of its types. -/
theorem accepts_of_types (hothers : ∀ g, g ≠ .type → isOpen f g = true) (htypes : f.types ≠ []) (hr : r.IsSearchable)
    (hkind : m.kind r = .ok kind) : m.accepts f r = .ok (f.types.contains kind) := by
  have htype : m.passes f r r.searched .type = .ok (f.types.contains kind) := by
    rw [passes_type hkind, List.isEmpty_eq_false_iff.2 htypes, Bool.false_or]
  have hpasses : ∀ g, g ≠ .type → m.passes f r r.searched g = .ok true :=
    fun g hg => passes_of_isOpen (hothers g hg) m r _
  cases hlisted : f.types.contains kind with
  | true =>
    have hexplain : m.explain f r = .ok none := by
      refine (explain_eq_none_iff hr).2 fun g => ?_
      by_cases hg : g = .type
      · rw [hg, htype, hlisted]
      · exact hpasses g hg
    rw [Matcher.accepts, hexplain]
    rfl
  | false =>
    rw [hlisted] at htype
    refine accepts_eq_false hr (fun g => ?_) htype
    by_cases hg : g = .type
    · exact ⟨false, hg ▸ htype⟩
    · exact ⟨true, hpasses g hg⟩

/-- Such a filter leaves some record out, unless it lists all types. -/
theorem exists_other_type_iff (hothers : ∀ g, g ≠ .type → isOpen f g = true) (htypes : f.types ≠ [])
    (hkind : ∀ r tag, m.kind r = .ok tag ↔ r.kind = .ok tag) :
    (∃ r, m.accepts f r = .ok false) ↔ ¬ ∀ tag ∈ Record.kinds, tag ∈ f.types := by
  constructor
  · rintro ⟨r, hr⟩ hall
    obtain ⟨g, hexplain⟩ := accepts_eq_false_iff.1 hr
    have hsearch := isSearchable_of_explain hexplain
    rw [explain_of_isSearchable hsearch] at hexplain
    have hfails := passes_of_firstFailing_eq_some hexplain
    by_cases hg : g = .type
    · subst hg
      cases htag : m.kind r with
      | error e =>
        rw [Matcher.passes, htag, anyOf, if_neg (by simpa using htypes)] at hfails
        cases hfails
      | ok tag =>
        have hlisted := List.contains_iff_mem.2 (hall tag (Record.kind_mem_kinds ((hkind r tag).1 htag)))
        rw [passes_type htag, hlisted, Bool.or_true] at hfails
        cases hfails
    · rw [passes_of_isOpen (hothers g hg)] at hfails
      cases hfails
  · intro hmissing
    simp only [not_forall] at hmissing
    obtain ⟨tag, htag, hunlisted⟩ := hmissing
    obtain ⟨r, hr, htag⟩ := Record.mem_kinds_iff.1 htag
    refine ⟨r, ?_⟩
    rw [accepts_of_types hothers htypes hr.isSearchable ((hkind r tag).2 htag), Except.ok.injEq, Bool.eq_false_iff, Ne,
      List.contains_iff_mem]
    exact hunlisted

end Types

/-! ## Filters of queries -/

theorem isWellFormed_of_query {clock : Clock} {lexicon : Lexicon} {query : String} {f : Filter}
    (h : compile clock lexicon query = .ok f) : f.IsWellFormed clock.zone lexicon := by
  unfold compile at h
  dsimp only at h
  split at h
  · cases h
    exact Filter.isWellFormed_empty _ _
  · obtain ⟨g, hg, h⟩ := bind_eq_ok.1 h
    cases h
    have hgood := Filter.IsWellFormed.foldlM (fun t => shape_of_mem_tokensOf) (fun t => Filter.isLowered_of_mem_tokensOf)
      (Filter.isWellFormed_empty clock.zone lexicon) hg
    exact hgood.withFreeText _

/-- A filter that asks for something else than types leaves some record out. -/
theorem exists_rejected {zone : Zone} {lexicon : Lexicon} {f : Filter} (h : f.IsWellFormed zone lexicon) {m : Matcher}
    (hkind : ∃ kind, m.kind bare = .ok kind)
    (hcutoff : ∀ word ∈ f.since, ∃ earliest, m.cutoff word = .ok (some earliest)) {g : Gate} (hg : g ≠ .type)
    (hclosed : isOpen f g = false) : ∃ r, m.accepts f r = .ok false := by
  cases hexclude : isOpen f .exclude with
  | false => exact exists_excluded h hexclude m
  | true =>
    have hne : g ≠ .exclude := by
      rintro rfl
      rw [hexclude] at hclosed
      cases hclosed
    refine ⟨bare, accepts_eq_false isWritable_bare.isSearchable (fun g => ?_) ((passes_bare h hcutoff hne hg).trans (congrArg _ hclosed))⟩
    by_cases hex : g = .exclude
    · exact ⟨true, hex ▸ passes_of_isOpen hexclude m _ _⟩
    by_cases hty : g = .type
    · obtain ⟨kind, hkind⟩ := hkind
      exact ⟨_, hty ▸ passes_type hkind _⟩
    · exact ⟨_, passes_bare h hcutoff hex hty⟩

/-- A query's filter that is empty accepts every record that has a search text, and of the others it
    cannot be told. One that is not leaves some record out, unless types are all that it asks for and
    it lists each type that records have. The words for dates have to have cutoffs; what the clock was
    when the query was read does not matter. -/
theorem isEmpty_exact {clock queried : Clock} {lexicon : Lexicon} {query : String} {f : Filter}
    (h : compile queried lexicon query = .ok f) :
    let m := Matcher.standard clock lexicon Record.kind
    (∀ e ∈ lexicon.presets, ∃ earliest, m.cutoff e.1 = .ok (some earliest)) →
      (f.isEmpty = true → ∀ r, m.accepts f r = if r.IsSearchable then .ok true else .error (.noText .tooManyDigits)) ∧
      (f.isEmpty = false → ((∃ r, m.accepts f r = .ok false) ↔
        ¬ ({ f with types := [] }.isEmpty = true ∧ ∀ tag ∈ Record.kinds, tag ∈ f.types))) := by
  intro m hcutoffs
  have hkind : ∀ r tag, m.kind r = .ok tag ↔ r.kind = .ok tag := fun r tag => mapError_eq_ok
  have hgood := isWellFormed_of_query h
  have hcutoff : ∀ word ∈ f.since, ∃ earliest, m.cutoff word = .ok (some earliest) := by
    intro word hword
    obtain ⟨e, he, rfl⟩ := hgood.since word hword
    exact hcutoffs e he
  refine ⟨fun hempty r => ?_, fun hempty => ?_⟩
  · rw [Matcher.accepts]
    split
    · rw [explain_of_isEmpty m ‹_› hempty]
      rfl
    · rw [explain_of_not_isSearchable m f ‹_›]
      rfl
  rw [isEmpty_without_types_iff]
  by_cases hothers : ∀ g, g ≠ .type → isOpen f g = true
  · have htypes : f.types ≠ [] := by
      intro hnil
      rw [← Bool.not_eq_true, isEmpty_iff_isOpen] at hempty
      refine hempty fun g => ?_
      by_cases hg : g = .type
      · rw [hg, isOpen, hnil]
        rfl
      · exact hothers g hg
    rw [exists_other_type_iff hothers htypes hkind]
    exact ⟨fun hmissing hboth => hmissing hboth.2, fun hnot hall => hnot ⟨hothers, hall⟩⟩
  · have hclosed : ∃ g, g ≠ .type ∧ isOpen f g = false := by
      simpa only [not_forall, exists_prop, Bool.not_eq_true] using hothers
    obtain ⟨g, hg, hclosed⟩ := hclosed
    obtain ⟨tag, htag⟩ := isWritable_bare.exists_kind
    have hrejected := exists_rejected hgood ⟨tag, (hkind bare tag).2 htag⟩ hcutoff hg hclosed
    exact ⟨fun _ hboth => hothers hboth.1, fun _ => hrejected⟩

/-- A word for all types leaves no record out, and one that lacks a type does. -/
theorem isEmpty_exact_all_types :
    let zone : Zone := ⟨⟨"EST", -18000⟩, some ⟨⟨"EDT", -14400⟩, ⟨3, 2, 0, 7200⟩, ⟨11, 1, 0, 7200⟩⟩⟩
    let clock : Clock := ⟨.universal (739051 * microsPerDay), zone⟩
    let lexicon : Lexicon := .ofWrites [("Today", 0)] [("any", Record.kinds), ("saved", Record.kinds.tail)]
    let m := Matcher.standard clock lexicon Record.kind
    (∃ f, compile clock lexicon "type:any" = .ok f ∧ f.isEmpty = false ∧ ¬ ∃ r, m.accepts f r = .ok false) ∧
      (∃ f, compile clock lexicon "type:saved" = .ok f ∧ ∃ r, m.accepts f r = .ok false) ∧
      ∃ f, compile clock lexicon "type:any date:today" = .ok f ∧ ∃ r, m.accepts f r = .ok false := by
  intro zone clock lexicon m
  have hcutoffs : ∀ e ∈ lexicon.presets, ∃ earliest, m.cutoff e.1 = .ok (some earliest) := by
    have hpresets : lexicon.presets = [("today", 0)] := by decide
    have htoday : m.cutoff "today" = .ok (some ⟨⟨739050 * microsPerDay⟩, -14400000000, "EDT"⟩) := by decide +kernel
    intro e he
    rw [hpresets, List.mem_singleton] at he
    rw [he]
    exact ⟨_, htoday⟩
  have hany : compile clock lexicon "type:any" = .ok { types := Record.kinds } := by decide +kernel
  have hsaved : compile clock lexicon "type:saved" = .ok { types := Record.kinds.tail } := by decide +kernel
  have hboth : compile clock lexicon "type:any date:today" = .ok { types := Record.kinds, since := some "today" } := by
    decide +kernel
  refine ⟨⟨_, hany, rfl, ?_⟩, ⟨_, hsaved, ?_⟩, ⟨_, hboth, ?_⟩⟩
  · exact mt ((isEmpty_exact hany hcutoffs).2 rfl).1 (not_not.2 ⟨rfl, fun tag htag => htag⟩)
  · exact ((isEmpty_exact hsaved hcutoffs).2 rfl).2 fun hall => absurd (hall.2 "note" (by decide)) (by decide)
  · exact ((isEmpty_exact hboth hcutoffs).2 rfl).2 fun hall => absurd hall.1 (by decide)

/-- The empty filter accepts no record whose title is too long a number to be written. -/
theorem isEmpty_number :
    let m := Matcher.standard ⟨.universal 0, .utc⟩ .builtin Record.kind
    compile ⟨.universal 0, .utc⟩ .builtin "" = .ok {} ∧ ({} : Filter).isEmpty = true ∧
      m.accepts {} .overlong = .error (.noText .tooManyDigits) := by
  decide +kernel

end SearchBox.Search

import SearchBox.Proofs.Query.Append
import SearchBox.Proofs.Query.Keywords
import SearchBox.Proofs.Query.Slices
import SearchBox.Proofs.Query.WellFormed

/-!
  SearchBox.Proofs.Query.FreeText — the free text of a filter as a query of its own. In a query
  without quotes, bars and hash signs all rules that find anything take whole words
  (`sweepAll_without_signs`), so that a word they leave is one of the query in which no rule finds
  anything: it is bare (`isBareTerm_of_mem_left`). A bare word is bare when it is lower-cased
  (`IsBareTerm.lower`), and of a text of bare words no rule takes anything, whatever the lexicon
  (`tokensOf_of_areBare`). Hence the terms of such a query are its terms when they are compiled
  again, and there is nothing else (`compile_freeText`). Each of the three signs can leave a word
  that is a term and becomes a filter (`compile_freeText_signs`).
-/

namespace SearchBox.Query

open SearchBox.Calendar SearchBox.Text

/-! ## Bare words -/

/-- A word that says something and in which no rule finds anything. -/
structure IsBareTerm (w : List Char) : Prop where
  solid : IsSolid w
  signs : ∀ m ∈ ['"', '|', '#'], m ∉ w
  means : ¬ IsLeftOver w
  /-- No field starts here. -/
  keys : ∀ key ∈ fieldKeys, dropCaseless? (key.toList ++ [':']) w = none
  /-- No exclusion starts here: a first hyphen has a second one after it. -/
  hyphens : ∀ c rest, w = '-' :: c :: rest → c = '-'

theorem dropCaseless?_key_iff {key w more : List Char} :
    dropCaseless? (key ++ [':']) w = some more ↔ dropCaseless? key w = some (':' :: more) := by
  have hcolon : ∀ s, dropCaseless? [':'] s = some more ↔ s = ':' :: more := by
    intro s
    rw [dropCaseless?_eq_some_iff]
    constructor
    · rintro ⟨k, rfl, hk⟩
      obtain ⟨c, rest, hc, hrest, rfl⟩ := List.forall₂_cons_left_iff.1 hk
      rw [List.forall₂_nil_left_iff.1 hrest, eq_of_sameLetter (by decide) (sameLetter_symm hc)]
      rfl
    · rintro rfl
      exact ⟨[':'], rfl, .cons (by decide) .nil⟩
  rw [dropCaseless?_append_key, Option.bind_eq_some_iff]
  simp only [hcolon, exists_eq_right]

/-- The letters of the keys are no dots. -/
theorem sameLetter_dot_of_mem_key {key : String} (hkey : key ∈ fieldKeys) :
    ∀ a ∈ key.toList ++ [':'], sameLetter a combiningDot = false := by
  intro a ha
  rw [Bool.eq_false_iff]
  intro hsame
  rcases List.mem_append.1 ha with ha | ha
  · refine fieldKeys_without_dots key hkey ?_
    rw [← of_decide_eq_true hsame]
    exact List.mem_map_of_mem ha
  · rw [List.mem_singleton.1 ha] at hsame
    exact absurd hsame (by decide)

/-- A bare word is bare when it is lower-cased. -/
theorem IsBareTerm.lower {w : List Char} (h : IsBareTerm w) : IsBareTerm (lower w) where
  solid := h.solid.lower
  signs m hm := by
    refine not_mem_lower ?_ (h.signs m hm)
    exact (show ['"', '|', '#'] ⊆ ['"', '-', '|', '#', ':'] by decide) hm
  means hleft := h.means (isLeftOver_of_isLeftOver_lower hleft)
  keys key hkey := dropCaseless?_lower (sameLetter_dot_of_mem_key hkey) (h.keys key hkey)
  hyphens c rest heq := by
    obtain ⟨a, w, rfl⟩ := List.exists_cons_of_ne_nil h.solid.1
    obtain ⟨d, after, hd, ⟨-, hlower⟩ | ⟨rfl, -⟩⟩ := lowerFrom_cons false a w
    · rw [Text.lower, hlower, List.cons.injEq] at heq
      obtain ⟨rfl, heq⟩ := heq
      obtain rfl := eq_of_sameLetter (by decide) hd
      cases w with
      | nil => cases heq
      | cons b w =>
        obtain rfl := h.hyphens b w rfl
        obtain ⟨e, later, he, ⟨-, hlower⟩ | ⟨hdotted, -⟩⟩ := lowerFrom_cons after '-' w
        · rw [hlower, List.cons.injEq] at heq
          rw [← heq.1]
          exact eq_of_sameLetter (by decide) (sameLetter_symm he)
        · exact absurd hdotted (by decide)
    · -- A capital I with a dot becomes an i.
      rw [Text.lower] at heq
      cases heq

/-! ## What rules leave -/

/-- The rules for fields and exclusions, which take whole words. -/
def wholeWordRules (lexicon : Lexicon) : List (TokenKind × Rule) :=
  earlyRules ++
    [(.date, fieldRule "date" (dateValue? (spacedPresets lexicon))),
     (.site, fieldRule "site" wordValue?),
     (.tag, fieldRule "tag" wordValue?),
     (.excluded, exclusionRule)]

theorem dateRule_takesWords (presets : List (List Char)) : (fieldRule "date" (dateValue? presets)).TakesWords := by
  refine fieldRule_takesWords (dateRule_takes presets) fun s f h => ?_
  obtain ⟨v, rest, rfl, rfl, hrest⟩ := dateValue?_takesPiece presets s f h
  rwa [List.drop_left]

theorem exclusionRule_takesWords : Rule.TakesWords exclusionRule where
  starts _ := rfl
  takes := exclusionRule_isLocal.takes
  ends := by
    intro s f h
    obtain ⟨-, c, word, rest, rfl, rfl, -, -, hrest⟩ := exclusionRule_eq_some h
    simpa using hrest

theorem wholeWordRules_takeWords (lexicon : Lexicon) : ∀ r ∈ wholeWordRules lexicon, r.2.TakesWords := by
  intro r hr
  rcases List.mem_append.1 hr with hr | hr
  · exact earlyRules_takeWords hr
  · simp only [List.mem_cons, List.not_mem_nil, or_false] at hr
    rcases hr with rfl | rfl | rfl | rfl
    · exact dateRule_takesWords _
    · exact wordFieldRule_takesWords (by decide)
    · exact wordFieldRule_takesWords (by decide)
    · exact exclusionRule_takesWords

/-- A reader of values finds one wherever a word starts. -/
def ReadsWords (value? : List Char → Option Found) : Prop :=
  ∀ s, value? s = none → StartsBlank s

theorem wordValue?_readsWords : ReadsWords wordValue? := by
  intro s h
  by_contra hstart
  obtain ⟨w, rest, rfl, hw, hrest⟩ := exists_word_append hstart
  rw [wordValue?_of_isSolid hw hrest] at h
  cases h

theorem dateValue?_readsWords (presets : List (List Char)) : ReadsWords (dateValue? presets) := by
  intro s h
  unfold dateValue? at h
  split at h
  · cases h
  · exact wordValue?_readsWords s h

/-- Every key has a rule that reads any word after it. -/
theorem exists_rule_of_mem_fieldKeys (lexicon : Lexicon) {key : String} (hkey : key ∈ fieldKeys) :
    ∃ kind value?, (kind, fieldRule key value?) ∈ wholeWordRules lexicon ∧ ReadsWords value? := by
  have hword : ∀ kind, (kind, fieldRule key wordValue?) ∈ wholeWordRules lexicon →
      ∃ kind value?, (kind, fieldRule key value?) ∈ wholeWordRules lexicon ∧ ReadsWords value? :=
    fun kind hmem => ⟨kind, wordValue?, hmem, wordValue?_readsWords⟩
  simp only [fieldKeys, List.mem_cons, List.not_mem_nil, or_false] at hkey
  rcases hkey with rfl | rfl | rfl | rfl | rfl | rfl | rfl
  · exact hword .object (by simp [wholeWordRules, earlyRules])
  · exact hword .text (by simp [wholeWordRules, earlyRules])
  · exact hword .type (by simp [wholeWordRules, earlyRules])
  · exact hword .format (by simp [wholeWordRules, earlyRules])
  · exact ⟨.date, dateValue? (spacedPresets lexicon), by simp [wholeWordRules], dateValue?_readsWords _⟩
  · exact hword .site (by simp [wholeWordRules])
  · exact hword .tag (by simp [wholeWordRules])

/-- A key and a colon at the front of a word that says something are a field. -/
theorem dropCaseless?_key_of_passes {key : String} (hkey : key ∈ fieldKeys) {value? : List Char → Option Found}
    (hvalue : ReadsWords value?) {w : List Char} (hw : IsSolid w) (hmeans : ¬ IsLeftOver w)
    (h : (fieldRule key value?).Passes w) : dropCaseless? (key.toList ++ [':']) w = none := by
  rw [Option.eq_none_iff_forall_not_mem]
  intro more hmore
  have hdrop := dropCaseless?_key_iff.1 hmore
  obtain ⟨k, hsplit, hk⟩ := dropCaseless?_eq_some_iff.1 hdrop
  obtain ⟨rest, hrest, hnone⟩ := h
  rw [fieldRule, if_pos rfl, dropCaseless?_append (isSolid_fieldKeys key hkey).2 w hrest, hdrop] at hnone
  cases more with
  | nil => exact hmeans (.inr (.inr (.inr ⟨key, hkey, k, hsplit, hk⟩)))
  | cons c more =>
    have hstart := hvalue _ (Option.map_eq_none_iff.1 hnone) c rfl
    rw [hw.2 c (by simp [hsplit])] at hstart
    cases hstart

theorem hyphens_of_passes {w : List Char} (hw : IsSolid w) (h : Rule.Passes exclusionRule w) (c : Char)
    (rest : List Char) (hwc : w = '-' :: c :: rest) : c = '-' := by
  have hnone := exclusionRule_isLocal.eq_none_of_passes hw.1 h
  by_contra hc
  have hvisible : ∀ d ∈ c :: rest, isBlank d = false := fun d hd => hw.2 d (hwc ▸ List.mem_cons_of_mem _ hd)
  have hfound := exclusionRule_of_parts hc hvisible startsBlank_nil
  rw [List.append_nil, ← hwc, hnone] at hfound
  cases hfound

theorem not_mem_blanked {c : Char} (hc : c ≠ ' ') {s : List Char} (h : c ∉ s) (ts : List Token) : c ∉ blanked ts s := by
  intro hmem
  obtain ⟨i, hi⟩ := List.mem_iff_getElem?.1 hmem
  rw [getElem?_blanked, Option.map_eq_some_iff] at hi
  obtain ⟨d, hd, hcd⟩ := hi
  split at hcd
  · exact hc hcd.symm
  · exact h (hcd ▸ List.mem_of_getElem? hd)

theorem sweep_hashtag {s : List Char} (h : '#' ∉ s) : sweep .hashtag hashtagRule 0 0 true s = ([], s) := by
  refine sweep_eq_of_forall hashtagRule_isLocal.takes fun pre rest hs => ?_
  rw [Option.eq_none_iff_forall_not_mem]
  intro f hf
  obtain ⟨-, c, name, later, rfl, -⟩ := hashtagRule_eq_some hf
  exact h (by simp [hs])

/-- Without quotes, bars and hash signs only the rules that take whole words find anything. -/
theorem sweepAll_without_signs (lexicon : Lexicon) {s : List Char} (hs : ∀ m ∈ ['"', '|', '#'], m ∉ s) :
    sweepAll (rules lexicon) s = sweepAll (wholeWordRules lexicon) s := by
  have hbars : ¬ ['|', '|'] <:+: s := fun hbars => hs '|' (by simp) (hbars.subset List.mem_cons_self)
  let before := (wholeWordRules lexicon).dropLast
  have hwhole : wholeWordRules lexicon = before ++ [(.excluded, exclusionRule)] := rfl
  have hrules : rules lexicon = signRules ++ (before ++ (.hashtag, hashtagRule) :: [(.excluded, exclusionRule)]) := rfl
  have hleft : '#' ∉ (sweepAll before s).2 := by
    rw [sweepAll_blanks fun r hr => (wholeWordRules_takeWords lexicon r ((List.dropLast_subset _) hr)).takes]
    exact not_mem_blanked (by decide) (hs '#' (by simp)) _
  rw [hrules, sweepAll_signRules_append (hs '"' (by simp)) hbars, hwhole, sweepAll_append_rules, sweepAll_append_rules,
    sweepAll_cons, sweep_hashtag hleft]
  rfl

/-- A word that is left of such a query is bare if it says something. -/
theorem isBareTerm_of_mem_left (lexicon : Lexicon) {s w : List Char} (hs : ∀ m ∈ ['"', '|', '#'], m ∉ s)
    (hw : w ∈ words (sweepAll (rules lexicon) s).2) (hmeans : ¬ IsLeftOver w) : IsBareTerm w := by
  have hsolid : IsSolid w := of_mem_words hw
  rw [sweepAll_without_signs lexicon hs] at hw
  obtain ⟨hmem, hpasses⟩ := of_mem_words_sweepAll (wholeWordRules_takeWords lexicon) hw
  refine ⟨hsolid, fun m hm hmw => hs m hm (mem_of_mem_words hmem hmw), hmeans, fun key hkey => ?_, ?_⟩
  · obtain ⟨kind, value?, hrule, hvalue⟩ := exists_rule_of_mem_fieldKeys lexicon hkey
    exact dropCaseless?_key_of_passes hkey hvalue hsolid hmeans (hpasses _ hrule)
  · exact hyphens_of_passes hsolid (hpasses (.excluded, exclusionRule) (by simp [wholeWordRules]))

/-! ## Texts of bare words -/

theorem fieldRule_eq_none_of_isBareTerm {w : List Char} (h : IsBareTerm w) {key : String} (hkey : key ∈ fieldKeys)
    (value? : List Char → Option Found) : fieldRule key value? true w = none := by
  rw [Option.eq_none_iff_forall_not_mem]
  intro f hf
  obtain ⟨-, k, rest, v, rfl, hk, -⟩ := fieldRule_eq_some hf
  have hdrop : dropCaseless? key.toList (k ++ ':' :: rest) = some (':' :: rest) :=
    dropCaseless?_eq_some_iff.2 ⟨k, rfl, hk⟩
  rw [← dropCaseless?_key_iff, h.keys key hkey] at hdrop
  cases hdrop

theorem IsBareTerm.eq_none {w : List Char} (h : IsBareTerm w) {r : TokenKind × Rule} (hr : r ∈ wordRules) :
    r.2 true w = none := by
  have hfield : ∀ key ∈ fieldKeys, fieldRule key wordValue? true w = none := fun key hkey =>
    fieldRule_eq_none_of_isBareTerm h hkey wordValue?
  simp only [wordRules, earlyRules, lateRules, List.cons_append, List.nil_append, List.mem_cons, List.not_mem_nil,
    or_false] at hr
  rcases hr with rfl | rfl | rfl | rfl | rfl | rfl | rfl | rfl
  · exact hfield "object" (by decide)
  · exact hfield "text" (by decide)
  · exact hfield "type" (by decide)
  · exact hfield "format" (by decide)
  · exact hfield "site" (by decide)
  · exact hfield "tag" (by decide)
  · rw [Option.eq_none_iff_forall_not_mem]
    intro f hf
    obtain ⟨-, c, name, rest, rfl, -⟩ := hashtagRule_eq_some hf
    exact h.signs '#' (by simp) List.mem_cons_self
  · rw [Option.eq_none_iff_forall_not_mem]
    intro f hf
    obtain ⟨-, c, word, rest, rfl, -, hc, -⟩ := exclusionRule_eq_some hf
    exact hc (h.hyphens c _ rfl)

section Bare

variable {s : List Char}

theorem isPlain_of_areBare (h : ∀ w ∈ words s, IsBareTerm w) : IsPlain s where
  quote := not_mem_of_words (by decide) fun w hw => (h w hw).signs '"' (by simp)
  bar := not_mem_of_words (by decide) fun w hw => (h w hw).signs '|' (by simp)
  date w hw := (h w hw).keys "date" (by decide)

/-- A text of bare words has its words for tokens. -/
theorem tokensOf_of_areBare (lexicon : Lexicon) (h : ∀ w ∈ words s, IsBareTerm w) :
    (tokensOf lexicon s).map Token.content = (words s).map fun w => (.term, [String.ofList (lower w)]) := by
  have hnone : sweepAll (rules lexicon) s = ([], s) := by
    rw [sweepAll_of_isPlain lexicon (isPlain_of_areBare h)]
    exact sweepAll_eq_of_words (fun _ => wordRules_isLocal) fun r hr w hw => (h w hw).eq_none hr
  rw [tokensOf_eq, hnone, blanked_nil, List.nil_append, contents_termsOf, ← List.filterMap_eq_map]
  refine List.filterMap_congr fun w hw => ?_
  have hbare := filter_isQuote_of_not_mem ((h w hw).signs '"' (by simp))
  rw [termOf?_of_not_isLeftOver 0 (hbare.symm ▸ (h w hw).means), hbare]
  rfl

end Bare

/-! ## Filters -/

section Filters

variable {clock : Clock} {lexicon : Lexicon}

/-- Tokens of other kinds leave a part as it is. -/
theorem part_of_foldlM {ts : List Token} {p : Part} (hts : ∀ t ∈ ts, t.kind.part? ≠ some p) {f g : Filter}
    (h : ts.foldlM (Filter.addToken clock lexicon) f = .ok g) : g.part p = f.part p := by
  induction ts generalizing f with
  | nil =>
    cases h
    rfl
  | cons t ts ih =>
    obtain ⟨ht, hts⟩ := List.forall_mem_cons.1 hts
    rw [List.foldlM_cons] at h
    obtain ⟨f', hadd, h⟩ := bind_eq_ok.1 h
    rw [ih hts h, (sameBut_addToken hadd).part p ht]

/-- The rules for fields and exclusions say nothing for terms and phrases. -/
theorem part?_of_mem_wholeWordRules {r : TokenKind × Rule} (hr : r ∈ wholeWordRules lexicon) :
    r.1.part? ≠ some .terms ∧ r.1.part? ≠ some .phrases := by
  simp only [wholeWordRules, earlyRules, List.cons_append, List.nil_append, List.mem_cons, List.not_mem_nil,
    or_false] at hr
  rcases hr with rfl | rfl | rfl | rfl | rfl | rfl | rfl | rfl <;> simp [TokenKind.part?]

theorem exists_word_of_mem_termsOf {s : List Char} (hq : '"' ∉ s) {t : Token} (h : t ∈ termsOf s) :
    ∃ w ∈ words s, ¬ IsLeftOver w ∧ t.content = (.term, [String.ofList (lower w)]) := by
  obtain ⟨⟨w, n⟩, hplaced, hterm⟩ := List.mem_filterMap.1 h
  change termOf? w n = some t at hterm
  have hword : w ∈ words s := by
    rw [← map_fst_placedWords 0]
    exact List.mem_map_of_mem (f := Prod.fst) hplaced
  have hbare := filter_isQuote_of_not_mem fun hmem => hq (mem_of_mem_words hword hmem)
  have hmeans : ¬ IsLeftOver w := by
    rw [← hbare, ← termOf?_eq_none_iff (n := n), hterm]
    exact Option.some_ne_none t
  rw [termOf?_of_not_isLeftOver n (hbare.symm ▸ hmeans), hbare] at hterm
  cases hterm
  exact ⟨w, hword, hmeans, rfl⟩

/-- The terms of such a query are bare words, lower-cased, and there are no phrases. -/
theorem terms_of_compile {query : String} (hquery : ∀ m ∈ ['"', '|', '#'], m ∉ query.toList) {f : Filter}
    (h : compile clock lexicon query = .ok f) : f.freeText = String.intercalate " " f.terms ∧
      ∀ v ∈ f.terms, IsBareTerm v.toList ∧ IsLowered v := by
  have hs : ∀ m ∈ ['"', '|', '#'], m ∉ strip query.toList := fun m hm hmem => hquery m hm (mem_of_mem_strip hmem)
  rw [compile_eq_ofTokens] at h
  generalize strip query.toList = s at h hs
  obtain ⟨g, hg, rfl⟩ := ofTokens_eq_ok.1 h
  rw [tokensOf_eq, List.foldlM_append] at hg
  obtain ⟨swept, hswept, hg⟩ := bind_eq_ok.1 hg
  have hkinds : ∀ t ∈ (sweepAll (rules lexicon) s).1, t.kind.part? ≠ some .terms ∧ t.kind.part? ≠ some .phrases := by
    intro t ht
    rw [sweepAll_without_signs lexicon hs] at ht
    obtain ⟨r, hr, hkind⟩ := kind_of_mem_sweepAll ht
    rw [hkind]
    exact part?_of_mem_wholeWordRules hr
  have hterms : swept.terms = [] := part_of_foldlM (p := .terms) (fun t ht => (hkinds t ht).1) hswept
  have hphrases : swept.phrases = [] := part_of_foldlM (p := .phrases) (fun t ht => (hkinds t ht).2) hswept
  have hwords : ∀ t ∈ termsOf (blanked (sweepAll (rules lexicon) s).1 s),
      ∃ w, IsBareTerm w ∧ t.content = (.term, [String.ofList (lower w)]) := by
    intro t ht
    obtain ⟨w, hw, hmeans, hcontent⟩ := exists_word_of_mem_termsOf (not_mem_blanked (by decide) (hs '"' (by simp)) _) ht
    rw [← sweepAll_blanks fun r hr => (rules_take lexicon hr).1] at hw
    exact ⟨w, isBareTerm_of_mem_left lexicon hs hw hmeans, hcontent⟩
  generalize termsOf _ = left at hg hwords
  have hcontents : left.map Token.content = (left.map Token.value).map fun v => (.term, [v]) := by
    rw [List.map_map]
    refine List.map_congr_left fun t ht => ?_
    obtain ⟨w, -, hcontent⟩ := hwords t ht
    obtain ⟨kind, values, start, stop⟩ := t
    cases hcontent
    rfl
  rw [foldlM_terms clock hcontents, hterms, List.nil_append] at hg
  cases hg
  refine ⟨by simp only [Filter.joined, hphrases, List.append_nil], fun v hv => ?_⟩
  obtain ⟨t, ht, rfl⟩ := List.mem_map.1 hv
  obtain ⟨w, hw, hcontent⟩ := hwords t ht
  have hvalue : t.value = String.ofList (lower w) := by
    rw [Token.value, (Prod.mk.inj hcontent).2]
    rfl
  rw [hvalue, String.toList_ofList]
  exact ⟨hw.lower, isLowered_ofList_lower w⟩

end Filters

/-- The free text of the filter of a query without quotes, bars and hash signs, compiled again at any
    time and for any lexicon, has the filter's terms and nothing else. -/
theorem compile_freeText (clock later : Clock) (lexicon other : Lexicon) {query : String} (hquote : '"' ∉ query.toList)
    (hbar : '|' ∉ query.toList) (hhash : '#' ∉ query.toList) {f : Filter} (h : compile clock lexicon query = .ok f) :
    compile later other f.freeText = .ok { terms := f.terms, freeText := f.freeText } := by
  have hquery : ∀ m ∈ ['"', '|', '#'], m ∉ query.toList := by
    simp only [List.forall_mem_cons]
    exact ⟨hquote, hbar, hhash, fun m hm => by cases hm⟩
  obtain ⟨htext, hterms⟩ := terms_of_compile hquery h
  have hbare : ∀ w ∈ f.terms.map String.toList, IsBareTerm w := by
    intro w hw
    obtain ⟨v, hv, rfl⟩ := List.mem_map.1 hw
    exact (hterms v hv).1
  have hwords : words (strip f.freeText.toList) = f.terms.map String.toList := by
    rw [words_strip, htext, String.toList_intercalate, intercalate_eq_joinWith]
    exact words_joinWith fun w hw => (hbare w hw).solid
  have hcontents : (tokensOf other (strip f.freeText.toList)).map Token.content = f.terms.map fun v => (.term, [v]) := by
    rw [tokensOf_of_areBare other (hwords ▸ hbare), hwords, List.map_map]
    refine List.map_congr_left fun v hv => ?_
    rw [Function.comp_apply, lower_of_isSettledText (hterms v hv).2, String.ofList_toList]
  rw [compile_eq_ofTokens]
  refine ofTokens_eq_ok.2 ⟨_, foldlM_terms later hcontents {}, ?_⟩
  simp only [Filter.joined, List.nil_append, List.append_nil, htext]

/-- Words with two hyphens, with colons and of other alphabets stay terms, and so do the words after
    a key that are a date when they stand right after it. -/
theorem compile_freeText_last_week :
    let clock : Clock := ⟨.universal (738000 * microsPerDay), Zone.utc⟩
    let later : Clock := ⟨.universal (739000 * microsPerDay), Zone.utc⟩
    let lexicon : Lexicon := .ofWrites [("Last Week", 7)] []
    let query := "date:Last  Week --X object: -Blue text:Bill's Key:Ring -- ſite:Ü Lİnk:x date: last week ΟΔΟΣ"
    '"' ∉ query.toList ∧ '|' ∉ query.toList ∧ '#' ∉ query.toList ∧ ∃ f, compile clock lexicon query = .ok f ∧
      f.terms = ["--x", "key:ring", "li\u0307nk:x", "last", "week", "οδος"] ∧
      compile later lexicon f.freeText = .ok { terms := f.terms, freeText := f.freeText } := by
  intro clock later lexicon query
  have hquote : '"' ∉ query.toList := by decide
  have hbar : '|' ∉ query.toList := by decide
  have hhash : '#' ∉ query.toList := by decide
  have hterms : (compile clock lexicon query).map (·.terms) =
      .ok ["--x", "key:ring", "li\u0307nk:x", "last", "week", "οδος"] := by decide +kernel
  obtain ⟨f, hf, hfterms⟩ := exists_of_map_eq_ok hterms
  exact ⟨hquote, hbar, hhash, f, hf, hfterms, compile_freeText clock later lexicon lexicon hquote hbar hhash hf⟩

/-- With a quote astray, with bars and with hash signs in a word, a term becomes a filter. -/
theorem compile_freeText_signs (clock : Clock) :
    (compile clock ⟨[], []⟩ "\"-b" = .ok { terms := ["-b"], freeText := "-b" } ∧
      compile clock ⟨[], []⟩ "-b" = .ok { excludedTerms := ["b"] }) ∧
    (compile clock ⟨[], []⟩ "x a||b||c" = .ok { terms := ["x", "||c"], choices := [("a", "b")], freeText := "x ||c" } ∧
      compile clock ⟨[], []⟩ "x ||c" = .ok { choices := [("x", "c")] }) ∧
    compile clock ⟨[], []⟩ "#c#d" = .ok { terms := ["#d"], tags := ["c"], freeText := "#d" } ∧
      compile clock ⟨[], []⟩ "#d" = .ok { tags := ["d"] } := by
  refine ⟨⟨?_, ?_⟩, ⟨?_, ?_⟩, ?_, ?_⟩ <;> rfl

end SearchBox.Query

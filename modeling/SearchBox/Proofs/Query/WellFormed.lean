import SearchBox.Proofs.Query.Stored
import SearchBox.Proofs.Text.Letterwise

/-!
  SearchBox.Proofs.Query.WellFormed — what the values of a query's filter look like. Each rule
  finds values of one shape (`rules_yield`), and lower-casing keeps the shape
  (`TokenKind.Shape.lower`), so that tokens have the shape of their kind whatever has been blanked
  between them (`shape_of_mem_tokensOf`). A token of its shape keeps a filter well-formed
  (`IsWellFormed.addToken`), and therefore every query's filter is (`isWellFormed_of_compile`).
-/

namespace SearchBox.Query

open SearchBox.Calendar SearchBox.Text

/-! ## Shapes of values -/

/-- What a value of a token looks like. -/
def TokenKind.Shape : TokenKind → List Char → Prop
  | .excludedPhrase | .phrase => fun v => '"' ∉ v
  | .choice => fun v => IsSolid v ∧ '|' ∉ v
  | .excluded => fun v => IsSolid v ∧ v.head? ≠ some '-'
  | .term => fun v => IsSolid v ∧ '"' ∉ v ∧ ¬ IsLeftOver v
  | .date => fun _ => True
  | .object | .text | .type | .format | .site | .tag | .hashtag => IsSolid

theorem signs : ∀ m ∈ ['"', '-', '|', '#', ':'], isSign m = true ∧ m ≠ combiningDot := by
  have hall : (['"', '-', '|', '#', ':'].all fun m => isSign m && m ≠ combiningDot) = true := by decide
  simpa only [List.all_eq_true, Bool.and_eq_true, decide_eq_true_eq] using hall

theorem not_mem_lower {m : Char} (hm : m ∈ ['"', '-', '|', '#', ':']) {v : List Char} (h : m ∉ v) : m ∉ lower v := by
  intro hlower
  obtain ⟨hsign, hdot⟩ := signs m hm
  exact h (mem_of_sign_mem_lower hsign hdot hlower)

theorem eq_of_sameLetter {c m : Char} (hm : m ∈ ['"', '-', '|', '#', ':']) (h : sameLetter c m = true) : c = m :=
  eq_of_sameLetter_sign (signs m hm).1 h

theorem fieldKeys_without_dots : ∀ key ∈ fieldKeys, caselessKey combiningDot ∉ key.toList.map caselessKey := by
  decide +kernel

/-- A text that says something still does when it is lower-cased. -/
theorem isLeftOver_of_isLeftOver_lower {v : List Char} (h : IsLeftOver (lower v)) : IsLeftOver v := by
  rcases h with hempty | hmarks | hhash | ⟨key, hkey, k, hlower, hk⟩
  · exact .inl (lower_eq_nil_iff.1 hempty)
  · refine .inr (.inl fun c hc => ?_)
    obtain ⟨d, hd, hsame⟩ := exists_mem_lower hc
    rcases hmarks d hd with rfl | rfl
    · exact .inl (eq_of_sameLetter (by decide) hsame)
    · exact .inr (eq_of_sameLetter (by decide) hsame)
  · have hletters := sameLetters_lower (s := v) (by rw [hhash]; decide)
    rw [hhash] at hletters
    obtain ⟨c, rest, hc, hrest, rfl⟩ := List.forall₂_cons_right_iff.1 hletters
    rw [List.forall₂_nil_right_iff.1 hrest, eq_of_sameLetter (by decide) hc]
    exact .inr (.inr (.inl rfl))
  · rw [sameLetters_iff] at hk
    have hdot : combiningDot ∉ lower v := by
      intro hmem
      rw [hlower] at hmem
      rcases List.mem_append.1 hmem with hmem | hmem
      · have hcode := List.mem_map_of_mem (f := caselessKey) hmem
        rw [← hk] at hcode
        exact fieldKeys_without_dots key hkey hcode
      · exact absurd (List.mem_singleton.1 hmem) (by decide)
    have hletters := sameLetters_iff.1 (sameLetters_lower hdot)
    rw [hlower, List.map_append, List.map_eq_append_iff] at hletters
    obtain ⟨k', colon, rfl, hk', hcolon⟩ := hletters
    have hlast := sameLetters_iff.2 hcolon
    obtain ⟨c, rest, hc, hrest, rfl⟩ := List.forall₂_cons_right_iff.1 hlast
    rw [List.forall₂_nil_right_iff.1 hrest, eq_of_sameLetter (by decide) hc]
    exact .inr (.inr (.inr ⟨key, hkey, k', rfl, sameLetters_iff.2 (hk.trans hk'.symm)⟩))

theorem head?_lower_ne_dash {v : List Char} (h : v.head? ≠ some '-') : (lower v).head? ≠ some '-' := by
  cases v with
  | nil => exact h
  | cons c v =>
    obtain ⟨d, after, hsame, hcons⟩ := lowerFrom_cons false c v
    have hhead : (lower (c :: v)).head? = some d := by
      rcases hcons with ⟨-, heq⟩ | ⟨-, heq⟩ <;> simp [lower, heq]
    intro hdash
    rw [hhead] at hdash
    cases hdash
    exact h (congrArg some (eq_of_sameLetter (by decide) hsame))

theorem TokenKind.Shape.lower {k : TokenKind} {v : List Char} (h : k.Shape v) : k.Shape (Text.lower v) := by
  cases k
  case excludedPhrase | phrase => exact not_mem_lower (by decide) h
  case choice => exact ⟨h.1.lower, not_mem_lower (by decide) h.2⟩
  case excluded => exact ⟨h.1.lower, head?_lower_ne_dash h.2⟩
  case term =>
    exact ⟨h.1.lower, not_mem_lower (by decide) h.2.1, fun hlower => h.2.2 (isLeftOver_of_isLeftOver_lower hlower)⟩
  case date => trivial
  all_goals exact IsSolid.lower h

/-! ## What rules find -/

/-- All values that a rule finds have a property. -/
def Rule.Yields (r : Rule) (P : List Char → Prop) : Prop :=
  ∀ ws s f, r ws s = some f → ∀ v ∈ f.values, P v

theorem fieldRule_yields (key : String) : (fieldRule key wordValue?).Yields IsSolid := by
  intro ws s f h v hv
  obtain ⟨-, k, rest, found, -, -, hfound, rfl⟩ := fieldRule_eq_some h
  obtain ⟨word, later, -, rfl, hword, -⟩ := wordValue?_eq_some hfound
  rw [List.mem_singleton.1 hv]
  exact hword

theorem hashtagRule_yields : Rule.Yields hashtagRule IsSolid := by
  intro ws s f h v hv
  obtain ⟨-, c, name, rest, -, rfl, hc, hname, -⟩ := hashtagRule_eq_some h
  rw [List.mem_singleton.1 hv]
  refine ⟨List.cons_ne_nil _ _, List.forall_mem_cons.2 ⟨isBlank_eq_false_of_isWordChar hc, fun d hd => ?_⟩⟩
  exact isBlank_of_isNameChar (hname d hd)

theorem exclusionRule_yields : Rule.Yields exclusionRule (TokenKind.Shape .excluded) := by
  intro ws s f h v hv
  obtain ⟨-, c, word, rest, -, rfl, hdash, hvisible, -⟩ := exclusionRule_eq_some h
  rw [List.mem_singleton.1 hv]
  refine ⟨⟨List.cons_ne_nil _ _, hvisible⟩, fun hhead => hdash ?_⟩
  exact Option.some.inj hhead

theorem choiceRule_yields : Rule.Yields choiceRule (TokenKind.Shape .choice) := by
  intro ws s f h v hv
  obtain ⟨left, gap, gapAfter, right, rest, -, rfl, hleft, hright, hchars, -⟩ := choiceRule_eq_some h
  have hmember : ∀ u, u ≠ [] → (∀ c ∈ u, isChoiceChar c = true) → TokenKind.Shape .choice u := by
    intro u hne hu
    refine ⟨⟨hne, fun c hc => isBlank_of_isChoiceChar (hu c hc)⟩, fun hbar => ?_⟩
    exact absurd (hu _ hbar) (by decide)
  rcases List.mem_cons.1 hv with rfl | hv
  · exact hmember _ hleft fun c hc => hchars c (List.mem_append_left _ hc)
  · rw [List.mem_singleton.1 hv]
    exact hmember _ hright fun c hc => hchars c (List.mem_append_right _ hc)

theorem not_mem_of_quotedRun? {s run : List Char} (h : quotedRun? s = some run) : '"' ∉ run := by
  obtain ⟨rest, -, -, hrun⟩ := quotedRun?_eq_some h
  intro hquote
  exact absurd (hrun _ hquote) (by decide)

theorem phraseRule_yields : Rule.Yields phraseRule ('"' ∉ ·) := by
  intro ws s f h v hv
  obtain ⟨run, hrun, rfl⟩ := Option.map_eq_some_iff.1 h
  rw [List.mem_singleton.1 hv]
  exact not_mem_of_quotedRun? hrun

theorem excludedPhraseRule_yields : Rule.Yields excludedPhraseRule ('"' ∉ ·) := by
  intro ws s f h v hv
  unfold excludedPhraseRule at h
  split at h
  · obtain ⟨run, hrun, rfl⟩ := Option.map_eq_some_iff.1 h
    rw [List.mem_singleton.1 hv]
    exact not_mem_of_quotedRun? hrun
  · cases h

theorem rules_yield (lexicon : Lexicon) {r : TokenKind × Rule} (hr : r ∈ rules lexicon) : r.2.Yields r.1.Shape := by
  simp only [rules, List.mem_cons, List.not_mem_nil, or_false] at hr
  rcases hr with rfl | rfl | rfl | rfl | rfl | rfl | rfl | rfl | rfl | rfl | rfl | rfl
  · exact excludedPhraseRule_yields
  · exact phraseRule_yields
  · exact choiceRule_yields
  · exact fieldRule_yields "object"
  · exact fieldRule_yields "text"
  · exact fieldRule_yields "type"
  · exact fieldRule_yields "format"
  · exact fun ws s f _ v _ => trivial
  · exact fieldRule_yields "site"
  · exact fieldRule_yields "tag"
  · exact hashtagRule_yields
  · exact exclusionRule_yields

theorem shape_of_termOf? {w : List Char} {n : Nat} {t : Token} (hw : ∀ c ∈ w, isBlank c = false)
    (h : termOf? w n = some t) : ∀ v ∈ t.values, TokenKind.Shape .term v.toList := by
  have hsays : ¬ IsLeftOver (w.filter (!isQuote ·)) := by
    rw [← termOf?_eq_none_iff (n := n), h]
    exact Option.some_ne_none t
  have hbare : TokenKind.Shape .term (w.filter (!isQuote ·)) := by
    refine ⟨⟨fun hnil => hsays (.inl hnil), fun c hc => hw c (List.mem_filter.1 hc).1⟩, fun hquote => ?_, hsays⟩
    exact absurd (List.mem_filter.1 hquote).2 (by decide)
  simp only [termOf?] at h
  split at h
  · cases h
  · cases h
    intro v hv
    rw [List.mem_singleton.1 hv, String.toList_ofList]
    exact hbare.lower

/-- The values of every token have the shape of its kind. -/
theorem shape_of_mem_tokensOf {lexicon : Lexicon} {s : List Char} {t : Token} (h : t ∈ tokensOf lexicon s) :
    ∀ v ∈ t.values, t.kind.Shape v.toList := by
  rw [tokensOf_eq] at h
  rcases List.mem_append.1 h with h | h
  · obtain ⟨r, hr, ws, s', f, hf, hkind, hvalues⟩ := exists_of_mem_sweepAll h
    intro v hv
    rw [hvalues] at hv
    obtain ⟨found, hfound, rfl⟩ := List.mem_map.1 hv
    rw [hkind, String.toList_ofList]
    exact (rules_yield lexicon hr ws s' f hf found hfound).lower
  · obtain ⟨⟨w, n⟩, hplaced, hterm⟩ := List.mem_filterMap.1 h
    have hword := List.mem_map_of_mem (f := Prod.fst) hplaced
    rw [map_fst_placedWords] at hword
    rw [(termOf?_eq_some hterm).1]
    exact shape_of_termOf? (of_mem_words hword).2 hterm

/-! ## Well-formed filters -/

/-- What a value of a part looks like. -/
def Part.Allows (lexicon : Lexicon) : Part → String → Prop
  | .terms => fun v => IsSolid v.toList ∧ '"' ∉ v.toList ∧ ¬ IsLeftOver v.toList
  | .phrases | .excludedPhrases => fun v => isBlankText v.toList = false ∧ '"' ∉ v.toList
  | .excludedTerms => fun v => IsSolid v.toList ∧ v.toList.head? ≠ some '-'
  | .types => fun v => ∃ e ∈ lexicon.kinds, v ∈ e.2
  | .objects | .texts | .formats | .sites | .tags => fun v => IsSolid v.toList

namespace Filter

/-- Values of the shapes of their parts, lower-cased and, but for terms and choices, each once;
    a preset and type tags of the lexicon, and a day of the zone. -/
structure IsWellFormed (zone : Zone) (lexicon : Lexicon) (f : Filter) : Prop where
  parts : ∀ p, ∀ v ∈ f.part p, p.Allows lexicon v
  choices : ∀ c ∈ f.choices, ∀ v ∈ [c.1, c.2], IsSolid v.toList ∧ '|' ∉ v.toList
  lowered : ∀ p, p ≠ .types → ∀ v ∈ f.part p, lowerText v = v
  loweredChoices : ∀ c ∈ f.choices, ∀ v ∈ [c.1, c.2], lowerText v = v
  nodup : ∀ p, p ≠ .terms → (f.part p).Nodup
  since : ∀ v ∈ f.since, ∃ e ∈ lexicon.presets, e.1 = v
  day : ∀ span ∈ f.day, ∃ day, DaySpan.ofDay zone day = .ok span

theorem isWellFormed_empty (zone : Zone) (lexicon : Lexicon) : IsWellFormed zone lexicon {} := by
  have hpart : ∀ p, ({} : Filter).part p = [] := fun p => by cases p <;> rfl
  refine ⟨fun p v hv => ?_, fun c hc => ?_, fun p _ v hv => ?_, fun c hc => ?_, fun p _ => ?_, fun v hv => ?_,
    fun span hspan => ?_⟩
  · rw [hpart] at hv
    cases hv
  · cases hc
  · rw [hpart] at hv
    cases hv
  · cases hc
  · rw [hpart]
    exact List.nodup_nil
  · cases hv
  · cases hspan

end Filter

theorem Part.nodup_join {p : Part} (hp : p ≠ .terms) {old new : List String} (h : old.Nodup) : (p.join old new).Nodup := by
  have hfold : (new.foldl (fun values v => addNew v values) old).Nodup := by
    induction new generalizing old with
    | nil => exact h
    | cons v new ih => exact ih (nodup_addNew h)
  cases p
  case terms => exact absurd rfl hp
  all_goals exact hfold

/-- What a token of its shape is worth suits its part. -/
theorem allows_of_mem_worth {lexicon : Lexicon} {kind : TokenKind} {p : Part} (hp : kind.part? = some p) {v w : String}
    (hv : kind.Shape v.toList) (hw : w ∈ worth lexicon kind v) : p.Allows lexicon w := by
  have hitself : w ∈ [v] → w = v := List.mem_singleton.1
  cases kind <;> cases hp
  case type =>
    simp only [worth, Lexicon.tagsOf] at hw
    cases hlookup : lexicon.kinds.lookup (lowerText v) with
    | none =>
      rw [hlookup] at hw
      cases hw
    | some tags =>
      rw [hlookup] at hw
      exact ⟨_, Table.mem_of_lookup hlookup, hw⟩
  case phrase | excludedPhrase =>
    simp only [worth, List.mem_ite_nil_left] at hw
    rw [hitself hw.2]
    exact ⟨Bool.eq_false_iff.2 hw.1, hv⟩
  all_goals
    rw [hitself hw]
    exact hv

theorem lowerText_of_mem_worth {lexicon : Lexicon} {kind : TokenKind} {v w : String} (hkind : kind ≠ .type)
    (hv : IsLowered v) (hw : w ∈ worth lexicon kind v) : lowerText w = w := by
  have hsame : w = v := by
    cases kind
    case type => exact absurd rfl hkind
    case phrase | excludedPhrase =>
      simp only [worth, List.mem_ite_nil_left] at hw
      exact List.mem_singleton.1 hw.2
    all_goals exact List.mem_singleton.1 hw
  rw [hsame]
  exact lowerText_of_isLowered hv

namespace Filter

section Steps

variable {clock : Clock} {lexicon : Lexicon} {f g : Filter}

theorem IsWellFormed.withPart {zone : Zone} (h : IsWellFormed zone lexicon f) {values : List String} {p : Part}
    (hallows : ∀ v ∈ values, p.Allows lexicon v) (hlowered : p ≠ .types → ∀ v ∈ values, lowerText v = v)
    (hnodup : p ≠ .terms → values.Nodup) : IsWellFormed zone lexicon (f.withPart values p) := by
  have hbeside := sameBeside_withPart f values p
  refine ⟨fun q => ?_, ?_, fun q hq => ?_, ?_, fun q hq => ?_, ?_, ?_⟩
  · by_cases hsame : q = p
    · subst hsame
      rw [part_withPart_self]
      exact hallows
    · rw [part_withPart_of_ne hsame]
      exact h.parts q
  · rw [hbeside.choices]
    exact h.choices
  · by_cases hsame : q = p
    · subst hsame
      rw [part_withPart_self]
      exact hlowered hq
    · rw [part_withPart_of_ne hsame]
      exact h.lowered q hq
  · rw [hbeside.choices]
    exact h.loweredChoices
  · by_cases hsame : q = p
    · subst hsame
      rw [part_withPart_self]
      exact hnodup hq
    · rw [part_withPart_of_ne hsame]
      exact h.nodup q hq
  · rw [hbeside.since]
    exact h.since
  · rw [hbeside.day]
    exact h.day

theorem IsWellFormed.addDate (h : f.IsWellFormed clock.zone lexicon) {v : String} (hv : IsLowered v)
    (hg : f.addDate clock lexicon v = .ok g) : g.IsWellFormed clock.zone lexicon := by
  unfold Filter.addDate at hg
  simp only at hg
  split at hg
  · rename_i hknown
    cases hg
    obtain ⟨offset, hoffset⟩ := Option.isSome_iff_exists.1 hknown
    rw [Lexicon.dayOffset?, lowerText_of_isLowered (isLowered_singleSpaced hv)] at hoffset
    refine ⟨h.parts, h.choices, h.lowered, h.loweredChoices, h.nodup, fun w hw => ?_, h.day⟩
    cases hw
    exact ⟨_, Table.mem_of_lookup hoffset, rfl⟩
  split at hg
  · cases hg
    exact h
  split at hg
  · rename_i span hspan
    cases hg
    refine ⟨h.parts, h.choices, h.lowered, h.loweredChoices, h.nodup, h.since, fun s hs => ?_⟩
    cases hs
    exact DaySpan.exists_ofDay hspan
  · cases hg
    exact h
  · cases hg

/-- A token of its shape keeps a filter well-formed. -/
theorem IsWellFormed.addToken (h : f.IsWellFormed clock.zone lexicon) {t : Token}
    (hshape : ∀ v ∈ t.values, t.kind.Shape v.toList) (hlowered : ∀ v ∈ t.values, IsLowered v)
    (hg : f.addToken clock lexicon t = .ok g) : g.IsWellFormed clock.zone lexicon := by
  obtain ⟨kind, values, start, stop⟩ := t
  cases values with
  | nil => cases hg
  | cons v vs =>
    obtain ⟨hv, hvs⟩ := List.forall_mem_cons.1 hshape
    obtain ⟨hlow, hlows⟩ := List.forall_mem_cons.1 hlowered
    cases hpart : kind.part? with
    | some p =>
      rw [addToken_of_part? clock _ hpart rfl] at hg
      cases hg
      refine h.withPart (fun w hw => ?_) (fun hp w hw => ?_) fun hp => Part.nodup_join hp (h.nodup p hp)
      · rcases Part.mem_join.1 hw with hw | hw
        · exact h.parts p w hw
        · exact allows_of_mem_worth hpart hv hw
      · rcases Part.mem_join.1 hw with hw | hw
        · exact h.lowered p hp w hw
        · refine lowerText_of_mem_worth (fun hkind => hp ?_) hlow hw
          subst hkind
          exact (Option.some.inj hpart).symm
    | none =>
      cases kind <;> cases hpart
      · cases vs with
        | nil => cases hg
        | cons w vs =>
          cases hg
          have hpair : ∀ u ∈ [v, w], u ∈ v :: w :: vs := by
            intro u hu
            exact List.mem_append_left vs hu
          refine ⟨h.parts, fun c hc => ?_, h.lowered, fun c hc => ?_, h.nodup, h.since, h.day⟩
          · rcases List.mem_append.1 hc with hc | hc
            · exact h.choices c hc
            · rw [List.mem_singleton.1 hc]
              exact fun u hu => hshape u (hpair u hu)
          · rcases List.mem_append.1 hc with hc | hc
            · exact h.loweredChoices c hc
            · rw [List.mem_singleton.1 hc]
              exact fun u hu => lowerText_of_isLowered (hlowered u (hpair u hu))
      · exact h.addDate hlow hg

theorem IsWellFormed.foldlM {ts : List Token} (hshape : ∀ t ∈ ts, ∀ v ∈ t.values, t.kind.Shape v.toList)
    (hlowered : ∀ t ∈ ts, ∀ v ∈ t.values, IsLowered v) (h : f.IsWellFormed clock.zone lexicon)
    (hg : ts.foldlM (Filter.addToken clock lexicon) f = .ok g) : g.IsWellFormed clock.zone lexicon := by
  induction ts generalizing f with
  | nil =>
    cases hg
    exact h
  | cons t ts ih =>
    obtain ⟨hshapeHead, hshape⟩ := List.forall_mem_cons.1 hshape
    obtain ⟨hlowHead, hlowered⟩ := List.forall_mem_cons.1 hlowered
    rw [List.foldlM_cons] at hg
    obtain ⟨f', hf', hg⟩ := bind_eq_ok.1 hg
    exact ih hshape hlowered (h.addToken hshapeHead hlowHead hf') hg

/-- Terms and phrases are written down once all tokens have been added. -/
theorem IsWellFormed.withFreeText {zone : Zone} (h : IsWellFormed zone lexicon f) (text : String) :
    IsWellFormed zone lexicon { f with freeText := text } := by
  have hpart : ∀ p, ({ f with freeText := text } : Filter).part p = f.part p := fun p => by cases p <;> rfl
  refine ⟨fun p => ?_, h.choices, fun p hp => ?_, h.loweredChoices, fun p hp => ?_, h.since, h.day⟩
  · rw [hpart]
    exact h.parts p
  · rw [hpart]
    exact h.lowered p hp
  · rw [hpart]
    exact h.nodup p hp

end Steps

end Filter

/-- The filter of every query is well-formed, whatever the clock and the lexicon, and its free text
    is its terms and phrases with spaces between them. -/
theorem isWellFormed_of_compile {clock : Clock} {lexicon : Lexicon} {query : String} {f : Filter}
    (h : compile clock lexicon query = .ok f) :
    f.IsWellFormed clock.zone lexicon ∧ f.freeText = String.intercalate " " (f.terms ++ f.phrases) := by
  unfold compile at h
  simp only at h
  split at h
  · cases h
    exact ⟨Filter.isWellFormed_empty _ _, rfl⟩
  · obtain ⟨g, hg, h⟩ := bind_eq_ok.1 h
    cases h
    have hgood := Filter.IsWellFormed.foldlM (fun t => shape_of_mem_tokensOf) (fun t => Filter.isLowered_of_mem_tokensOf)
      (Filter.isWellFormed_empty clock.zone lexicon) hg
    exact ⟨hgood.withFreeText _, rfl⟩

/-- A query with a value of every kind, with quotes and bars astray and a choice read across a
    blanked phrase. -/
theorem isWellFormed_of_compile_every_kind :
    let clock : Clock := ⟨.universal (738000 * microsPerDay), Zone.utc⟩
    let lexicon : Lexicon := .ofWrites [("Last Week", 7)] [("post", ["Tweet", "Tweet"])]
    let query := "-\"A  b\" Cats \"Red Sale\" || dogs \"ΟΔΟΣ| -- # TAG: object:Note text:a type:POST format:PDF " ++
      "date:2024-03-10 date:last  week site:x tag:Ü #ü -Blue"
    ∃ f, compile clock lexicon query = .ok f ∧ f.IsWellFormed clock.zone lexicon ∧
      f.freeText = String.intercalate " " (f.terms ++ f.phrases) := by
  intro clock lexicon query
  have hok : (compile clock lexicon query).isOk = true := by decide +kernel
  obtain ⟨f, hf⟩ := exists_of_isOk hok
  exact ⟨f, hf, isWellFormed_of_compile hf⟩

end SearchBox.Query

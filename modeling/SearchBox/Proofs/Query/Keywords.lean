import SearchBox.Proofs.Number.Numeral
import SearchBox.Proofs.Query.Parts
import SearchBox.Proofs.Query.Presets

/-!
  SearchBox.Proofs.Query.Keywords — all the words that settings define can be asked for
  (`compile_keyword`). A query that starts with a preset (`StartsWithPreset`) is left alone by the
  rules that run before the one for dates (`sweepAll_before`); that rule takes the words of the
  preset, and letters and digits after them are terms (`exists_tokensOf`). A word for a type is
  taken as a whole (`compile_kind`).
-/

namespace SearchBox.Query

open SearchBox.Calendar SearchBox.Number SearchBox.Settings SearchBox.Text

/-! ## Words of letters and digits -/

/-- A word of lower-case ASCII letters and digits. -/
def IsAlphanumeric (w : String) : Prop :=
  w ≠ "" ∧ ∀ c ∈ w.toList, c.isLower = true ∨ c.isDigit = true

instance : DecidablePred IsAlphanumeric := fun w =>
  decidable_of_iff ((w ≠ "" && w.toList.all fun c => c.isLower || c.isDigit) = true) (by simp [IsAlphanumeric])

theorem toNat_of_isLower_or_isDigit {c : Char} (h : c.isLower = true ∨ c.isDigit = true) :
    97 ≤ c.toNat ∧ c.toNat ≤ 122 ∨ 48 ≤ c.toNat ∧ c.toNat ≤ 57 := by
  rcases h with h | h
  · obtain ⟨hlow, hhigh⟩ := (Bool.and_eq_true _ _).mp h
    exact .inl ⟨of_decide_eq_true hlow, of_decide_eq_true hhigh⟩
  · exact .inr (digit_bounds h)

section Alphanumeric

variable {w : String}

theorem IsAlphanumeric.isSolid (h : IsAlphanumeric w) : IsSolid w.toList := by
  refine ⟨fun hnil => h.1 (String.toList_inj.1 hnil), fun c hc => ?_⟩
  rcases toNat_of_isLower_or_isDigit (h.2 c hc) with ⟨hlow, hhigh⟩ | ⟨hlow, hhigh⟩
  · exact covers_eq_false_of_avoids (by decide) hlow hhigh
  · exact covers_eq_false_of_avoids (by decide) hlow hhigh

theorem IsAlphanumeric.isLowered (h : IsAlphanumeric w) : IsLowered w := by
  intro c hc
  have hrange := toNat_of_isLower_or_isDigit (h.2 c hc)
  have hruns : lowerRuns.all (fun r => r.last < 97 && 57 < r.first || 122 < r.first) = true := by decide +kernel
  refine isSettled_of_lowerShift_eq_zero (by omega) ?_
  by_contra hshift
  obtain ⟨r, hr, hfirst, hlast, -⟩ := exists_mem_of_lowerShift_ne hshift
  have hr' := List.all_eq_true.1 hruns r hr
  simp only [Bool.or_eq_true, Bool.and_eq_true, decide_eq_true_eq] at hr'
  omega

theorem IsAlphanumeric.not_mem (h : IsAlphanumeric w) {c : Char} (hlower : c.isLower = false)
    (hdigit : c.isDigit = false) : c ∉ w.toList := by
  intro hmem
  rcases h.2 c hmem with hc | hc
  · rw [hlower] at hc
    cases hc
  · rw [hdigit] at hc
    cases hc

/-- Left alone, such a word is a term. -/
theorem content_of_isAlphanumeric (h : IsAlphanumeric w) :
    (termOf? w.toList 0).map Token.content = some (.term, [w]) := by
  have hbare := filter_isQuote_of_not_mem (h.not_mem (c := '"') (by decide) (by decide))
  have hsays : ¬ IsLeftOver (w.toList.filter (!isQuote ·)) := by
    rw [hbare]
    rintro (hnil | hops | hhash | ⟨key, -, k, hkey, -⟩)
    · exact h.isSolid.1 hnil
    · obtain ⟨c, hc⟩ := List.exists_mem_of_ne_nil _ h.isSolid.1
      rcases hops c hc with rfl | rfl
      · exact h.not_mem (by decide) (by decide) hc
      · exact h.not_mem (by decide) (by decide) hc
    · exact h.not_mem (c := '#') (by decide) (by decide) (by simp [hhash])
    · exact h.not_mem (c := ':') (by decide) (by decide) (by simp [hkey])
  rw [termOf?_of_not_isLeftOver 0 hsays, hbare, lower_of_isSettledText h.isLowered, String.ofList_toList]
  rfl

end Alphanumeric

/-! ## Rules that find nothing -/

/-- The keys of the fields that are looked for before dates. -/
def earlyKeys : List String :=
  ["object:", "text:", "type:", "format:"]

/-- In a lower-cased word a field is found only after its key as it is written here. -/
theorem isPrefix_of_fieldRule {key : String} (hkey : (key.toList.all fun a => lowerChar a = a && isTwinless a) = true)
    {w : List Char} (hw : IsSettledText w) {f : Found} (h : fieldRule key wordValue? true w = some f) :
    key.toList ++ [':'] <+: w := by
  obtain ⟨-, k, more, v, rfl, hk, -, -⟩ := fieldRule_eq_some h
  simp only [List.all_eq_true, Bool.and_eq_true, decide_eq_true_eq] at hkey
  rw [eq_of_sameLetters hk hkey fun c hc => hw c (List.mem_append_left _ hc)]
  exact ⟨more, by simp⟩

theorem isPrefix_of_earlyRules {r : TokenKind × Rule} (hr : r ∈ earlyRules) {w : List Char} (hw : IsSettledText w)
    {f : Found} (h : r.2 true w = some f) : ∃ key ∈ earlyKeys, key.toList <+: w := by
  simp only [earlyRules, List.mem_cons, List.not_mem_nil, or_false] at hr
  rcases hr with rfl | rfl | rfl | rfl
  · exact ⟨"object:", by decide, isPrefix_of_fieldRule (by decide +kernel) hw h⟩
  · exact ⟨"text:", by decide, isPrefix_of_fieldRule (by decide +kernel) hw h⟩
  · exact ⟨"type:", by decide, isPrefix_of_fieldRule (by decide +kernel) hw h⟩
  · exact ⟨"format:", by decide, isPrefix_of_fieldRule (by decide +kernel) hw h⟩

/-- The rules before the one for dates find nothing in lower-cased words without their keys. -/
theorem sweepAll_earlyRules {s : List Char}
    (h : ∀ w ∈ words s, IsSettledText w ∧ ∀ key ∈ earlyKeys, ¬ key.toList <+: w) : sweepAll earlyRules s = ([], s) := by
  have hlocal : ∀ r ∈ earlyRules, r.2.IsLocal := fun r hr => wordRules_isLocal (List.mem_append_left _ hr)
  refine sweepAll_eq_of_words hlocal fun r hr w hw => ?_
  obtain ⟨hsettled, hkeys⟩ := h w hw
  rw [Option.eq_none_iff_forall_not_mem]
  intro f hf
  obtain ⟨key, hkey, hstarts⟩ := isPrefix_of_earlyRules hr hsettled hf
  exact hkeys key hkey hstarts

/-- The rules after the one for dates find nothing in words without their signs. -/
theorem sweepAll_lateRules {s : List Char} (h : ∀ w ∈ words s, ':' ∉ w ∧ '#' ∉ w ∧ '-' ∉ w) :
    sweepAll lateRules s = ([], s) := by
  have hlocal : ∀ r ∈ lateRules, r.2.IsLocal := fun r hr => wordRules_isLocal (List.mem_append_right _ hr)
  refine sweepAll_eq_of_words hlocal fun r hr w hw => ?_
  obtain ⟨hcolon, hhash, hdash⟩ := h w hw
  rw [Option.eq_none_iff_forall_not_mem]
  intro f hf
  have hfield : ∀ {key : String}, fieldRule key wordValue? true w ≠ some f := by
    intro key hfield
    obtain ⟨-, k, more, v, rfl, -⟩ := fieldRule_eq_some hfield
    exact hcolon (by simp)
  simp only [lateRules, List.mem_cons, List.not_mem_nil, or_false] at hr
  rcases hr with rfl | rfl | rfl | rfl
  · exact hfield hf
  · exact hfield hf
  · obtain ⟨-, c, name, rest, rfl, -⟩ := hashtagRule_eq_some hf
    exact hhash List.mem_cons_self
  · obtain ⟨-, c, word, rest, rfl, -⟩ := exclusionRule_eq_some hf
    exact hdash List.mem_cons_self

/-- A field key as it is written, a colon and a value are found. -/
theorem fieldRule_of_value? (key : String) {value? : List Char → Option Found} {rest : List Char} {f : Found}
    (h : value? rest = some f) :
    fieldRule key value? true (key.toList ++ ':' :: rest) = some ⟨f.values, key.toList.length + 1 + f.length⟩ := by
  have hdrop : dropCaseless? key.toList (key.toList ++ ':' :: rest) = some (':' :: rest) :=
    dropCaseless?_eq_some_iff.2 ⟨key.toList, rfl, sameLetters_iff.2 rfl⟩
  rw [fieldRule, if_pos rfl, hdrop]
  simp only [h, Option.map_some]

/-! ## Presets -/

/-- The words of a preset are found in its table however they are spaced. -/
theorem singleSpaced_of_words {p : String} (hp : IsPresetWord p) {m : List Char} (hm : words m = words p.toList) :
    singleSpaced (String.ofList (lower m)) = p := by
  have hlower : (words p.toList).map lower = words p.toList := by
    refine (List.map_congr_left fun w hw => ?_).trans (List.map_id _)
    exact lower_of_isSettledText fun c hc => hp.1 c (mem_of_mem_words hw hc)
  rw [singleSpaced, String.toList_ofList, words_lower, hm, hlower, hp.2, String.ofList_toList]

/-- A text of the words of a preset and further words, with any white space between each two, in
    which no preset of more words stands. -/
structure StartsWithPreset (lexicon : Lexicon) (p : String) (u : List String) (t : List Char) : Prop where
  mem : ∃ days, (p, days) ∈ lexicon.presets
  quote : '"' ∉ p.toList
  bar : '|' ∉ p.toList
  /-- Fields that are looked for earlier would be cut out of the preset. -/
  keys : ∀ w ∈ (words p.toList).tail, ∀ key ∈ earlyKeys, ¬ key.toList <+: w
  later : ∀ w ∈ u, IsAlphanumeric w
  longest : ∀ q ∈ lexicon.presets, (words p.toList).length < (words q.1.toList).length →
    ¬ AreFirstIn (words q.1.toList) (words p.toList ++ u.map String.toList)
  spelled : words t = words p.toList ++ u.map String.toList
  edged : IsEdged t

namespace StartsWithPreset

variable {lexicon : Lexicon} {p : String} {u : List String} {t : List Char}

/-- A sign that the preset does not hold stands nowhere in the text. -/
theorem not_mem (h : StartsWithPreset lexicon p u t) {c : Char} (hvisible : isBlank c = false)
    (hlower : c.isLower = false) (hdigit : c.isDigit = false) (hp : c ∉ p.toList) : c ∉ t := by
  refine not_mem_of_words hvisible fun w hw => ?_
  rw [h.spelled] at hw
  rcases List.mem_append.1 hw with hw | hw
  · exact fun hc => hp (mem_of_mem_words hw hc)
  · obtain ⟨v, hv, rfl⟩ := List.mem_map.1 hw
    exact (h.later v hv).not_mem hlower hdigit

/-- The words of the query: the first one has the key in front. -/
theorem words_date (h : StartsWithPreset lexicon p u t) (hne : words p.toList ≠ []) :
    ∃ w ∈ words p.toList, words ("date:".toList ++ t) =
      ("date:".toList ++ w) :: ((words p.toList).tail ++ u.map String.toList) := by
  have hstart : ¬ StartsBlank t := by
    obtain ⟨c, hc, hvisible⟩ := h.edged.1
    intro hblank
    rw [hblank c hc] at hvisible
    cases hvisible
  have hwords := h.spelled
  obtain ⟨w, rest, rfl, hw, hrest⟩ := exists_word_append hstart
  rw [words_append_of_isSolid hw hrest] at hwords
  obtain ⟨v, vs, hvs⟩ := List.exists_cons_of_ne_nil hne
  rw [hvs, List.cons_append, List.cons.injEq] at hwords
  obtain ⟨rfl, hlater⟩ := hwords
  refine ⟨w, by simp [hvs], ?_⟩
  have hsolid : IsSolid ("date:".toList ++ w) := IsSolid.append (by decide) hw.2
  rw [← List.append_assoc, words_append_of_isSolid hsolid hrest, hlater, hvs, List.tail_cons]

/-- No rule before the one for dates finds anything in the query. -/
theorem sweepAll_before (h : StartsWithPreset lexicon p u t) (hlowered : IsLowered p)
    (hne : words p.toList ≠ []) :
    sweepAll (signRules ++ earlyRules) ("date:".toList ++ t) = ([], "date:".toList ++ t) := by
  have hquote := h.not_mem (by decide) (by decide) (by decide) h.quote
  have hbar := h.not_mem (by decide) (by decide) (by decide) h.bar
  rw [sweepAll_signRules_append (List.not_mem_append (by decide) hquote)
    fun hbars => List.not_mem_append (by decide) hbar (hbars.subset List.mem_cons_self)]
  have hsettled : ∀ w ∈ words p.toList, IsSettledText w := fun w hw c hc =>
    hlowered c (mem_of_mem_words hw hc)
  obtain ⟨first, hfirst, hwords⟩ := h.words_date hne
  refine sweepAll_earlyRules fun w hw => ?_
  rw [hwords] at hw
  rcases List.mem_cons.1 hw with rfl | hw
  · have hdate : IsSettledText "date:".toList := by decide +kernel
    refine ⟨?_, fun key hkey hstarts => ?_⟩
    · intro c hc
      rcases List.mem_append.1 hc with hc | hc
      · exact hdate c hc
      · exact hsettled first hfirst c hc
    · -- The keys start with other letters.
      obtain ⟨more, hmore⟩ := hstarts
      simp only [earlyKeys, List.mem_cons, List.not_mem_nil, or_false] at hkey
      rcases hkey with rfl | rfl | rfl | rfl <;> exact absurd (List.cons.inj hmore).1 (by decide)
  · rcases List.mem_append.1 hw with hw | hw
    · exact ⟨hsettled w (List.mem_of_mem_tail hw), h.keys w hw⟩
    · obtain ⟨v, hv, rfl⟩ := List.mem_map.1 hw
      refine ⟨(h.later v hv).isLowered, fun key hkey hstarts => ?_⟩
      have hcolon : ':' ∈ key.toList := by
        simp only [earlyKeys, List.mem_cons, List.not_mem_nil, or_false] at hkey
        rcases hkey with rfl | rfl | rfl | rfl <;> decide
      exact (h.later v hv).not_mem (by decide) (by decide) (hstarts.subset hcolon)

/-- The tokens of the query are the preset as a date and the words after it as terms. -/
theorem exists_tokensOf (h : StartsWithPreset lexicon p u t)
    (hpresets : ∀ e ∈ lexicon.presets, IsPresetWord e.1 ∧ e.1 ≠ "") :
    ∃ value stop terms, tokensOf lexicon ("date:".toList ++ t) = ⟨.date, [value], 0, stop⟩ :: terms ∧
      singleSpaced value = p ∧ terms.map Token.content = u.map fun w => (.term, [w]) := by
  obtain ⟨days, hp⟩ := h.mem
  obtain ⟨hpword, hpne⟩ := hpresets _ hp
  have hne := words_ne_nil_of_isPresetWord hpword hpne
  have hbefore := h.sweepAll_before hpword.1 hne
  obtain ⟨m, rest, rfl, hm, hrest, hlater⟩ := exists_append_of_words h.spelled hne h.edged.1
  have hwords : words m = words p.toList := by
    have hsplit := h.spelled
    rw [words_append_of_startsBlank m hrest, hlater] at hsplit
    exact List.append_cancel_right hsplit
  have hvalue := dateValue?_of_preset hpresets hp hm hrest (by rw [h.spelled]; exact h.longest)
  have hterm : ∀ w ∈ words rest, ∃ v, IsAlphanumeric v ∧ v.toList = w := by
    intro w hw
    rw [hlater] at hw
    obtain ⟨v, hv, rfl⟩ := List.mem_map.1 hw
    exact ⟨v, h.later v hv, rfl⟩
  have hcolon : ':' ∉ rest := by
    refine not_mem_of_words (by decide) fun w hw => ?_
    obtain ⟨v, hv, rfl⟩ := hterm w hw
    exact hv.not_mem (by decide) (by decide)
  have hgap := isBlankText_replicate ("date:".toList ++ m).length
  have hafter : sweepAll lateRules (List.replicate ("date:".toList ++ m).length ' ' ++ rest) =
      ([], List.replicate ("date:".toList ++ m).length ' ' ++ rest) := by
    refine sweepAll_lateRules fun w hw => ?_
    rw [words_isBlankText_append hgap] at hw
    obtain ⟨v, hv, rfl⟩ := hterm w hw
    exact ⟨hv.not_mem (by decide) (by decide), hv.not_mem (by decide) (by decide), hv.not_mem (by decide) (by decide)⟩
  have hrules : rules lexicon = (signRules ++ earlyRules) ++
      (.date, fieldRule "date" (dateValue? (spacedPresets lexicon))) :: lateRules := rfl
  rw [← List.append_assoc] at hbefore ⊢
  have htokens := tokensOf_front lexicon _ hrules hbefore (List.cons_ne_nil _ _) (fieldRule_of_value? "date" hvalue)
    (by simp; omega) hrest (sweep_field_of_not_mem (dateRule_takes _) hcolon) hafter
  refine ⟨_, _, _, htokens, ?_, ?_⟩
  · exact singleSpaced_of_words hpword hwords
  · rw [contents_termsOf, words_isBlankText_append hgap, hlater, List.filterMap_map, ← List.filterMap_eq_map]
    exact List.filterMap_congr fun w hw => content_of_isAlphanumeric (h.later w hw)

end StartsWithPreset

/-! ## Queries -/

section Queries

variable (clock : Clock) {lexicon : Lexicon}

theorem foldlM_terms {ts : List Token} {u : List String} (h : ts.map Token.content = u.map fun w => (.term, [w]))
    (f : Filter) : ts.foldlM (Filter.addToken clock lexicon) f = .ok { f with terms := f.terms ++ u } := by
  induction ts generalizing u f with
  | nil =>
    rw [List.map_nil, eq_comm, List.map_eq_nil_iff] at h
    rw [h, List.append_nil]
    rfl
  | cons t ts ih =>
    obtain ⟨kind, values, start, stop⟩ := t
    cases u with
    | nil => cases h
    | cons w u =>
      rw [List.map_cons, List.map_cons, List.cons.injEq, Token.content, Prod.mk.injEq] at h
      obtain ⟨⟨rfl, rfl⟩, hlater⟩ := h
      rw [List.foldlM_cons]
      show ts.foldlM (Filter.addToken clock lexicon) { f with terms := f.terms ++ [w] } = _
      rw [ih hlater, List.append_assoc]
      rfl

theorem compile_preset {p text : String} {u : List String} (h : StartsWithPreset lexicon p u text.toList)
    (hpresets : ∀ e ∈ lexicon.presets, IsPresetWord e.1 ∧ e.1 ≠ "") :
    compile clock lexicon ("date:" ++ text) =
      .ok { since := some p, terms := u, freeText := String.intercalate " " u } := by
  obtain ⟨value, stop, terms, htokens, hvalue, hterms⟩ := h.exists_tokensOf hpresets
  obtain ⟨days, hmem⟩ := h.mem
  have hsome := Lexicon.dayOffset?_isSome hmem (hpresets _ hmem).1.1
  have hedged : IsEdged ("date:" ++ text).toList := by
    rw [String.toList_append]
    exact IsEdged.join (IsSolid.isEdged (by decide)) h.edged []
  have hdate : ({} : Filter).addToken clock lexicon ⟨.date, [value], 0, stop⟩ = .ok { since := some p } := by
    simp only [Filter.addToken, Filter.addDate, hvalue, hsome, if_true]
  rw [compile_of_isEdged clock lexicon hedged, String.toList_append, htokens]
  refine bind_eq_ok.2 ⟨_, bind_eq_ok.2 ⟨_, hdate, foldlM_terms clock hterms _⟩, ?_⟩
  simp only [Filter.joined, List.nil_append, List.append_nil]
  rfl

/-- A word without quotes and bars in which no field is found is left to the rules after them. -/
theorem sweepAll_word {rs : List (TokenKind × Rule)} (hrs : ∀ r ∈ rs, r ∈ earlyRules) {w : List Char} (hword : IsSolid w)
    (hquote : '"' ∉ w) (hbar : '|' ∉ w) (hnone : ∀ r ∈ rs, r.2 true w = none) : sweepAll (signRules ++ rs) w = ([], w) := by
  rw [sweepAll_signRules_append hquote fun hbars => hbar (hbars.subset List.mem_cons_self)]
  refine sweepAll_eq_of_words (fun r hr => wordRules_isLocal (List.mem_append_left _ (hrs r hr))) ?_
  intro r hr v hv
  rw [words_of_isSolid hword, List.mem_singleton] at hv
  rw [hv]
  exact hnone r hr

/-- The rules before the one for types. -/
theorem sweepAll_before_type {k : List Char} (hword : IsSolid ("type:".toList ++ k)) (hquote : '"' ∉ k) (hbar : '|' ∉ k) :
    sweepAll (signRules ++ earlyRules.take 2) ("type:".toList ++ k) = ([], "type:".toList ++ k) := by
  refine sweepAll_word (fun r hr => List.mem_of_mem_take hr) hword (List.not_mem_append (by decide) hquote)
    (List.not_mem_append (by decide) hbar) ?_
  intro r hr
  simp only [earlyRules, List.take, List.mem_cons, List.not_mem_nil, or_false] at hr
  rcases hr with rfl | rfl
  · rfl
  · rfl

theorem compile_kind (husable : IsUsable lexicon) {k : String} {tags : List String} (hk : (k, tags) ∈ lexicon.kinds)
    (hquote : '"' ∉ k.toList) (hbar : '|' ∉ k.toList) :
    compile clock lexicon ("type:" ++ k) = .ok { types := tags.eraseDups } := by
  obtain ⟨hlowered, hsolid⟩ := husable.kind _ hk
  have hword : IsSolid ("type:".toList ++ k.toList) := IsSolid.append (by decide) hsolid.2
  have hvalue := wordValue?_of_isSolid hsolid startsBlank_nil
  rw [List.append_nil] at hvalue
  have htokens := tokensOf_whole lexicon _ rfl (sweepAll_before_type hword hquote hbar) hword.1
    (fieldRule_of_value? "type" hvalue) (by simp; omega)
  have htags : lexicon.tagsOf k = tags := by
    rw [Lexicon.tagsOf, lowerText_of_isLowered hlowered, Table.lookup_of_mem husable.nodup hk]
    rfl
  have hkind : ∀ stop, ({} : Filter).addToken clock lexicon ⟨.type, [String.ofList (lower k.toList)], 0, stop⟩ =
      .ok { types := tags.eraseDups } := by
    intro stop
    simp only [Filter.addToken, lower_of_isSettledText hlowered, String.ofList_toList, htags, foldl_addNew,
      List.not_mem_nil, not_false_eq_true, decide_true, List.filter_true, List.nil_append]
  have hedged : IsEdged ("type:" ++ k).toList := by
    rw [String.toList_append]
    exact hword.isEdged
  rw [compile_of_isEdged clock lexicon hedged, String.toList_append, htokens]
  exact ofTokens_singleton (hkind _)

end Queries

/-- What the settings define can be asked for. A preset and the words after it are the date and the
    terms of the filter and nothing else, unless a preset of more words stands there; a word for a
    type stands for its tags, each once. -/
theorem compile_keyword (clock : Clock) {entries : Entries} {s : Settings} (h : ofEntries entries = .ok s) :
    (∀ p u text, StartsWithPreset s.lexicon p u text.toList → compile clock s.lexicon ("date:" ++ text) =
      .ok { since := some p, terms := u, freeText := String.intercalate " " u }) ∧
    ∀ k tags, (k, tags) ∈ s.lexicon.kinds → '"' ∉ k.toList → '|' ∉ k.toList →
      compile clock s.lexicon ("type:" ++ k) = .ok { types := tags.eraseDups } := by
  have husable := isUsable_of_ofEntries h
  refine ⟨fun p u text hp => compile_preset clock hp husable.preset, fun k tags hk hquote hbar => ?_⟩
  exact compile_kind clock husable hk hquote hbar

/-- Of two presets that a query starts with the one with more words counts, and a tag that is
    given twice is kept once. -/
theorem compile_keyword_last_sale :
    let clock : Clock := ⟨.universal (738000 * microsPerDay), Zone.utc⟩
    let entries : Entries :=
      [(.text "log", .dict [(.text "level", .text "INFO"), (.text "to_file", .bool false)]),
       (.text "store", .dict [(.text "path", .text "items")]),
       (.text "vocabulary", .dict
         [(.text "date_presets", .dict [(.text " Last  SALE", .int 40), (.text "last", .int 3)]),
          (.text "type_mappings", .dict
            [(.text "Paper", .list [.text "Article", .text "link", .text "article"])])])]
    ∃ s, ofEntries entries = .ok s ∧
      compile clock s.lexicon "date:last\t sale red 2" =
        .ok { since := some "last sale", terms := ["red", "2"], freeText := "red 2" } ∧
      compile clock s.lexicon "type:paper" = .ok { types := ["article", "link"] } := by
  intro clock entries
  have hlexicon : (ofEntries entries).map (·.lexicon) = .ok (Lexicon.builtin.overlay
      [("last sale", 40), ("last", 3)] [("paper", ["article", "link", "article"])]) := by decide +kernel
  cases hs : ofEntries entries with
  | error e =>
    rw [hs] at hlexicon
    cases hlexicon
  | ok s =>
    rw [hs] at hlexicon
    have hlex : s.lexicon = _ := Except.ok.inj hlexicon
    obtain ⟨hpresets, hkinds⟩ := compile_keyword clock hs
    have hshort : ∀ q ∈ s.lexicon.presets, (words q.1.toList).length ≤ 2 := by
      rw [hlex]
      decide +kernel
    refine ⟨s, rfl, hpresets "last sale" ["red", "2"] "last\t sale red 2" ⟨⟨40, ?_⟩, by decide, by decide, by decide,
      by decide, ?_, by decide +kernel, ⟨'l', rfl, by decide⟩, ⟨'2', rfl, by decide⟩⟩, ?_⟩
    · rw [hlex]
      decide +kernel
    · intro q hq hlt
      exact absurd (hshort q hq) (Nat.not_le_of_lt hlt)
    · refine hkinds "paper" ["article", "link", "article"] ?_ (by decide) (by decide)
      rw [hlex]
      decide +kernel

end SearchBox.Query

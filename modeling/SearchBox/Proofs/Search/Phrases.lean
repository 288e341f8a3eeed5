import SearchBox.Proofs.Query.Parts
import SearchBox.Proofs.Search.Gates
import SearchBox.Proofs.Text.Letterwise
import SearchBox.Record.Kind

/-!
  SearchBox.Proofs.Search.Phrases — searching for a phrase and leaving it out. A text in quotes is
  one token, whatever stands in it (`tokensOf_phrase`), and so is one with a hyphen in front
  (`tokensOf_excludedPhrase`). The two queries ask for opposite things: a record that lacks the
  phrase fails the gate for phrases with the one, and a record that has it the gate for exclusions
  with the other (`phrase_or_excluded`). What stands in a text that is searched, without capital
  sigmas, is found (`isIn_searched`).
-/

namespace SearchBox.Query

open SearchBox.Calendar SearchBox.Text

/-! ## Texts in quotes -/

section Quoted

variable {w : List Char}

theorem isEdged_quoted (w : List Char) : IsEdged ('"' :: (w ++ ['"'])) := by
  have hquote : IsEdged ['"'] := IsSolid.isEdged (by decide)
  exact hquote.join hquote w

/-- A hyphen before the closing quote excludes nothing: no text in quotes follows it. -/
theorem sweep_excludedPhrase_quoted (hq : '"' ∉ w) :
    sweep .excludedPhrase excludedPhraseRule 0 0 true ('"' :: (w ++ ['"'])) = ([], '"' :: (w ++ ['"'])) := by
  refine sweep_eq_of_forall excludedPhraseRule_takes fun pre rest hs => ?_
  unfold excludedPhraseRule
  split
  · rename_i rest
    rw [Option.map_eq_none_iff, Option.eq_none_iff_forall_not_mem]
    intro run hrun
    obtain ⟨later, rfl, -⟩ := quotedRun?_eq_some hrun
    -- The text has two quotes, and both of them stand after the hyphen.
    have hcount := congrArg (List.count '"') hs
    simp only [List.count_cons, List.count_append, List.count_eq_zero_of_not_mem hq, List.count_nil] at hcount
    have hpre : '"' ∉ pre := by
      intro hmem
      have := List.count_pos_iff.2 hmem
      simp at hcount
      omega
    cases pre with
    | nil => cases hs
    | cons c pre =>
      rw [List.cons_append, List.cons.injEq] at hs
      exact hpre (hs.1 ▸ List.mem_cons_self)
  · rfl

/-- The tokens of a text in quotes: one phrase. -/
theorem tokensOf_phrase (lexicon : Lexicon) (hne : w ≠ []) (hq : '"' ∉ w) :
    tokensOf lexicon ('"' :: (w ++ ['"'])) = [⟨.phrase, [String.ofList (lower w)], 0, w.length + 2⟩] := by
  have hrule : phraseRule true ('"' :: (w ++ ['"'])) = some ⟨[w], w.length + 2⟩ := by
    rw [phraseRule, quotedRun?_of_not_mem hne hq []]
    rfl
  have hbefore : sweepAll [(.excludedPhrase, excludedPhraseRule)] ('"' :: (w ++ ['"'])) = ([], '"' :: (w ++ ['"'])) := by
    rw [sweepAll_cons, sweep_excludedPhrase_quoted hq]
    rfl
  have htokens := tokensOf_whole lexicon [(.excludedPhrase, excludedPhraseRule)] (rules_eq lexicon) hbefore
    (List.cons_ne_nil _ _) hrule (by simp)
  simpa using htokens

theorem tokensOf_excludedPhrase (lexicon : Lexicon) (hne : w ≠ []) (hq : '"' ∉ w) :
    tokensOf lexicon ('-' :: '"' :: (w ++ ['"'])) =
      [⟨.excludedPhrase, [String.ofList (lower w)], 0, w.length + 3⟩] := by
  have hrule : excludedPhraseRule true ('-' :: '"' :: (w ++ ['"'])) = some ⟨[w], w.length + 3⟩ := by
    rw [excludedPhraseRule, quotedRun?_of_not_mem hne hq []]
    rfl
  have htokens := tokensOf_whole lexicon [] (rules_eq lexicon) rfl (List.cons_ne_nil _ _) hrule (by simp)
  simpa using htokens

end Quoted

/-! ## The two filters -/

theorem isBlankText_lowerText {w : String} (hw : isBlankText w.toList = false) :
    isBlankText (lowerText w).toList = false := by
  rw [lowerText, String.toList_ofList, Bool.eq_false_iff]
  intro hblank
  rw [isBlankText_of_isBlankText_lower hblank] at hw
  cases hw

section Filters

variable (clock : Clock) (lexicon : Lexicon) {w : String} (hq : '"' ∉ w.toList) (hw : isBlankText w.toList = false)
include hq hw

theorem compile_phrase : compile clock lexicon ("\"" ++ w ++ "\"") =
    .ok { phrases := [lowerText w], freeText := Filter.joined [] [lowerText w] } := by
  have hchars : ("\"" ++ w ++ "\"").toList = '"' :: (w.toList ++ ['"']) := by simp
  have hne : w.toList ≠ [] := by
    intro hnil
    rw [hnil] at hw
    cases hw
  have hedged : IsEdged ("\"" ++ w ++ "\"").toList := by
    rw [hchars]
    exact isEdged_quoted w.toList
  have hadd : Filter.addToken clock lexicon {} ⟨.phrase, [lowerText w], 0, w.toList.length + 2⟩ =
      .ok { phrases := [lowerText w] } := by
    simp only [Filter.addToken, isBlankText_lowerText hw]
    rfl
  rw [compile_of_isEdged clock lexicon hedged, hchars, tokensOf_phrase lexicon hne hq]
  exact ofTokens_singleton hadd

theorem compile_excludedPhrase : compile clock lexicon ("-\"" ++ w ++ "\"") =
    .ok { excludedPhrases := [lowerText w], freeText := Filter.joined [] [] } := by
  have hchars : ("-\"" ++ w ++ "\"").toList = '-' :: '"' :: (w.toList ++ ['"']) := by simp
  have hne : w.toList ≠ [] := by
    intro hnil
    rw [hnil] at hw
    cases hw
  have hedged : IsEdged ("-\"" ++ w ++ "\"").toList := by
    have hdash : IsEdged ['-'] := IsSolid.isEdged (by decide)
    rw [hchars]
    exact hdash.join (isEdged_quoted w.toList) []
  have hadd : Filter.addToken clock lexicon {} ⟨.excludedPhrase, [lowerText w], 0, w.toList.length + 3⟩ =
      .ok { excludedPhrases := [lowerText w] } := by
    simp only [Filter.addToken, isBlankText_lowerText hw]
    rfl
  rw [compile_of_isEdged clock lexicon hedged, hchars, tokensOf_excludedPhrase lexicon hne hq]
  exact ofTokens_singleton hadd

end Filters

end SearchBox.Query

namespace SearchBox.Search

open SearchBox.Calendar SearchBox.Query SearchBox.Text

/-! ## Gates -/

theorem explain_phrase (m : Matcher) {r : Record} (hr : r.IsSearchable) (v : String) (text : String) :
    m.explain { phrases := [v], freeText := text } r = .ok (if isIn r.searched v then none else some .phrase) := by
  rw [explain_of_isSearchable hr]
  cases hin : isIn r.searched v <;>
    simp [Gate.inOrder, Matcher.firstFailing, Matcher.passes, Filter.preset?, hin, bind, Except.bind,
      pure, Except.pure]

theorem explain_excludedPhrase (m : Matcher) {r : Record} (hr : r.IsSearchable) (v : String) (text : String) :
    m.explain { excludedPhrases := [v], freeText := text } r =
      .ok (if isIn r.searched v then some .exclude else none) := by
  rw [explain_of_isSearchable hr]
  cases hin : isIn r.searched v <;>
    simp [Gate.inOrder, Matcher.firstFailing, Matcher.passes, Filter.preset?, hin, bind, Except.bind,
      pure, Except.pure]

/-! ## What is searched -/

def searchedTexts (r : Record) : List String :=
  Record.Field.searched.map r.textOf ++ r.tags

theorem lower_isInfix_searched {r : Record} {t : String} (ht : t ∈ searchedTexts r) :
    lower t.toList <:+: r.searched := by
  rw [Record.searched, lower_joinWith_space]
  rcases List.mem_append.1 ht with ht | ht
  · obtain ⟨f, hf, rfl⟩ := List.mem_map.1 ht
    refine isInfix_joinWith (List.mem_map_of_mem (List.mem_append_left _ ?_))
    exact List.mem_map.2 ⟨f, hf, rfl⟩
  · have htag : lower t.toList <:+: lower (joinWith [' '] (r.tags.map String.toList)) := by
      rw [lower_joinWith_space]
      exact isInfix_joinWith (List.mem_map_of_mem (List.mem_map_of_mem ht))
    refine htag.trans (isInfix_joinWith (List.mem_map_of_mem (List.mem_append_right _ ?_)))
    exact List.mem_singleton.2 rfl

/-- What stands in a text without capital sigmas is found in lower case. -/
theorem isIn_searched {r : Record} {t w : String} (ht : t ∈ searchedTexts r) (hin : w.toList <:+: t.toList)
    (hsigma : 'Σ' ∉ t.toList) : isIn r.searched (lowerText w) = true := by
  rw [isIn, occursIn_iff, lowerText, String.toList_ofList]
  exact (lower_isInfix hin hsigma).trans (lower_isInfix_searched ht)

/-- Of the queries for a phrase and for all without it, a record that has a search text matches
    exactly one; with the other it fails the gate for phrases or the one for exclusions. It matches the
    first one if the phrase stands in a text that is searched and that has no capital sigma. -/
theorem phrase_or_excluded (clock : Clock) (lexicon : Lexicon) (m : Matcher) {r : Record} (hr : r.IsSearchable)
    {w : String} (hq : '"' ∉ w.toList) (hw : isBlankText w.toList = false) :
    ∃ f g, compile clock lexicon ("\"" ++ w ++ "\"") = .ok f ∧ compile clock lexicon ("-\"" ++ w ++ "\"") = .ok g ∧
      (m.explain f r = .ok none ∧ m.explain g r = .ok (some .exclude) ∨
        m.explain f r = .ok (some .phrase) ∧ m.explain g r = .ok none) ∧
      ∀ t ∈ searchedTexts r, w.toList <:+: t.toList → 'Σ' ∉ t.toList → m.explain f r = .ok none := by
  refine ⟨_, _, compile_phrase clock lexicon hq hw, compile_excludedPhrase clock lexicon hq hw, ?_,
    fun t ht hin hsigma => ?_⟩
  · rw [explain_phrase m hr, explain_excludedPhrase m hr]
    cases isIn r.searched (lowerText w) with
    | true => exact .inl ⟨rfl, rfl⟩
    | false => exact .inr ⟨rfl, rfl⟩
  · rw [explain_phrase m hr, isIn_searched ht hin hsigma]
    rfl

/-- Operators, a hash sign, a field key and a line's end inside the quotes are text, and a dotted
    capital I is found though its lower form is longer. -/
theorem phrase_or_excluded_operators :
    let clock : Clock := ⟨.universal (738000 * microsPerDay), Zone.utc⟩
    let m := Matcher.standard clock .builtin Record.kind
    let r : Record := .mapping [(.text "tags", .list [.int 7, .text "a || -İX #type:\nb"])]
    r.IsSearchable ∧ ∃ f g, compile clock .builtin "\"|| -İX #type:\nB\"" = .ok f ∧
      compile clock .builtin "-\"|| -İX #type:\nB\"" = .ok g ∧
      (m.explain f r = .ok none ∧ m.explain g r = .ok (some .exclude) ∨
        m.explain f r = .ok (some .phrase) ∧ m.explain g r = .ok none) ∧
      ∃ f', compile clock .builtin "\"|| -İX #type:\n\"" = .ok f' ∧ m.explain f' r = .ok none := by
  intro clock m r
  have hr : r.IsSearchable := by decide
  obtain ⟨f, g, hf, hg, hone, -⟩ := phrase_or_excluded clock .builtin m hr (w := "|| -İX #type:\nB") (by decide) (by decide)
  obtain ⟨f', -, hf', -, -, hfound⟩ := phrase_or_excluded clock .builtin m hr (w := "|| -İX #type:\n") (by decide) (by decide)
  refine ⟨hr, f, g, hf, hg, hone, f', hf', hfound "a || -İX #type:\nb" ?_ ?_ ?_⟩
  · decide +kernel
  · decide +kernel
  · decide +kernel

end SearchBox.Search

import SearchBox.Proofs.Query.Slices

/-!
  SearchBox.Proofs.Query.Exclusions — where exclusions stand. An exclusion starts a word of what the
  earlier rules have left, and that is the start of a word of the query unless a token ends right
  before it. No field, hashtag or choice does: they read on over hyphens
  (`unquoted_rules_passHyphens`). Texts in quotes end at their quotes, and an excluded phrase need
  not start a word at all. So a hyphen excludes at the start of a word, or beside a quote
  (`exclusion_starts_word`); beside a quote it does so in the middle of a word as well
  (`exclusion_inside_word`).
-/

namespace SearchBox.Query

open SearchBox.Text

/-! ## Rules that read on over hyphens -/

/-- What a rule takes is never followed by a hyphen. -/
def Rule.PassesHyphens (r : Rule) : Prop :=
  ∀ ws m rest f, r ws (m ++ rest) = some f → f.length = m.length → rest.head? ≠ some '-'

theorem head?_ne_of_startsBlank {s : List Char} (h : StartsBlank s) {c : Char} (hc : isBlank c = false) :
    s.head? ≠ some c := by
  intro hhead
  rw [h c hhead] at hc
  cases hc

theorem choiceRule_passesHyphens : Rule.PassesHyphens choiceRule := by
  intro ws m rest f h hlen hhead
  obtain ⟨left, gap, gapAfter, right, -, -, -, -, -, -, hend⟩ := choiceRule_taken h hlen
  exact absurd (hend '-' hhead) (by decide)

theorem fieldRule_passesHyphens {key : String} {value? : List Char → Option Found} (hvalue : TakesPiece value?) :
    (fieldRule key value?).PassesHyphens := by
  intro ws m rest f h hlen
  obtain ⟨k, v, -, -, -, hv⟩ := fieldRule_taken hvalue h hlen
  exact head?_ne_of_startsBlank (hvalue.startsBlank hv) (by decide)

theorem hashtagRule_passesHyphens : Rule.PassesHyphens hashtagRule := by
  intro ws m rest f h hlen hhead
  obtain ⟨c, name, -, -, -, -, hend⟩ := hashtagRule_taken h hlen
  exact absurd (hend '-' hhead) (by simp)

theorem exclusionRule_passesHyphens : Rule.PassesHyphens exclusionRule := by
  intro ws m rest f h hlen
  obtain ⟨c, word, -, -, -, -, hend⟩ := exclusionRule_taken h hlen
  exact head?_ne_of_startsBlank hend (by decide)

def TokenKind.isQuoted : TokenKind → Bool
  | .excludedPhrase | .phrase => true
  | _ => false

theorem unquoted_rules_passHyphens (lexicon : Lexicon) {r : TokenKind × Rule} (hr : r ∈ rules lexicon)
    (hk : r.1.isQuoted = false) : r.2.PassesHyphens := by
  have hfield : ∀ key : String, (fieldRule key wordValue?).PassesHyphens := fun _ =>
    fieldRule_passesHyphens wordValue?_takesPiece
  simp only [rules, List.mem_cons, List.not_mem_nil, or_false] at hr
  rcases hr with rfl | rfl | rfl | rfl | rfl | rfl | rfl | rfl | rfl | rfl | rfl | rfl
  · cases hk
  · cases hk
  · exact choiceRule_passesHyphens
  · exact hfield _
  · exact hfield _
  · exact hfield _
  · exact hfield _
  · exact fieldRule_passesHyphens (dateValue?_takesPiece _)
  · exact hfield _
  · exact hfield _
  · exact hashtagRule_passesHyphens
  · exact exclusionRule_passesHyphens

/-! ## What is visible after sweeps -/

theorem getElem?_of_blanked {ts : List Token} {s : List Char} {i : Nat} {c : Char} (h : (blanked ts s)[i]? = some c)
    (hc : isBlank c = false) : s[i]? = some c ∧ isCovered ts i = false := by
  rw [getElem?_blanked, Option.map_eq_some_iff] at h
  obtain ⟨d, hd, hdc⟩ := h
  cases hcov : isCovered ts i with
  | true =>
    rw [hcov, if_pos rfl] at hdc
    rw [← hdc] at hc
    exact absurd hc (by decide)
  | false =>
    rw [hcov, if_neg Bool.false_ne_true] at hdc
    exact ⟨hdc ▸ hd, rfl⟩

/-- In front of a hyphen that is left only texts in quotes end. -/
theorem isQuoted_of_stops_at_hyphen {rs : List (TokenKind × Rule)}
    (hrs : ∀ r ∈ rs, r.2.Takes IsEdged ∧ (r.1.isQuoted = false → r.2.PassesHyphens)) {s : List Char} {t : Token}
    (ht : t ∈ (sweepAll rs s).1) (hnext : (sweepAll rs s).2[t.stop]? = some '-') : t.kind.isQuoted = true := by
  induction rs generalizing s with
  | nil => cases ht
  | cons r rs ih =>
    obtain ⟨kind, rule⟩ := r
    obtain ⟨⟨hedged, hpasses⟩, hrs⟩ := List.forall_mem_cons.1 hrs
    rw [sweepAll_cons] at ht hnext
    rcases List.mem_append.1 ht with ht | ht
    · rw [sweepAll_blanks fun r hr => (hrs r hr).1, sweep_eq_blanked hedged] at hnext
      have hhyphen := (getElem?_of_blanked (getElem?_of_blanked hnext (by decide)).1 (by decide)).1
      rw [kind_of_mem_sweep ht]
      obtain ⟨pre, rest, f, rfl, -, hf, rfl⟩ := isFoundIn_of_mem_sweep ht
      obtain ⟨m, later, rfl, hm, -⟩ := hedged _ _ _ hf
      by_contra hk
      refine hpasses (Bool.eq_false_iff.2 hk) _ m later f hf hm.symm ?_
      rw [List.head?_eq_getElem?, ← hhyphen]
      simp [← hm, List.getElem?_append_right, ← List.append_assoc]
    · exact ih hrs ht hnext

/-! ## Texts in quotes -/

theorem quote_of_phraseRule {ws : Bool} {s : List Char} {f : Found} (h : phraseRule ws s = some f) :
    s[f.length - 1]? = some '"' := by
  obtain ⟨run, hrun, rfl⟩ := Option.map_eq_some_iff.1 h
  obtain ⟨rest, rfl, -⟩ := quotedRun?_eq_some hrun
  simp

/-- An excluded phrase is a hyphen and a text in quotes. -/
theorem quotes_of_excludedPhraseRule {ws : Bool} {s : List Char} {f : Found} (h : excludedPhraseRule ws s = some f) :
    s[0]? = some '-' ∧ s[1]? = some '"' ∧ s[f.length - 1]? = some '"' := by
  unfold excludedPhraseRule at h
  split at h
  · obtain ⟨run, hrun, rfl⟩ := Option.map_eq_some_iff.1 h
    obtain ⟨rest, rfl, -⟩ := quotedRun?_eq_some hrun
    simp
  · cases h

section Places

variable {lexicon : Lexicon} {s : List Char} {t : Token}

/-- What the rule of a token's kind found where the token stands. The visible characters there are
    those of the query. -/
theorem exists_found_of_mem_tokensOf (ht : t ∈ tokensOf lexicon s) (hk : t.kind ≠ .term) :
    ∃ before rule after pre rest f, rules lexicon = before ++ (t.kind, rule) :: after ∧
      (sweepAll before s).2 = pre ++ rest ∧ rule ((pre.getLast?.map isBlank).getD true) rest = some f ∧
      t.start = pre.length ∧ t.stop = pre.length + f.length ∧
      ∀ i c, rest[i]? = some c → isBlank c = false → s[pre.length + i]? = some c := by
  obtain ⟨before, rule, after, hrules, hmem⟩ := exists_rule_of_mem_tokensOf ht hk
  obtain ⟨pre, rest, f, hs, -, hf, ht⟩ := isFoundIn_of_mem_sweep hmem
  have hstart := congrArg Token.start ht
  have hstop := congrArg Token.stop ht
  simp only [Nat.zero_add] at hstart hstop
  refine ⟨before, rule, after, pre, rest, f, hrules, hs, hf, hstart, hstop, fun i c hi hc => ?_⟩
  have hshown : (blanked (sweepAll before s).1 s)[pre.length + i]? = some c := by
    rw [← sweepAll_before hrules, hs, List.getElem?_append_right (Nat.le_add_right _ _), Nat.add_sub_cancel_left, hi]
  exact (getElem?_of_blanked hshown hc).1

/-- A text in quotes ends with a quote. -/
theorem quote_of_isQuoted (ht : t ∈ tokensOf lexicon s) (hk : t.kind.isQuoted = true) :
    s[t.stop - 1]? = some '"' := by
  have hterm : t.kind ≠ .term := fun hterm => by
    rw [hterm] at hk
    cases hk
  obtain ⟨before, rule, after, pre, rest, f, hrules, -, hf, -, hstop, hsame⟩ := exists_found_of_mem_tokensOf ht hterm
  have hr : (t.kind, rule) ∈ rules lexicon := hrules ▸ List.mem_append_right _ List.mem_cons_self
  have hpos := (rules_take lexicon hr).1.length_pos hf
  rw [hstop, Nat.add_sub_assoc hpos]
  refine hsame _ _ ?_ (by decide)
  cases hkind : t.kind with
  | excludedPhrase =>
    obtain rfl : rule = excludedPhraseRule := by simpa [rules, hkind] using hr
    exact (quotes_of_excludedPhraseRule hf).2.2
  | phrase =>
    obtain rfl : rule = phraseRule := by simpa [rules, hkind] using hr
    exact quote_of_phraseRule hf
  | _ =>
    rw [hkind] at hk
    cases hk

end Places

/-! ## Exclusions -/

/-- A word can start at a place: it is the first one, or white space stands before it. -/
def IsWordStart (s : List Char) (i : Nat) : Prop :=
  i = 0 ∨ ∃ c ∈ s[i - 1]?, isBlank c = true

instance (s : List Char) (i : Nat) : Decidable (IsWordStart s i) :=
  decidable_of_iff ((i == 0 || s[i - 1]?.any isBlank) = true) (by simp [IsWordStart, Option.any_eq_true])

/-- A word of what is left starts a word of the text, or right after a token. -/
theorem isWordStart_or_stops {ts : List Token} {s pre rest : List Char} (hs : blanked ts s = pre ++ rest)
    (hws : (pre.getLast?.map isBlank).getD true = true) (hvisible : IsVisibleAt (blanked ts s) pre.length) :
    IsWordStart s pre.length ∨ ∃ a ∈ ts, a.stop = pre.length := by
  rcases List.eq_nil_or_concat pre with rfl | ⟨init, d, rfl⟩
  · exact .inl (.inl rfl)
  · simp only [List.concat_eq_append, List.getLast?_append, List.getLast?_singleton, Option.some_or,
      Option.map_some, Option.getD_some, List.length_append, List.length_singleton] at hws hvisible ⊢
    have hd : (blanked ts s)[init.length]? = some d := by simp [hs]
    rw [getElem?_blanked, Option.map_eq_some_iff] at hd
    obtain ⟨c, hc, hcd⟩ := hd
    by_cases hcov : isCovered ts init.length = true
    · obtain ⟨a, ha, hle, hlt⟩ := isCovered_iff.1 hcov
      have hnot := (isVisibleAt_blanked_iff.1 hvisible).1
      rw [Bool.eq_false_iff, Ne, isCovered_iff] at hnot
      refine .inr ⟨a, ha, ?_⟩
      by_contra hne
      exact hnot ⟨a, ha, by omega, by omega⟩
    · rw [if_neg hcov] at hcd
      exact .inl (.inr ⟨c, hc, hcd ▸ hws⟩)

section Exclusions

variable {lexicon : Lexicon} {s : List Char} {t : Token}

/-- An excluded word starts a word of the query, or right after a text in quotes. -/
theorem excluded_starts (ht : t ∈ tokensOf lexicon s) (hk : t.kind = .excluded) :
    s[t.start]? = some '-' ∧ (∃ c, s[t.start + 1]? = some c ∧ c ≠ '-') ∧
      (IsWordStart s t.start ∨ ∃ p ∈ tokensOf lexicon s, p.kind.isQuoted = true ∧ p.stop = t.start) := by
  obtain ⟨before, rule, after, pre, rest, f, hrules, hs, hf, hstart, -, hsame⟩ :=
    exists_found_of_mem_tokensOf ht (by simp [hk])
  obtain rfl : rule = exclusionRule := by
    have hr : (t.kind, rule) ∈ rules lexicon := hrules ▸ List.mem_append_right _ List.mem_cons_self
    simpa [rules, hk] using hr
  obtain ⟨hws, c, word, later, rfl, -, hc, hvisible, -⟩ := exclusionRule_eq_some hf
  rw [hstart]
  refine ⟨hsame 0 '-' rfl (by decide), ⟨c, hsame 1 c rfl (hvisible c List.mem_cons_self), hc⟩, ?_⟩
  have hnext : (sweepAll before s).2[pre.length]? = some '-' := by simp [hs]
  have hleft := sweepAll_before (s := s) hrules
  rw [hleft] at hs
  have hshown : IsVisibleAt (blanked (sweepAll before s).1 s) pre.length := ⟨'-', hleft ▸ hnext, by decide⟩
  rcases isWordStart_or_stops hs hws hshown with h | ⟨p, hp, hstop⟩
  · exact .inl h
  · have hpmem : p ∈ tokensOf lexicon s := by
      rw [tokensOf_eq, hrules, sweepAll_append_rules]
      simp [hp]
    refine .inr ⟨p, hpmem, isQuoted_of_stops_at_hyphen (fun r hr => ?_) hp (hstop ▸ hnext), hstop⟩
    have hmem : r ∈ rules lexicon := hrules ▸ List.mem_append_left _ hr
    exact ⟨(rules_take lexicon hmem).1, unquoted_rules_passHyphens lexicon hmem⟩

theorem excludedPhrase_starts (ht : t ∈ tokensOf lexicon s) (hk : t.kind = .excludedPhrase) :
    s[t.start]? = some '-' ∧ s[t.start + 1]? = some '"' := by
  obtain ⟨before, rule, after, pre, rest, f, hrules, -, hf, hstart, -, hsame⟩ :=
    exists_found_of_mem_tokensOf ht (by simp [hk])
  obtain rfl : rule = excludedPhraseRule := by
    have hr : (t.kind, rule) ∈ rules lexicon := hrules ▸ List.mem_append_right _ List.mem_cons_self
    simpa [rules, hk] using hr
  obtain ⟨hhyphen, hquote, -⟩ := quotes_of_excludedPhraseRule hf
  rw [hstart]
  exact ⟨hsame 0 '-' hhyphen (by decide), hsame 1 '"' hquote (by decide)⟩

end Exclusions

/-- An exclusion is a hyphen and no second one. It starts a word of the query, or it stands beside a
    quote: an excluded phrase has one after its hyphen, and another exclusion stands right after a
    text in quotes. -/
theorem exclusion_starts_word (lexicon : Lexicon) (query : String) {t : Token} (ht : t ∈ tokenize lexicon query)
    (hk : t.kind = .excluded ∨ t.kind = .excludedPhrase) :
    query.toList[t.start]? = some '-' ∧ (∃ c, query.toList[t.start + 1]? = some c ∧ c ≠ '-') ∧
      (IsWordStart query.toList t.start ∨
        t.kind = .excludedPhrase ∧ query.toList[t.start + 1]? = some '"' ∨
        t.kind = .excluded ∧ query.toList[t.start - 1]? = some '"' ∧
          ∃ p ∈ tokenize lexicon query, (p.kind = .phrase ∨ p.kind = .excludedPhrase) ∧ p.stop = t.start) := by
  unfold tokenize at ht ⊢
  generalize query.toList = s at ht ⊢
  rcases hk with hk | hk
  · obtain ⟨hhyphen, hnext, hstart | ⟨p, hp, hquoted, hstop⟩⟩ := excluded_starts ht hk
    · exact ⟨hhyphen, hnext, .inl hstart⟩
    · refine ⟨hhyphen, hnext, .inr (.inr ⟨hk, hstop ▸ quote_of_isQuoted hp hquoted, p, hp, ?_, hstop⟩)⟩
      revert hquoted
      cases p.kind <;> simp [TokenKind.isQuoted]
  · obtain ⟨hhyphen, hquote⟩ := excludedPhrase_starts ht hk
    exact ⟨hhyphen, ⟨'"', hquote, by decide⟩, .inr (.inl ⟨hk, hquote⟩)⟩

/-- An exclusion after a phrase and white space starts a word, and hyphens within words and twice in
    front of them are none. -/
theorem exclusion_starts_word_red_shirt :
    let query := "well-known --x \"dark\" -Red-Shirt"
    tokenize .builtin query = [⟨.phrase, ["dark"], 15, 21⟩, ⟨.excluded, ["red-shirt"], 22, 32⟩,
      ⟨.term, ["well-known"], 0, 10⟩, ⟨.term, ["--x"], 11, 14⟩] ∧ IsWordStart query.toList 22 := by
  intro query
  have htokens : tokenize .builtin query = [⟨.phrase, ["dark"], 15, 21⟩, ⟨.excluded, ["red-shirt"], 22, 32⟩,
      ⟨.term, ["well-known"], 0, 10⟩, ⟨.term, ["--x"], 11, 14⟩] := by
    rw [tokenize, tokensOf, rules, spacedPresets_builtin]
    decide
  have hmem : ⟨.excluded, ["red-shirt"], 22, 32⟩ ∈ tokenize .builtin query := by simp [htokens]
  refine ⟨htokens, ?_⟩
  obtain ⟨-, -, hstart | ⟨hk, -⟩ | ⟨-, hquote, -⟩⟩ := exclusion_starts_word .builtin query hmem (.inl rfl)
  · exact hstart
  · cases hk
  · exact absurd hquote (by decide)

/-- Beside a quote a hyphen excludes in the middle of a word: in front of a text in quotes, and after
    one. -/
theorem exclusion_inside_word :
    (∃ t ∈ tokenize .builtin "well-\"known fact\"", t.kind = .excludedPhrase ∧
      ¬ IsWordStart "well-\"known fact\"".toList t.start) ∧
    ∃ t ∈ tokenize .builtin "\"red\"-shoe", t.kind = .excluded ∧ ¬ IsWordStart "\"red\"-shoe".toList t.start := by
  have hfirst : tokenize .builtin "well-\"known fact\"" =
      [⟨.excludedPhrase, ["known fact"], 4, 17⟩, ⟨.term, ["well"], 0, 4⟩] := by
    rw [tokenize, tokensOf, rules, spacedPresets_builtin]
    decide
  have hsecond : tokenize .builtin "\"red\"-shoe" = [⟨.phrase, ["red"], 0, 5⟩, ⟨.excluded, ["shoe"], 5, 10⟩] := by
    rw [tokenize, tokensOf, rules, spacedPresets_builtin]
    decide
  rw [hfirst, hsecond]
  exact ⟨⟨⟨.excludedPhrase, ["known fact"], 4, 17⟩, List.mem_cons_self, rfl, by decide⟩,
    ⟨⟨.excluded, ["shoe"], 5, 10⟩, by simp, rfl, by decide⟩⟩

end SearchBox.Query

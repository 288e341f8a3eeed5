import SearchBox.Proofs.Calendar.Moment
import SearchBox.Proofs.Calendar.Written
import SearchBox.Proofs.Query.Parts
import SearchBox.Proofs.Query.Presets
import SearchBox.Proofs.Search.Beside

/-!
  SearchBox.Proofs.Query.Total — which queries have a filter. Tokens have the values that their
  kind needs (`arity_of_mem_tokensOf`), and values that mean nothing are passed over
  (`ofTokens_filter_isVoid`), so that only a date can stop a query, and only by a number too long
  to be divided (`compileLogged_answers`). There are such numbers (`compileLogged_long_number`).
-/

namespace SearchBox.Query

open SearchBox.Calendar SearchBox.Log SearchBox.Search SearchBox.Text

/-! ## Values of tokens -/

def TokenKind.arity : TokenKind → Nat
  | .choice => 2
  | _ => 1

/-- A rule finds a number of values. -/
def Rule.Gives (r : Rule) (n : Nat) : Prop :=
  ∀ ws s f, r ws s = some f → f.values.length = n

theorem fieldRule_gives (key : String) {value? : List Char → Option Found}
    (h : ∀ s f, value? s = some f → f.values.length = 1) : (fieldRule key value?).Gives 1 := by
  intro ws s f hf
  obtain ⟨-, k, rest, v, -, -, hv, rfl⟩ := fieldRule_eq_some hf
  exact h rest v hv

theorem length_of_wordValue? {s : List Char} {f : Found} (h : wordValue? s = some f) : f.values.length = 1 := by
  obtain ⟨word, rest, -, rfl, -⟩ := wordValue?_eq_some h
  rfl

theorem length_of_dateValue? {presets : List (List Char)} {s : List Char} {f : Found}
    (h : dateValue? presets s = some f) : f.values.length = 1 := by
  rcases dateValue?_eq_some h with ⟨preset, -, h⟩ | h
  · obtain ⟨m, rest, -, rfl, -⟩ := presetValue?_eq_some h
    rfl
  · exact length_of_wordValue? h

theorem phraseRule_gives : Rule.Gives phraseRule 1 := by
  intro ws s f h
  obtain ⟨run, -, rfl⟩ := Option.map_eq_some_iff.1 h
  rfl

theorem excludedPhraseRule_gives : Rule.Gives excludedPhraseRule 1 := by
  intro ws s f h
  unfold excludedPhraseRule at h
  split at h
  · obtain ⟨run, -, rfl⟩ := Option.map_eq_some_iff.1 h
    rfl
  · cases h

theorem choiceRule_gives : Rule.Gives choiceRule 2 := by
  intro ws s f h
  obtain ⟨left, gap, gapAfter, right, rest, -, rfl, -⟩ := choiceRule_eq_some h
  rfl

theorem hashtagRule_gives : Rule.Gives hashtagRule 1 := by
  intro ws s f h
  obtain ⟨-, c, name, rest, -, rfl, -⟩ := hashtagRule_eq_some h
  rfl

theorem exclusionRule_gives : Rule.Gives exclusionRule 1 := by
  intro ws s f h
  obtain ⟨-, c, word, rest, -, rfl, -⟩ := exclusionRule_eq_some h
  rfl

theorem rules_give (lexicon : Lexicon) {r : TokenKind × Rule} (hr : r ∈ rules lexicon) : r.2.Gives r.1.arity := by
  have hfield := fun key => fieldRule_gives key fun s f (h : wordValue? s = some f) => length_of_wordValue? h
  simp only [rules, List.mem_cons, List.not_mem_nil, or_false] at hr
  rcases hr with rfl | rfl | rfl | rfl | rfl | rfl | rfl | rfl | rfl | rfl | rfl | rfl
  · exact excludedPhraseRule_gives
  · exact phraseRule_gives
  · exact choiceRule_gives
  · exact hfield "object"
  · exact hfield "text"
  · exact hfield "type"
  · exact hfield "format"
  · exact fieldRule_gives "date" fun _ _ => length_of_dateValue?
  · exact hfield "site"
  · exact hfield "tag"
  · exact hashtagRule_gives
  · exact exclusionRule_gives

/-- Tokens that are read have the values that their kind needs. -/
theorem arity_of_mem_tokensOf {lexicon : Lexicon} {s : List Char} {t : Token} (h : t ∈ tokensOf lexicon s) :
    t.values.length = t.kind.arity := by
  rw [tokensOf_eq] at h
  rcases List.mem_append.1 h with h | h
  · obtain ⟨r, hr, ws, s', f, hf, hkind, hvalues⟩ := exists_of_mem_sweepAll h
    rw [hvalues, hkind, List.length_map]
    exact rules_give lexicon hr ws s' f hf
  · obtain ⟨w, hterm, -⟩ := exists_of_mem_termsOf h
    simp only [termOf?] at hterm
    split at hterm
    · cases hterm
    · rw [← Option.some.inj hterm]
      rfl

/-! ## One token -/

/-- Whether no number of a written date is too long, whatever today is. -/
def DividesDate (clock : Clock) (v : String) : Prop :=
  ∀ today ∈ clock.today?, Written.Divides (Written.read clock today v.toList)

def writtenDay? (clock : Clock) (v : String) : Option DaySpan :=
  clock.today?.bind fun today => (DaySpan.ofText? clock today v.toList).toOption.join

/-- Whether a token's value says nothing: an unknown type, a blank phrase, or a date that is
    neither a preset nor a day. -/
def Token.isVoid (clock : Clock) (lexicon : Lexicon) (t : Token) : Bool :=
  match t.kind with
  | .type => (lexicon.tagsOf t.value).isEmpty
  | .phrase | .excludedPhrase => isBlankText t.value.toList
  | .date =>
    (lexicon.dayOffset? (singleSpaced t.value)).isNone && (writtenDay? clock (singleSpaced t.value)).isNone
  | _ => false

/-- The dates among tokens that are no presets. -/
def writtenDates (lexicon : Lexicon) (ts : List Token) : List String :=
  ((ts.filter (·.kind = .date)).map fun t => singleSpaced t.value).filter fun v => (lexicon.dayOffset? v).isNone

section Tokens

variable {clock : Clock} {lexicon : Lexicon}

theorem ofText?_divides {today : Date} {s : List Char} :
    (∃ span, DaySpan.ofText? clock today s = .ok span) ↔ Written.Divides (Written.read clock today s) := by
  unfold DaySpan.ofText? Written.Divides
  cases Written.read clock today s with
  | error e => cases e <;> simp
  | ok t =>
    refine ⟨fun _ => nofun, fun _ => ?_⟩
    simp only
    split
    · exact ⟨_, rfl⟩
    · exact ⟨_, rfl⟩

theorem mem_writtenDates {ts : List Token} {v : String} :
    v ∈ writtenDates lexicon ts ↔
      ∃ t ∈ ts, t.kind = .date ∧ singleSpaced t.value = v ∧ (lexicon.dayOffset? v).isNone = true := by
  simp only [writtenDates, List.mem_filter, List.mem_map, decide_eq_true_eq]
  exact ⟨fun ⟨⟨t, ⟨ht, hkind⟩, hv⟩, hnone⟩ => ⟨t, ht, hkind, hv, hnone⟩,
    fun ⟨t, ht, hkind, hv, hnone⟩ => ⟨⟨t, ⟨ht, hkind⟩, hv⟩, hnone⟩⟩

/-- A date is added or passed over, unless it holds too long a number. -/
theorem addDate_answers (f : Filter) (value : String) :
    (∃ g, f.addDate clock lexicon value = .ok g) ↔
      ((lexicon.dayOffset? (singleSpaced value)).isNone = true → DividesDate clock (singleSpaced value)) := by
  unfold Filter.addDate DividesDate
  dsimp only
  split
  · rename_i hsome
    exact ⟨fun _ hnone => by simp_all, fun _ => ⟨_, rfl⟩⟩
  · rename_i hsome
    have hnone : (lexicon.dayOffset? (singleSpaced value)).isNone = true := by simpa using hsome
    cases htoday : clock.today? with
    | none => exact ⟨fun _ _ today ht => (by cases ht), fun _ => ⟨f, rfl⟩⟩
    | some today =>
      have hdivides : (∃ span, DaySpan.ofText? clock today (singleSpaced value).toList = .ok span) ↔
          Written.Divides (Written.read clock today (singleSpaced value).toList) := ofText?_divides
      dsimp only
      refine ⟨fun ⟨g, hg⟩ _ day hday => ?_, fun h => ?_⟩
      · cases hday
        refine hdivides.1 ?_
        split at hg
        · rename_i span hspan
          exact ⟨some span, hspan⟩
        · rename_i hnone
          exact ⟨none, hnone⟩
        · cases hg
      · obtain ⟨span, hspan⟩ := hdivides.2 (h hnone today rfl)
        rw [hspan]
        cases span
        · exact ⟨_, rfl⟩
        · exact ⟨_, rfl⟩

theorem addToken_answers (f : Filter) {t : Token} (ht : t.values.length = t.kind.arity) :
    (∃ g, f.addToken clock lexicon t = .ok g) ↔ ∀ v ∈ writtenDates lexicon [t], DividesDate clock v := by
  obtain ⟨kind, values, start, stop⟩ := t
  cases values with
  | nil => cases kind <;> cases ht
  | cons v vs =>
    cases hpart : kind.part? with
    | some p =>
      refine ⟨fun _ w hw => ?_, fun _ => ⟨_, addToken_of_part? clock lexicon hpart rfl f⟩⟩
      obtain ⟨t, ht, hkind, -⟩ := mem_writtenDates.1 hw
      rw [List.mem_singleton.1 ht] at hkind
      subst hkind
      cases hpart
    | none =>
      cases kind <;> cases hpart
      · cases vs with
        | nil => cases ht
        | cons w vs =>
          refine ⟨fun _ w hw => ?_, fun _ => ⟨_, rfl⟩⟩
          obtain ⟨t, ht, hkind, -⟩ := mem_writtenDates.1 hw
          rw [List.mem_singleton.1 ht] at hkind
          cases hkind
      · rw [addToken_date]
        refine (addDate_answers f v).trans ⟨fun h w hw => ?_, fun h hnone => h _ ?_⟩
        · obtain ⟨t, ht, -, rfl, hnone⟩ := mem_writtenDates.1 hw
          rw [List.mem_singleton.1 ht] at hnone ⊢
          exact h hnone
        · exact mem_writtenDates.2 ⟨_, List.mem_singleton.2 rfl, rfl, rfl, hnone⟩

theorem addToken_of_isVoid {f g : Filter} {t : Token} (hvoid : t.isVoid clock lexicon = true)
    (h : f.addToken clock lexicon t = .ok g) : g = f := by
  obtain ⟨kind, values, start, stop⟩ := t
  cases values with
  | nil => cases h
  | cons v vs =>
    cases kind <;> simp only [Token.isVoid, Token.value, List.headD_cons, Bool.false_eq_true] at hvoid
    case type =>
      rw [List.isEmpty_iff] at hvoid
      simp only [Filter.addToken, hvoid, List.foldl_nil] at h
      exact (Except.ok.inj h).symm
    case phrase | excludedPhrase =>
      simp only [Filter.addToken, hvoid, if_true] at h
      exact (Except.ok.inj h).symm
    case date =>
      simp only [Bool.and_eq_true, Option.isNone_iff_eq_none] at hvoid
      obtain ⟨hnone, hday⟩ := hvoid
      simp only [Filter.addToken, Filter.addDate, hnone, Option.isSome_none, Bool.false_eq_true, if_false] at h
      split at h
      · exact (Except.ok.inj h).symm
      · rename_i today htoday
        rw [writtenDay?, htoday] at hday
        split at h
        · rename_i span hspan
          rw [Option.bind_some, hspan] at hday
          cases hday
        · exact (Except.ok.inj h).symm
        · cases h

/-! ## All tokens -/

theorem foldlM_answers {ts : List Token} (hts : ∀ t ∈ ts, t.values.length = t.kind.arity) (f : Filter) :
    (∃ g, ts.foldlM (Filter.addToken clock lexicon) f = .ok g) ↔
      ∀ v ∈ writtenDates lexicon ts, DividesDate clock v := by
  induction ts generalizing f with
  | nil => exact ⟨fun _ v hv => (by cases hv), fun _ => ⟨f, rfl⟩⟩
  | cons t ts ih =>
    obtain ⟨ht, hts⟩ := List.forall_mem_cons.1 hts
    have hsplit : ∀ v, v ∈ writtenDates lexicon (t :: ts) ↔
        v ∈ writtenDates lexicon [t] ∨ v ∈ writtenDates lexicon ts := by
      intro v
      simp only [mem_writtenDates, List.mem_cons, List.not_mem_nil, or_false, or_and_right, exists_or]
    simp only [hsplit, or_imp, forall_and]
    rw [← addToken_answers f ht, List.foldlM_cons]
    constructor
    · rintro ⟨g, hg⟩
      obtain ⟨f', hf', hg⟩ := bind_eq_ok.1 hg
      exact ⟨⟨f', hf'⟩, (ih hts f').1 ⟨g, hg⟩⟩
    · rintro ⟨⟨f', hf'⟩, hrest⟩
      obtain ⟨g, hg⟩ := (ih hts f').2 hrest
      exact ⟨g, bind_eq_ok.2 ⟨f', hf', hg⟩⟩

/-- Tokens that say nothing are passed over. -/
theorem foldlM_filter_isVoid {ts : List Token} {f g : Filter}
    (h : ts.foldlM (Filter.addToken clock lexicon) f = .ok g) :
    (ts.filter (!·.isVoid clock lexicon)).foldlM (Filter.addToken clock lexicon) f = .ok g := by
  induction ts generalizing f with
  | nil => exact h
  | cons t ts ih =>
    rw [List.foldlM_cons] at h
    obtain ⟨f', hf', h⟩ := bind_eq_ok.1 h
    cases hvoid : t.isVoid clock lexicon with
    | false =>
      rw [List.filter_cons, hvoid, Bool.not_false, if_pos rfl, List.foldlM_cons]
      exact bind_eq_ok.2 ⟨f', hf', ih h⟩
    | true =>
      rw [List.filter_cons, hvoid, Bool.not_true, if_neg Bool.false_ne_true]
      rw [addToken_of_isVoid hvoid hf'] at h
      exact ih h

theorem ofTokens_answers {ts : List Token} (hts : ∀ t ∈ ts, t.values.length = t.kind.arity) :
    (∃ f, Filter.ofTokens clock lexicon ts = .ok f) ↔ ∀ v ∈ writtenDates lexicon ts, DividesDate clock v := by
  rw [← foldlM_answers hts {}]
  constructor
  · rintro ⟨f, hf⟩
    obtain ⟨g, hg, -⟩ := bind_eq_ok.1 hf
    exact ⟨g, hg⟩
  · rintro ⟨g, hg⟩
    exact ⟨_, bind_eq_ok.2 ⟨g, hg, rfl⟩⟩

theorem ofTokens_filter_isVoid {ts : List Token} {f : Filter} (h : Filter.ofTokens clock lexicon ts = .ok f) :
    Filter.ofTokens clock lexicon (ts.filter (!·.isVoid clock lexicon)) = .ok f := by
  obtain ⟨g, hg, hf⟩ := bind_eq_ok.1 h
  exact bind_eq_ok.2 ⟨g, foldlM_filter_isVoid hg, hf⟩

end Tokens

/-! ## Queries -/

/-- The tokens of a query of any kind. Only texts have any. -/
def queryTokens (lexicon : Lexicon) : Value → List Token
  | .text q => tokensOf lexicon (strip q.toList)
  | _ => []

theorem compileLogged_eq_ofTokens (clock : Clock) (lexicon : Lexicon) (query : Value) (log : List Entry) :
    answerOf (compileLogged clock lexicon query) log =
      (Filter.ofTokens clock lexicon (queryTokens lexicon query)).mapError .notCompiled := by
  unfold queryTokens
  split
  · rename_i q
    rw [← compile_eq_ofTokens]
    cases h : compile clock lexicon q with
    | ok f => exact compileLogged_eq h log
    | error e =>
      unfold compileLogged
      dsimp only
      rw [h]
      rfl
  · rename_i htext
    unfold compileLogged
    split
    · exact absurd rfl (htext _)
    · rfl

/-- A query has a filter, that of the tokens that say something, unless a date of it holds a
    number too long to be divided; no number of up to 28 digits is. A text is a day or none just
    if it holds no such number, whatever else stands in it. -/
theorem compileLogged_answers (clock : Clock) (lexicon : Lexicon) (query : Value) (log : List Entry) :
    ((∃ f, answerOf (compileLogged clock lexicon query) log = .ok f) ↔
      ∀ v ∈ writtenDates lexicon (queryTokens lexicon query), DividesDate clock v) ∧
    (∀ today s, (∃ span, DaySpan.ofText? clock today s = .ok span) ↔ Written.Divides (Written.read clock today s)) ∧
    ((∀ v ∈ writtenDates lexicon (queryTokens lexicon query),
      Written.digitCount v.toList ≤ Written.Decimal.precision) →
      ∃ f, answerOf (compileLogged clock lexicon query) log = .ok f) ∧
    ∀ f, answerOf (compileLogged clock lexicon query) log = .ok f →
      Filter.ofTokens clock lexicon ((queryTokens lexicon query).filter (!·.isVoid clock lexicon)) = .ok f := by
  have harity : ∀ t ∈ queryTokens lexicon query, t.values.length = t.kind.arity := by
    intro t ht
    unfold queryTokens at ht
    split at ht
    · exact arity_of_mem_tokensOf ht
    · cases ht
  rw [compileLogged_eq_ofTokens]
  simp only [mapError_eq_ok]
  refine ⟨ofTokens_answers harity, fun _ _ => ofText?_divides, fun h => ?_, fun f => ofTokens_filter_isVoid⟩
  exact (ofTokens_answers harity).2 fun v hv today _ => Written.divides_read clock today (h v hv)

/-- A type that is unknown, a blank phrase and dates that are none are passed over, and a number
    of 28 digits is not too long. -/
theorem compileLogged_answers_passed_over :
    let clock : Clock := ⟨.universal (738000 * microsPerDay), Zone.utc⟩
    let query : Value := .text "red type:x \" \" date:soon date:1111111111111111111111111111h date:0001-01-01"
    answerOf (compileLogged clock .builtin query) [] = .ok { terms := ["red"], freeText := "red" } := by
  intro clock query
  have htokens : queryTokens .builtin query =
      [⟨.phrase, [" "], 11, 14⟩, ⟨.type, ["x"], 4, 10⟩, ⟨.date, ["soon"], 15, 24⟩,
       ⟨.date, ["1111111111111111111111111111h"], 25, 59⟩, ⟨.date, ["0001-01-01"], 60, 75⟩, ⟨.term, ["red"], 0, 3⟩] := by
    rw [queryTokens, tokensOf, rules, spacedPresets_builtin]
    decide +kernel
  obtain ⟨-, -, hshort, hkept⟩ := compileLogged_answers clock .builtin query []
  rw [htokens] at hshort hkept
  obtain ⟨f, hf⟩ := hshort (by decide +kernel)
  have hred : Filter.ofTokens clock .builtin [⟨.term, ["red"], 0, 3⟩] = .ok { terms := ["red"], freeText := "red" } := by
    decide +kernel
  have hfilter := hkept f hf
  have hsame : f = { terms := ["red"], freeText := "red" } := by
    refine Except.ok.inj (hfilter.symm.trans (Eq.trans ?_ hred))
    congr 1
    decide +kernel
  rw [hf, hsame]

/-- A date of more digits stops the query. -/
theorem compileLogged_long_number :
    let clock : Clock := ⟨.universal (738000 * microsPerDay), Zone.utc⟩
    answerOf (compileLogged clock .builtin (.text "date:11111111111111111111111111111h")) [] =
      .error (.notCompiled .numberTooLong) := by
  intro clock
  have htokens : queryTokens .builtin (.text "date:11111111111111111111111111111h") =
      [⟨.date, ["11111111111111111111111111111h"], 0, 35⟩] := by
    rw [queryTokens, tokensOf, rules, spacedPresets_builtin]
    decide +kernel
  rw [compileLogged_eq_ofTokens, htokens]
  decide +kernel

end SearchBox.Query

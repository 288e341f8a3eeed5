import SearchBox.Proofs.Query.Wordwise
import SearchBox.Query.Compile

/-!
  SearchBox.Proofs.Query.Parts — filters by their lists of values. A token with a list of its
  own adds to that list and touches nothing else (`addToken_of_part?`); tokens one after
  another add what they say in order (`foldlM_addToken`). The filter of a plain query holds
  what its words say (`compile_of_isPlain`), so that the filter of two plain queries side by
  side holds what either of them asks for (`compile_beside`).
-/

namespace SearchBox.Query

open SearchBox.Calendar SearchBox.Text

/-! ## Parts -/

/-- The lists of values of a filter. -/
inductive Part where
  | terms
  | phrases
  | excludedTerms
  | excludedPhrases
  | objects
  | texts
  | types
  | formats
  | sites
  | tags
  deriving DecidableEq, Repr

def Filter.part (f : Filter) : Part → List String
  | .terms => f.terms
  | .phrases => f.phrases
  | .excludedTerms => f.excludedTerms
  | .excludedPhrases => f.excludedPhrases
  | .objects => f.objects
  | .texts => f.texts
  | .types => f.types
  | .formats => f.formats
  | .sites => f.sites
  | .tags => f.tags

/-- The parts of which a record has to fit one value only. -/
def Part.isAnyOf : Part → Bool
  | .objects | .texts | .types | .formats | .sites => true
  | _ => false

/-- The part that tokens of a kind add to. Choices and dates have none. -/
def TokenKind.part? : TokenKind → Option Part
  | .term => some .terms
  | .phrase => some .phrases
  | .excluded => some .excludedTerms
  | .excludedPhrase => some .excludedPhrases
  | .object => some .objects
  | .text => some .texts
  | .type => some .types
  | .format => some .formats
  | .site => some .sites
  | .tag => some .tags
  | .hashtag => some .tags
  | .choice => none
  | .date => none

/-- The values that a token's value stands for. -/
def worth (lexicon : Lexicon) (kind : TokenKind) (v : String) : List String :=
  match kind with
  | .type => lexicon.tagsOf v
  | .phrase | .excludedPhrase => if isBlankText v.toList then [] else [v]
  | _ => [v]

/-- A part with further values: terms pile up, other values are kept once. -/
def Part.join (p : Part) (old new : List String) : List String :=
  match p with
  | .terms => old ++ new
  | _ => new.foldl (fun values v => addNew v values) old

@[simp] theorem Part.join_nil (p : Part) (old : List String) : p.join old [] = old := by
  cases p <;> simp [join]

theorem Part.join_append (p : Part) (old a b : List String) : p.join old (a ++ b) = p.join (p.join old a) b := by
  cases p <;> simp [join, List.foldl_append]

theorem mem_foldl_addNew {v : String} {old new : List String} :
    v ∈ new.foldl (fun values w => addNew w values) old ↔ v ∈ old ∨ v ∈ new := by
  induction new generalizing old with
  | nil => simp
  | cons w new ih =>
    rw [List.foldl_cons, ih, mem_addNew, List.mem_cons]
    tauto

/-- Values kept once are the values without their later repetitions. -/
theorem foldl_addNew (old new : List String) :
    new.foldl (fun values v => addNew v values) old = old ++ (new.filter (· ∉ old)).eraseDups := by
  induction new generalizing old with
  | nil => simp
  | cons v new ih =>
    rw [List.foldl_cons, ih, addNew]
    by_cases hv : v ∈ old
    · rw [if_pos hv, List.filter_cons, if_neg (by simpa using hv)]
    · have hfilter : new.filter (· ∉ old ++ [v]) = (new.filter (· ∉ old)).filter fun w => !w == v := by
        rw [List.filter_filter]
        refine List.filter_congr fun w _ => ?_
        by_cases hw : w = v <;> simp [hw]
      rw [if_neg hv, List.filter_cons, if_pos (by simpa using hv), List.eraseDups_cons, hfilter, List.append_assoc]
      rfl

theorem Part.mem_join {p : Part} {v : String} {old new : List String} : v ∈ p.join old new ↔ v ∈ old ∨ v ∈ new := by
  cases p <;> simp [join, mem_foldl_addNew]

namespace Filter

/-- The filter with other values in a part. -/
def withPart (f : Filter) (values : List String) : Part → Filter
  | .terms => { f with terms := values }
  | .phrases => { f with phrases := values }
  | .excludedTerms => { f with excludedTerms := values }
  | .excludedPhrases => { f with excludedPhrases := values }
  | .objects => { f with objects := values }
  | .texts => { f with texts := values }
  | .types => { f with types := values }
  | .formats => { f with formats := values }
  | .sites => { f with sites := values }
  | .tags => { f with tags := values }

@[simp] theorem part_withPart_self (f : Filter) (values : List String) (p : Part) :
    (f.withPart values p).part p = values := by
  cases p <;> rfl

theorem part_withPart_of_ne {p q : Part} (h : q ≠ p) (f : Filter) (values : List String) :
    (f.withPart values p).part q = f.part q := by
  cases p <;> cases q <;> first | rfl | exact absurd rfl h

/-- Filters with the same choices and dates. -/
structure SameBeside (f g : Filter) : Prop where
  choices : f.choices = g.choices
  since : f.since = g.since
  day : f.day = g.day

theorem SameBeside.trans {f g h : Filter} (hfg : f.SameBeside g) (hgh : g.SameBeside h) : f.SameBeside h :=
  ⟨hfg.choices.trans hgh.choices, hfg.since.trans hgh.since, hfg.day.trans hgh.day⟩

theorem sameBeside_withPart (f : Filter) (values : List String) (p : Part) : (f.withPart values p).SameBeside f := by
  cases p <;> exact ⟨rfl, rfl, rfl⟩

end Filter

/-! ## Tokens -/

section Tokens

variable (clock : Clock) (lexicon : Lexicon)

/-- A token adds what its value stands for to the part of its kind. -/
theorem addToken_of_part? {t : Token} {p : Part} {v : String} {vs : List String} (hp : t.kind.part? = some p)
    (hv : t.values = v :: vs) (f : Filter) :
    f.addToken clock lexicon t = .ok (f.withPart (p.join (f.part p) (worth lexicon t.kind v)) p) := by
  obtain ⟨kind, values, start, stop⟩ := t
  simp only at hv hp
  subst hv
  cases kind <;> simp only [TokenKind.part?, Option.some.injEq, reduceCtorEq] at hp <;> subst hp
  case phrase | excludedPhrase =>
    cases hblank : isBlankText v.toList <;>
      simp [Filter.addToken, Filter.withPart, Filter.part, Part.join, worth, hblank]
  all_goals rfl

theorem addToken_date (f : Filter) (v : String) (vs : List String) (start stop : Nat) :
    f.addToken clock lexicon ⟨.date, v :: vs, start, stop⟩ = f.addDate clock lexicon v :=
  rfl

/-- What contents say for a part. -/
def gathered (p : Part) (cs : List Content) : List String :=
  cs.flatMap fun (kind, values) => if kind.part? = some p then worth lexicon kind (values.headD "") else []

theorem gathered_cons (p : Part) (kind : TokenKind) (values : List String) (cs : List Content) :
    gathered lexicon p ((kind, values) :: cs) =
      (if kind.part? = some p then worth lexicon kind (values.headD "") else []) ++ gathered lexicon p cs := rfl

theorem gathered_append (p : Part) (cs ds : List Content) :
    gathered lexicon p (cs ++ ds) = gathered lexicon p cs ++ gathered lexicon p ds :=
  List.flatMap_append

/-- Tokens with parts and values never fail, and each part gathers what they say for it. -/
theorem foldlM_addToken {ts : List Token} (hts : ∀ t ∈ ts, t.kind.part?.isSome ∧ t.values ≠ []) (f : Filter) :
    ∃ g, ts.foldlM (Filter.addToken clock lexicon) f = .ok g ∧ g.SameBeside f ∧
      ∀ p, g.part p = p.join (f.part p) (gathered lexicon p (ts.map Token.content)) := by
  induction ts generalizing f with
  | nil =>
    exact ⟨f, rfl, ⟨rfl, rfl, rfl⟩, fun p => (Part.join_nil p _).symm⟩
  | cons t ts ih =>
    obtain ⟨⟨hkind, hvalues⟩, hts⟩ := List.forall_mem_cons.1 hts
    obtain ⟨p, hp⟩ := Option.isSome_iff_exists.1 hkind
    obtain ⟨v, vs, hv⟩ := List.exists_cons_of_ne_nil hvalues
    obtain ⟨g, hg, hbeside, hpart⟩ := ih hts (f.withPart (p.join (f.part p) (worth lexicon t.kind v)) p)
    refine ⟨g, ?_, hbeside.trans (Filter.sameBeside_withPart _ _ _), fun q => ?_⟩
    · rw [List.foldlM_cons, addToken_of_part? clock lexicon hp hv f]
      exact hg
    · rw [hpart, List.map_cons, Token.content, gathered_cons, Part.join_append]
      congr 1
      by_cases hq : q = p
      · subst hq
        simp [hp, hv]
      · have hne : t.kind.part? ≠ some q := by
          rw [hp]
          exact fun h => hq (Option.some.inj h).symm
        rw [Filter.part_withPart_of_ne hq, if_neg hne, Part.join_nil]

end Tokens

/-! ## Filters of tokens -/

/-- A query has the filter of its tokens, blank or not. -/
theorem compile_eq_ofTokens (clock : Clock) (lexicon : Lexicon) (query : String) :
    compile clock lexicon query = Filter.ofTokens clock lexicon (tokensOf lexicon (strip query.toList)) := by
  unfold compile
  dsimp only
  split
  · rename_i hblank
    rw [List.isEmpty_iff.1 hblank]
    rfl
  · rfl

/-- A query without white space at its ends has the filter of the tokens of just its text. -/
theorem compile_of_isEdged (clock : Clock) (lexicon : Lexicon) {query : String} (h : IsEdged query.toList) :
    compile clock lexicon query = Filter.ofTokens clock lexicon (tokensOf lexicon query.toList) := by
  rw [compile_eq_ofTokens, strip_of_isEdged h]

theorem ofTokens_singleton {clock : Clock} {lexicon : Lexicon} {t : Token} {f : Filter}
    (h : ({} : Filter).addToken clock lexicon t = .ok f) :
    Filter.ofTokens clock lexicon [t] = .ok { f with freeText := Filter.joined f.terms f.phrases } := by
  rw [Filter.ofTokens, List.foldlM_cons, h]
  rfl

/-! ## Plain queries -/

/-- What a rule finds has a value. -/
def Rule.Speaks (r : Rule) : Prop :=
  ∀ ws s f, r ws s = some f → f.values ≠ []

theorem fieldRule_speaks (key : String) : (fieldRule key wordValue?).Speaks := by
  intro ws s f h
  obtain ⟨-, k, rest, v, -, -, hv, rfl⟩ := fieldRule_eq_some h
  obtain ⟨word, later, -, rfl, -⟩ := wordValue?_eq_some hv
  exact List.cons_ne_nil _ _

theorem hashtagRule_speaks : Rule.Speaks hashtagRule := by
  intro ws s f h
  obtain ⟨-, c, name, rest, -, rfl, -⟩ := hashtagRule_eq_some h
  exact List.cons_ne_nil _ _

theorem exclusionRule_speaks : Rule.Speaks exclusionRule := by
  intro ws s f h
  obtain ⟨-, c, word, rest, -, rfl, -⟩ := exclusionRule_eq_some h
  exact List.cons_ne_nil _ _

theorem wordRules_speak {r : TokenKind × Rule} (h : r ∈ wordRules) : r.2.Speaks ∧ r.1.part?.isSome := by
  simp only [wordRules, earlyRules, lateRules, List.cons_append, List.nil_append, List.mem_cons, List.not_mem_nil,
    or_false] at h
  rcases h with rfl | rfl | rfl | rfl | rfl | rfl | rfl | rfl
  · exact ⟨fieldRule_speaks _, rfl⟩
  · exact ⟨fieldRule_speaks _, rfl⟩
  · exact ⟨fieldRule_speaks _, rfl⟩
  · exact ⟨fieldRule_speaks _, rfl⟩
  · exact ⟨fieldRule_speaks _, rfl⟩
  · exact ⟨fieldRule_speaks _, rfl⟩
  · exact ⟨hashtagRule_speaks, rfl⟩
  · exact ⟨exclusionRule_speaks, rfl⟩

theorem exists_of_mem_sweepAll {rs : List (TokenKind × Rule)} {s : List Char} {t : Token}
    (h : t ∈ (sweepAll rs s).1) :
    ∃ r ∈ rs, ∃ ws s' f, r.2 ws s' = some f ∧ t.kind = r.1 ∧ t.values = f.values.map fun v => String.ofList (lower v) := by
  induction rs generalizing s with
  | nil => cases h
  | cons r rs ih =>
    obtain ⟨kind, rule⟩ := r
    rw [sweepAll_cons] at h
    rcases List.mem_append.1 h with h | h
    · obtain ⟨pre, rest, f, -, -, hf, rfl⟩ := isFoundIn_of_mem_sweep h
      exact ⟨_, List.mem_cons_self, _, rest, f, hf, rfl, rfl⟩
    · obtain ⟨r, hr, hfound⟩ := ih h
      exact ⟨r, List.mem_cons_of_mem _ hr, hfound⟩

/-- The tokens of a plain text have values, and parts of the filter to add them to. -/
theorem part?_of_mem_tokensOf {lexicon : Lexicon} {s : List Char} (hs : IsPlain s) {t : Token}
    (h : t ∈ tokensOf lexicon s) : t.kind.part?.isSome ∧ t.values ≠ [] := by
  rw [tokensOf_eq, sweepAll_of_isPlain lexicon hs] at h
  rcases List.mem_append.1 h with h | h
  · obtain ⟨r, hr, ws, s', f, hf, hkind, hvalues⟩ := exists_of_mem_sweepAll h
    obtain ⟨hspeaks, hpart⟩ := wordRules_speak hr
    rw [hkind, hvalues]
    exact ⟨hpart, by simpa using hspeaks _ _ _ hf⟩
  · obtain ⟨w, hterm, -⟩ := exists_of_mem_termsOf h
    simp only [termOf?] at hterm
    split at hterm
    · cases hterm
    · rw [← Option.some.inj hterm]
      exact ⟨rfl, List.cons_ne_nil _ _⟩

theorem IsPlain.of_subset {s s' : List Char} (hs : IsPlain s) (hchars : ∀ c ∈ s', c ∈ s)
    (hwords : words s' = words s) : IsPlain s' where
  quote h := hs.quote (hchars _ h)
  bar h := hs.bar (hchars _ h)
  date w hw := hs.date w (hwords ▸ hw)

theorem mem_of_mem_strip {s : List Char} {c : Char} (h : c ∈ strip s) : c ∈ s := by
  have hend := (List.dropWhile_suffix _).subset (List.mem_reverse.1 h)
  exact (List.dropWhile_suffix _).subset (List.mem_reverse.1 hend)

/-- Lists of values are all that the filter of a plain query holds, and they say what the words
    of the query say. -/
theorem compile_of_isPlain (clock : Clock) (lexicon : Lexicon) {query : String} (hq : IsPlain query.toList) :
    ∃ f, compile clock lexicon query = .ok f ∧ f.SameBeside {} ∧
      ∀ p v, v ∈ f.part p ↔ v ∈ gathered lexicon p ((words query.toList).flatMap wordContents) := by
  have hstrip : IsPlain (strip query.toList) := hq.of_subset (fun _ => mem_of_mem_strip) (words_strip _)
  unfold compile
  by_cases hblank : strip query.toList = []
  · refine ⟨{}, by simp [hblank], ⟨rfl, rfl, rfl⟩, fun p v => ?_⟩
    rw [← words_strip, hblank]
    cases p <;> simp [Filter.part, gathered, words]
  · obtain ⟨f, hf, hbeside, hpart⟩ :=
      foldlM_addToken clock lexicon (fun t (ht : t ∈ tokensOf lexicon _) => part?_of_mem_tokensOf hstrip ht) {}
    refine ⟨{ f with freeText := Filter.joined f.terms f.phrases }, ?_, ⟨hbeside.1, hbeside.2, hbeside.3⟩,
      fun p v => ?_⟩
    · simp only [List.isEmpty_iff, hblank, if_false, Filter.ofTokens, hf]
      rfl
    · have hsame : ({ f with freeText := Filter.joined f.terms f.phrases } : Filter).part p = f.part p := by
        cases p <;> rfl
      have hempty : ({} : Filter).part p = [] := by cases p <;> rfl
      have hperm := contents_tokensOf lexicon hstrip
      rw [words_strip] at hperm
      rw [hsame, hpart, Part.mem_join, hempty, gathered, gathered, (hperm.flatMap_right _).mem_iff]
      simp

/-- A filter that asks for the values of both of two filters. -/
def Filter.IsUnion (h f g : Filter) : Prop :=
  ∀ p v, v ∈ h.part p ↔ v ∈ f.part p ∨ v ∈ g.part p

theorem IsPlain.beside {s s' : List Char} (hs : IsPlain s) (hs' : IsPlain s') : IsPlain (s ++ ' ' :: s') where
  quote := by simp [hs.quote, hs'.quote]
  bar := by simp [hs.bar, hs'.bar]
  date w hw := by
    rw [words_append_blank (by decide)] at hw
    rcases List.mem_append.1 hw with hw | hw
    · exact hs.date w hw
    · exact hs'.date w hw

/-- Two plain queries side by side ask for what either of them asks for. -/
theorem compile_beside (clock : Clock) (lexicon : Lexicon) {q₁ q₂ : String} (h₁ : IsPlain q₁.toList)
    (h₂ : IsPlain q₂.toList) {f₁ f₂ : Filter} (hf₁ : compile clock lexicon q₁ = .ok f₁)
    (hf₂ : compile clock lexicon q₂ = .ok f₂) :
    ∃ h, compile clock lexicon (q₁ ++ " " ++ q₂) = .ok h ∧ h.SameBeside {} ∧ h.IsUnion f₁ f₂ := by
  have hquery : (q₁ ++ " " ++ q₂).toList = q₁.toList ++ ' ' :: q₂.toList := by simp
  obtain ⟨g₁, hg₁, -, hmem₁⟩ := compile_of_isPlain clock lexicon h₁
  obtain ⟨g₂, hg₂, -, hmem₂⟩ := compile_of_isPlain clock lexicon h₂
  have hplain : IsPlain (q₁ ++ " " ++ q₂).toList := hquery ▸ h₁.beside h₂
  obtain ⟨h, hh, hbeside, hmem⟩ := compile_of_isPlain clock lexicon hplain
  rw [hf₁] at hg₁
  rw [hf₂] at hg₂
  cases hg₁
  cases hg₂
  refine ⟨h, hh, hbeside, fun p v => ?_⟩
  rw [hmem, hmem₁, hmem₂, hquery, words_append_blank (by decide), List.flatMap_append, gathered_append,
    List.mem_append]

end SearchBox.Query

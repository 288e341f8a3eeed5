import Mathlib.Data.List.TakeWhile
import SearchBox.Proofs.Query.Leftovers

/-!
  SearchBox.Proofs.Query.Wordwise — queries that are read word by word. Fields with a value of
  one word, hashtags and exclusions look no further than the next white space
  (`Rule.IsLocal`), so a sweep goes over the two sides of white space as if each stood alone
  (`sweepAll_append`). Rules that take whole words leave words of the text, and find nothing at the
  front of them (`of_mem_words_sweepAll`). In a query without quotes, bars and dates no other rule
  finds anything (`sweepAll_of_isPlain`): its tokens are those of its words, one word at a time
  (`contents_tokensOf`). A text that one rule takes at the front of a query, and no rule before
  it, is the query's token there (`tokensOf_front`).
-/

namespace SearchBox.Query

open SearchBox.Text

/-! ## Local rules -/

/-- A rule that takes something at the start of a word only, and looks no further than the next
    white space. -/
structure Rule.IsLocal (r : Rule) : Prop where
  starts : ∀ s, r false s = none
  append : ∀ ws a rest, a ≠ [] → StartsBlank rest → r ws (a ++ rest) = r ws a
  takes : r.Takes IsEdged

theorem takeWhile_append_of_startsBlank {p : Char → Bool} (hp : ∀ c, isBlank c = true → p c = false)
    (a : List Char) {rest : List Char} (h : StartsBlank rest) : (a ++ rest).takeWhile p = a.takeWhile p := by
  induction a with
  | nil =>
    cases rest with
    | nil => rfl
    | cons c rest => simp [hp c (h c rfl)]
  | cons c a ih => cases hc : p c <;> simp [hc, ih]

theorem dropCaseless?_append {key : List Char} (hkey : ∀ c ∈ key, isBlank c = false) (a : List Char)
    {rest : List Char} (h : StartsBlank rest) :
    dropCaseless? key (a ++ rest) = (dropCaseless? key a).map (· ++ rest) := by
  induction key generalizing a with
  | nil => rfl
  | cons k key ih =>
    obtain ⟨hk, hkey⟩ := List.forall_mem_cons.1 hkey
    cases a with
    | nil =>
      cases rest with
      | nil => rfl
      | cons c rest =>
        have hc : sameLetter k c = false := by
          rw [Bool.eq_false_iff]
          intro hsame
          rw [isBlank_eq_of_sameLetter hsame, h c rfl] at hk
          cases hk
        simp [dropCaseless?, hc]
    | cons c a =>
      rw [List.cons_append, dropCaseless?, dropCaseless?]
      split
      · exact ih hkey a
      · rfl

theorem wordValue?_append (a : List Char) {rest : List Char} (h : StartsBlank rest) :
    wordValue? (a ++ rest) = wordValue? a := by
  rw [wordValue?, wordValue?, takeWhile_append_of_startsBlank (by simp) a h]

theorem fieldRule_isLocal {key : String} (hkey : IsSolid key.toList) : (fieldRule key wordValue?).IsLocal where
  starts _ := rfl
  takes := (fieldRule_takes_isSolid hkey).mono fun _ => IsSolid.isEdged
  append := by
    intro ws a rest _ hrest
    unfold fieldRule
    rw [dropCaseless?_append hkey.2 a hrest]
    rcases hdrop : dropCaseless? key.toList a with _ | _ | ⟨c, more⟩
    · rfl
    · cases rest with
      | nil => rfl
      | cons c rest =>
        have hc : c ≠ ':' := fun hc => by simpa [hc, isBlank, covers, blankRanges] using hrest c rfl
        simp [hc]
    · by_cases hc : c = ':'
      · simp [hc, wordValue?_append more hrest]
      · simp [hc]

theorem isSolid_fieldKeys : ∀ key ∈ fieldKeys, IsSolid key.toList := by
  decide

theorem hashtagRule_isLocal : Rule.IsLocal hashtagRule where
  starts _ := rfl
  takes := hashtagRule_takes.mono fun _ => IsSolid.isEdged
  append := by
    have hstop : ∀ c, isBlank c = true → isWordChar c = false := fun c hc => by
      rw [Bool.eq_false_iff]
      intro hw
      rw [isBlank_eq_false_of_isWordChar hw] at hc
      cases hc
    have hdash : isBlank '-' = false := by decide
    intro ws a rest ha hrest
    rcases a with _ | ⟨c, _ | ⟨d, more⟩⟩
    · exact absurd rfl ha
    · cases rest with
      | nil => rfl
      | cons d rest =>
        have hd := hstop d (hrest d rfl)
        cases ws <;> by_cases hc : c = '#' <;> simp [hashtagRule, hc, hd]
    · have hmore : (more ++ rest).takeWhile (fun d => isWordChar d || d = '-') =
          more.takeWhile fun d => isWordChar d || d = '-' := by
        refine takeWhile_append_of_startsBlank (fun c hc => ?_) more hrest
        have hne : c ≠ '-' := fun h => by rw [h, hdash] at hc; cases hc
        simp [hstop c hc, hne]
      cases ws
      · rfl
      · by_cases hc : c = '#'
        · subst hc
          show hashtagRule true ('#' :: d :: (more ++ rest)) = _
          rw [hashtagRule, hashtagRule, hmore]
        · simp [hashtagRule, hc]

theorem exclusionRule_isLocal : Rule.IsLocal exclusionRule where
  starts _ := rfl
  takes := exclusionRule_takes.mono fun _ => IsSolid.isEdged
  append := by
    intro ws a rest ha hrest
    rcases a with _ | ⟨c, _ | ⟨d, more⟩⟩
    · exact absurd rfl ha
    · cases rest with
      | nil => rfl
      | cons d rest =>
        have hd := hrest d rfl
        cases ws <;> by_cases hc : c = '-' <;> simp [exclusionRule, hc, hd]
    · cases ws
      · rfl
      · by_cases hc : c = '-'
        · subst hc
          show exclusionRule true ('-' :: d :: (more ++ rest)) = _
          rw [exclusionRule, exclusionRule, takeWhile_append_of_startsBlank (by simp) more hrest]
        · simp [exclusionRule, hc]

/-! ## What tokens say -/

/-- A kind and values, wherever they stand. -/
abbrev Content := TokenKind × List String

def Token.content (t : Token) : Content :=
  (t.kind, t.values)

/-- Tokens say the same wherever the text starts. -/
theorem sweep_place (kind : TokenKind) (rule : Rule) (p q taken : Nat) (ws : Bool) (s : List Char) :
    (sweep kind rule p taken ws s).1.map Token.content = (sweep kind rule q taken ws s).1.map Token.content ∧
      (sweep kind rule p taken ws s).2 = (sweep kind rule q taken ws s).2 := by
  induction s generalizing p q taken ws with
  | nil => exact ⟨rfl, rfl⟩
  | cons c s ih =>
    cases taken with
    | succ taken =>
      obtain ⟨hts, hleft⟩ := ih (p + 1) (q + 1) taken (isBlank c)
      exact ⟨hts, congrArg (' ' :: ·) hleft⟩
    | zero =>
      rw [sweep, sweep]
      cases rule ws (c :: s) with
      | none =>
        obtain ⟨hts, hleft⟩ := ih (p + 1) (q + 1) 0 (isBlank c)
        exact ⟨hts, congrArg (c :: ·) hleft⟩
      | some f =>
        obtain ⟨hts, hleft⟩ := ih (p + 1) (q + 1) (f.length - 1) (isBlank c)
        exact ⟨congrArg (_ :: ·) hts, congrArg (' ' :: ·) hleft⟩

/-! ## Sweeps on two sides of white space -/

section Local

variable {kind : TokenKind} {rule : Rule}

theorem sweep_of_startsBlank (hr : rule.Takes IsEdged) (place : Nat) (ws : Bool) {s : List Char} (hs : StartsBlank s) :
    sweep kind rule place 0 ws s = sweep kind rule place 0 true s := by
  cases s with
  | nil => rfl
  | cons c s => rw [sweep, sweep, hr.eq_none ws hs, hr.eq_none true hs]

theorem sweep_cons_of_isBlank (hr : rule.Takes IsEdged) (place : Nat) {c : Char} (hc : isBlank c = true) (s : List Char) :
    sweep kind rule place 0 true (c :: s) =
      ((sweep kind rule (place + 1) 0 true s).1, c :: (sweep kind rule (place + 1) 0 true s).2) := by
  have hs : StartsBlank (c :: s) := fun d hd => by cases hd; exact hc
  rw [sweep, hr.eq_none true hs, hc]

theorem sweep_append (hr : rule.IsLocal) (place taken : Nat) (ws : Bool) {a rest : List Char}
    (htaken : taken ≤ a.length) (hrest : StartsBlank rest) :
    sweep kind rule place taken ws (a ++ rest) =
      ((sweep kind rule place taken ws a).1 ++ (sweep kind rule (place + a.length) 0 true rest).1,
        (sweep kind rule place taken ws a).2 ++ (sweep kind rule (place + a.length) 0 true rest).2) := by
  induction a generalizing place taken ws with
  | nil =>
    rw [Nat.le_zero.1 htaken, List.nil_append, sweep_of_startsBlank hr.takes place ws hrest]
    rfl
  | cons c a ih =>
    have hplace : place + (c :: a).length = place + 1 + a.length := by
      simp only [List.length_cons]
      omega
    rw [hplace]
    cases taken with
    | succ taken =>
      rw [List.cons_append, sweep, sweep, ih (place + 1) taken (isBlank c) (Nat.le_of_succ_le_succ htaken)]
      rfl
    | zero =>
      have hrule := hr.append ws (c :: a) rest (List.cons_ne_nil _ _) hrest
      rw [List.cons_append] at hrule
      rw [List.cons_append, sweep, sweep, hrule]
      cases hf : rule ws (c :: a) with
      | none =>
        simp only
        rw [ih (place + 1) 0 (isBlank c) (Nat.zero_le _)]
        rfl
      | some f =>
        obtain ⟨m, later, hm, hlen, -⟩ := hr.takes ws _ f hf
        have hle := congrArg List.length hm
        simp only [List.length_cons, List.length_append] at hle
        simp only
        rw [ih (place + 1) (f.length - 1) (isBlank c) (by omega)]
        rfl

/-- Of a word a sweep takes something off the front or nothing. -/
theorem eq_of_mem_sweep_of_isSolid (hr : rule.IsLocal) {w : List Char} (hw : IsSolid w) {t : Token}
    (h : t ∈ (sweep kind rule 0 0 true w).1) :
    ∃ f, rule true w = some f ∧ t = ⟨kind, f.values.map fun v => String.ofList (lower v), 0, f.length⟩ := by
  obtain ⟨pre, rest, f, hsplit, -, hf, rfl⟩ := isFoundIn_of_mem_sweep h
  cases hlast : pre.getLast? with
  | none =>
    rw [List.getLast?_eq_none_iff] at hlast
    subst hlast hsplit
    exact ⟨f, hf, by simp⟩
  | some c =>
    rw [hlast, Option.map_some, Option.getD_some, hw.2 c, hr.starts] at hf
    · cases hf
    · rw [hsplit]
      exact List.mem_append_left _ (List.mem_of_getLast? hlast)

end Local

theorem startsBlank_blanked {s : List Char} (hs : StartsBlank s) (ts : List Token) : StartsBlank (blanked ts s) := by
  intro c hc
  rw [List.head?_eq_getElem?, getElem?_blanked, Option.mem_def, Option.map_eq_some_iff] at hc
  obtain ⟨d, hd, rfl⟩ := hc
  split
  · decide
  · exact hs d (by rwa [List.head?_eq_getElem?])

section SweepAll

variable {rs : List (TokenKind × Rule)}

def contents (rs : List (TokenKind × Rule)) (s : List Char) : List Content :=
  (sweepAll rs s).1.map Token.content

theorem contents_cons (kind : TokenKind) (rule : Rule) (rs : List (TokenKind × Rule)) (s : List Char) :
    contents ((kind, rule) :: rs) s =
      (sweep kind rule 0 0 true s).1.map Token.content ++ contents rs (sweep kind rule 0 0 true s).2 := by
  simp [contents]

theorem sweepAll_append (hrs : ∀ r ∈ rs, r.2.IsLocal) (a : List Char) {rest : List Char} (hrest : StartsBlank rest) :
    (contents rs (a ++ rest)).Perm (contents rs a ++ contents rs rest) ∧
      (sweepAll rs (a ++ rest)).2 = (sweepAll rs a).2 ++ (sweepAll rs rest).2 := by
  induction rs generalizing a rest with
  | nil => exact ⟨.refl _, rfl⟩
  | cons r rs ih =>
    obtain ⟨kind, rule⟩ := r
    obtain ⟨hr, hrs⟩ := List.forall_mem_cons.1 hrs
    obtain ⟨hplace, hleft⟩ := sweep_place kind rule (0 + a.length) 0 0 true rest
    have hblank : StartsBlank (sweep kind rule 0 0 true rest).2 := by
      rw [sweep_eq_blanked hr.takes]
      exact startsBlank_blanked hrest _
    obtain ⟨hperm, happend⟩ := ih hrs (sweep kind rule 0 0 true a).2 hblank
    simp only [contents_cons, sweepAll_cons, sweep_append hr 0 0 true (Nat.zero_le _) hrest, hleft,
      List.map_append, hplace]
    refine ⟨?_, happend⟩
    rw [List.append_assoc, List.append_assoc]
    refine List.Perm.append_left _ ((hperm.append_left _).trans ?_)
    exact List.perm_append_comm_assoc _ _ _

theorem sweepAll_cons_of_isBlank (hrs : ∀ r ∈ rs, r.2.IsLocal) {c : Char} (hc : isBlank c = true) (s : List Char) :
    contents rs (c :: s) = contents rs s ∧ (sweepAll rs (c :: s)).2 = c :: (sweepAll rs s).2 := by
  induction rs generalizing s with
  | nil => exact ⟨rfl, rfl⟩
  | cons r rs ih =>
    obtain ⟨kind, rule⟩ := r
    obtain ⟨hr, hrs⟩ := List.forall_mem_cons.1 hrs
    obtain ⟨hplace, hleft⟩ := sweep_place kind rule (0 + 1) 0 0 true s
    simp only [contents_cons, sweepAll_cons, sweep_cons_of_isBlank hr.takes 0 hc s, hleft, hplace]
    obtain ⟨hcontents, hrest⟩ := ih hrs (sweep kind rule 0 0 true s).2
    exact ⟨by rw [hcontents], hrest⟩

end SweepAll

/-! ## Rules that take whole words -/

/-- A rule that takes something at the start of a word only, and ends where a word does. -/
structure Rule.TakesWords (r : Rule) : Prop where
  starts : ∀ s, r false s = none
  takes : r.Takes IsEdged
  ends : ∀ s f, r true s = some f → StartsBlank (s.drop f.length)

/-- A rule finds nothing at the front of a word, whatever it was that stood after the word. -/
def Rule.Passes (r : Rule) (w : List Char) : Prop :=
  ∃ rest, StartsBlank rest ∧ r true (w ++ rest) = none

theorem Rule.IsLocal.eq_none_of_passes {r : Rule} (hr : r.IsLocal) {w : List Char} (hw : w ≠ []) (h : r.Passes w) :
    r true w = none := by
  obtain ⟨rest, hrest, hnone⟩ := h
  rwa [hr.append true w rest hw hrest] at hnone

theorem fieldRule_takesWords {key : String} {value? : List Char → Option Found}
    (htakes : (fieldRule key value?).Takes IsEdged)
    (hvalue : ∀ s f, value? s = some f → StartsBlank (s.drop f.length)) : (fieldRule key value?).TakesWords where
  starts _ := rfl
  takes := htakes
  ends := by
    intro s f h
    obtain ⟨-, k, rest, v, rfl, -, hv, rfl⟩ := fieldRule_eq_some h
    rw [← List.drop_drop, ← List.drop_drop, List.drop_left]
    exact hvalue rest v hv

theorem wordFieldRule_takesWords {key : String} (hkey : IsSolid key.toList) : (fieldRule key wordValue?).TakesWords := by
  refine fieldRule_takesWords (fieldRule_isLocal hkey).takes fun s f h => ?_
  obtain ⟨word, rest, rfl, rfl, -, hrest⟩ := wordValue?_eq_some h
  rwa [List.drop_left]

section TakesWords

variable {kind : TokenKind} {rule : Rule}

/-- In the middle of a word nothing is found up to its end. -/
theorem sweep_middle (hstarts : ∀ s, rule false s = none) (place : Nat) {w : List Char}
    (hw : ∀ c ∈ w, isBlank c = false) (rest : List Char) :
    (sweep kind rule place 0 false (w ++ rest)).2 = w ++ (sweep kind rule (place + w.length) 0 false rest).2 := by
  induction w generalizing place with
  | nil => rfl
  | cons c w ih =>
    obtain ⟨hc, hw⟩ := List.forall_mem_cons.1 hw
    rw [List.cons_append, sweep, hstarts, hc, List.length_cons, ← Nat.add_assoc, Nat.add_right_comm, List.cons_append]
    exact congrArg (c :: ·) (ih (place + 1) hw)

/-- A word at whose front nothing is found is left as it is. -/
theorem sweep_passed (hr : rule.TakesWords) {w rest : List Char} (hw : IsSolid w) (hrest : StartsBlank rest)
    (hnone : rule true (w ++ rest) = none) :
    (sweep kind rule 0 0 true (w ++ rest)).2 = w ++ (sweep kind rule 0 0 true rest).2 := by
  obtain ⟨c, w, rfl⟩ := List.exists_cons_of_ne_nil hw.1
  obtain ⟨hc, hw⟩ := List.forall_mem_cons.1 hw.2
  rw [List.cons_append] at hnone ⊢
  rw [sweep, hnone, hc]
  simp only
  rw [sweep_middle hr.starts _ hw, sweep_of_startsBlank hr.takes _ _ hrest, (sweep_place kind rule _ 0 0 true rest).2,
    List.cons_append]

/-- What is taken at the front is blanked, and the sweep goes on after it as at the start of a text. -/
theorem sweep_taken_front (kind : TokenKind) (hr : rule.TakesWords) {s : List Char} {f : Found} (hf : rule true s = some f) :
    ∃ m rest, s = m ++ rest ∧ m ≠ [] ∧ StartsBlank rest ∧
      (sweep kind rule 0 0 true s).2 = List.replicate m.length ' ' ++ (sweep kind rule 0 0 true rest).2 := by
  obtain ⟨m, rest, rfl, hm, hedged⟩ := hr.takes _ _ _ hf
  have hne : m ≠ [] := List.length_pos_iff.1 hedged.isVisibleAt.1
  have hrest := hr.ends _ _ hf
  rw [← hm, List.drop_left] at hrest
  refine ⟨m, rest, rfl, hne, hrest, ?_⟩
  rw [sweep_found hne hf hm.symm, sweep_of_startsBlank hr.takes _ _ hrest, (sweep_place kind rule _ 0 0 true rest).2]

/-- What a rule that takes whole words leaves are words of the text, and it finds nothing at the
    front of them. -/
theorem of_mem_words_sweep (hr : rule.TakesWords) {s w : List Char} (h : w ∈ words (sweep kind rule 0 0 true s).2) :
    w ∈ words s ∧ rule.Passes w := by
  -- A date of several words takes more than the first word, so that the induction is on the length.
  induction hn : s.length using Nat.strongRecOn generalizing s with
  | ind n ih =>
    by_cases hblank : StartsBlank s
    · cases s with
      | nil => cases h
      | cons c s =>
        have hc : isBlank c = true := hblank c rfl
        rw [sweep_cons_of_isBlank hr.takes 0 hc, (sweep_place kind rule _ 0 0 true s).2, words_of_isBlank hc] at h
        rw [words_of_isBlank hc]
        exact ih s.length (by simp [← hn]) h rfl
    · cases hf : rule true s with
      | some f =>
        obtain ⟨m, rest, rfl, hne, hrest, hleft⟩ := sweep_taken_front kind hr hf
        rw [hleft, words_isBlankText_append (isBlankText_replicate _)] at h
        have hpos := List.length_pos_iff.2 hne
        rw [List.length_append] at hn
        obtain ⟨hmem, hpasses⟩ := ih rest.length (by omega) h rfl
        rw [words_append_of_startsBlank m hrest]
        exact ⟨List.mem_append_right _ hmem, hpasses⟩
      | none =>
        obtain ⟨v, rest, rfl, hv, hrest⟩ := exists_word_append hblank
        have hlater := startsBlank_blanked hrest (sweep kind rule 0 0 true rest).1
        rw [← sweep_eq_blanked hr.takes] at hlater
        rw [sweep_passed hr hv hrest hf, words_append_of_isSolid hv hlater] at h
        rw [words_append_of_isSolid hv hrest]
        have hpos := List.length_pos_iff.2 hv.1
        rw [List.length_append] at hn
        rcases List.mem_cons.1 h with rfl | h
        · exact ⟨List.mem_cons_self, rest, hrest, hf⟩
        · obtain ⟨hmem, hpasses⟩ := ih rest.length (by omega) h rfl
          exact ⟨List.mem_cons_of_mem _ hmem, hpasses⟩

/-- What several rules that take whole words leave are words of the text, and none of the rules
    finds anything at the front of them. -/
theorem of_mem_words_sweepAll {rs : List (TokenKind × Rule)} (hrs : ∀ r ∈ rs, r.2.TakesWords) {s w : List Char}
    (h : w ∈ words (sweepAll rs s).2) : w ∈ words s ∧ ∀ r ∈ rs, r.2.Passes w := by
  induction rs generalizing s with
  | nil => exact ⟨h, fun r hr => by cases hr⟩
  | cons r rs ih =>
    obtain ⟨kind, rule⟩ := r
    obtain ⟨hr, hrs⟩ := List.forall_mem_cons.1 hrs
    obtain ⟨hmem, hlater⟩ := ih hrs h
    obtain ⟨hmem, hpasses⟩ := of_mem_words_sweep hr hmem
    exact ⟨hmem, List.forall_mem_cons.2 ⟨hpasses, hlater⟩⟩

end TakesWords

/-! ## Texts without quotes, bars and dates -/

/-- A text that no rule reads across white space. -/
structure IsPlain (s : List Char) : Prop where
  quote : '"' ∉ s
  bar : '|' ∉ s
  date : ∀ w ∈ words s, dropCaseless? "date:".toList w = none

/-- The rules for quotes and choices, which look for their signs anywhere in the text. -/
def signRules : List (TokenKind × Rule) :=
  [(.excludedPhrase, excludedPhraseRule),
   (.phrase, phraseRule),
   (.choice, choiceRule)]

/-- The rules before the one for dates that read a word of the text. -/
def earlyRules : List (TokenKind × Rule) :=
  [(.object, fieldRule "object" wordValue?),
   (.text, fieldRule "text" wordValue?),
   (.type, fieldRule "type" wordValue?),
   (.format, fieldRule "format" wordValue?)]

/-- The rules after the one for dates. -/
def lateRules : List (TokenKind × Rule) :=
  [(.site, fieldRule "site" wordValue?),
   (.tag, fieldRule "tag" wordValue?),
   (.hashtag, hashtagRule),
   (.excluded, exclusionRule)]

/-- The rules that read one word each. -/
def wordRules : List (TokenKind × Rule) :=
  earlyRules ++ lateRules

theorem rules_eq (lexicon : Lexicon) :
    rules lexicon = signRules ++ (earlyRules ++
      (.date, fieldRule "date" (dateValue? (spacedPresets lexicon))) :: lateRules) := rfl

theorem isSolid_of_mem_earlyRules {r : TokenKind × Rule} (h : r ∈ earlyRules) :
    ∃ key : String, IsSolid key.toList ∧ r.2 = fieldRule key wordValue? := by
  simp only [earlyRules, List.mem_cons, List.not_mem_nil, or_false] at h
  rcases h with rfl | rfl | rfl | rfl
  · exact ⟨"object", by decide, rfl⟩
  · exact ⟨"text", by decide, rfl⟩
  · exact ⟨"type", by decide, rfl⟩
  · exact ⟨"format", by decide, rfl⟩

theorem wordRules_isLocal {r : TokenKind × Rule} (h : r ∈ wordRules) : r.2.IsLocal := by
  rcases List.mem_append.1 h with h | h
  · obtain ⟨key, hkey, hr⟩ := isSolid_of_mem_earlyRules h
    rw [hr]
    exact fieldRule_isLocal hkey
  · simp only [lateRules, List.mem_cons, List.not_mem_nil, or_false] at h
    rcases h with rfl | rfl | rfl | rfl
    · exact fieldRule_isLocal (by decide)
    · exact fieldRule_isLocal (by decide)
    · exact hashtagRule_isLocal
    · exact exclusionRule_isLocal

/-- A rule that finds nothing anywhere leaves the text as it is. -/
theorem sweep_eq_of_forall {kind : TokenKind} {rule : Rule} {s : List Char} (htakes : rule.Takes IsEdged)
    (h : ∀ pre rest, s = pre ++ rest → rule ((pre.getLast?.map isBlank).getD true) rest = none) :
    sweep kind rule 0 0 true s = ([], s) := by
  have hnil : (sweep kind rule 0 0 true s).1 = [] := by
    rw [List.eq_nil_iff_forall_not_mem]
    intro t ht
    obtain ⟨pre, rest, f, hs, -, hf, -⟩ := isFoundIn_of_mem_sweep ht
    rw [h pre rest hs] at hf
    cases hf
  refine Prod.ext hnil ?_
  rw [sweep_eq_blanked htakes, hnil, blanked_nil]

/-- A local rule that finds nothing in any word leaves the text as it is. -/
theorem sweep_eq_of_words {kind : TokenKind} {rule : Rule} (hr : rule.IsLocal) {s : List Char}
    (h : ∀ w ∈ words s, rule true w = none) : sweep kind rule 0 0 true s = ([], s) := by
  refine sweep_eq_of_forall hr.takes fun pre rest hs => ?_
  cases hstart : (pre.getLast?.map isBlank).getD true with
  | false => exact hr.starts rest
  | true =>
    by_cases hblank : StartsBlank rest
    · exact hr.takes.eq_none true hblank
    · obtain ⟨w, later, rfl, hw, hlater⟩ := exists_word_append hblank
      rw [hr.append true w later hw.1 hlater]
      refine h w ?_
      rw [hs, words_append_of_wordStart hstart, words_append_of_isSolid hw hlater]
      exact List.mem_append_right _ List.mem_cons_self

theorem sweepAll_eq_of_words {rs : List (TokenKind × Rule)} (hrs : ∀ r ∈ rs, r.2.IsLocal) {s : List Char}
    (h : ∀ r ∈ rs, ∀ w ∈ words s, r.2 true w = none) : sweepAll rs s = ([], s) := by
  induction rs with
  | nil => rfl
  | cons r rs ih =>
    obtain ⟨kind, rule⟩ := r
    obtain ⟨hr, hrs⟩ := List.forall_mem_cons.1 hrs
    obtain ⟨hnone, hlater⟩ := List.forall_mem_cons.1 h
    rw [sweepAll_cons, sweep_eq_of_words hr hnone, ih hrs hlater]
    rfl

theorem quotedRun?_eq_none {s : List Char} (h : '"' ∉ s) : quotedRun? s = none := by
  rw [Option.eq_none_iff_forall_not_mem]
  intro run hrun
  obtain ⟨rest, rfl, -⟩ := quotedRun?_eq_some hrun
  exact h List.mem_cons_self

theorem sweep_excludedPhrase {s : List Char} (h : '"' ∉ s) :
    sweep .excludedPhrase excludedPhraseRule 0 0 true s = ([], s) := by
  refine sweep_eq_of_forall excludedPhraseRule_takes fun pre rest hs => ?_
  unfold excludedPhraseRule
  split
  · rw [quotedRun?_eq_none, Option.map_none]
    intro hq
    exact h (hs ▸ List.mem_append_right _ (List.mem_cons_of_mem _ hq))
  · rfl

theorem sweep_phrase {s : List Char} (h : '"' ∉ s) : sweep .phrase phraseRule 0 0 true s = ([], s) := by
  refine sweep_eq_of_forall phraseRule_takes fun pre rest hs => ?_
  rw [phraseRule, quotedRun?_eq_none, Option.map_none]
  exact fun hq => h (hs ▸ List.mem_append_right _ hq)

theorem sweep_choice {s : List Char} (h : ¬ ['|', '|'] <:+: s) : sweep .choice choiceRule 0 0 true s = ([], s) := by
  refine sweep_eq_of_forall choiceRule_takes fun pre rest hs => ?_
  rw [Option.eq_none_iff_forall_not_mem]
  intro f hf
  obtain ⟨left, gap, gapAfter, right, later, rfl, -⟩ := choiceRule_eq_some hf
  exact h ⟨pre ++ (left ++ gap), gapAfter ++ (right ++ later), by simp [hs]⟩

theorem sweepAll_append_rules (rs rs' : List (TokenKind × Rule)) (s : List Char) :
    sweepAll (rs ++ rs') s =
      ((sweepAll rs s).1 ++ (sweepAll rs' (sweepAll rs s).2).1, (sweepAll rs' (sweepAll rs s).2).2) := by
  induction rs generalizing s with
  | nil => rfl
  | cons r rs ih =>
    obtain ⟨kind, rule⟩ := r
    rw [List.cons_append, sweepAll_cons, ih, sweepAll_cons, List.append_assoc]

/-- Without quotes and bars side by side only the later rules find anything. -/
theorem sweepAll_signRules_append {s : List Char} (hquote : '"' ∉ s) (hbars : ¬ ['|', '|'] <:+: s)
    (rs : List (TokenKind × Rule)) : sweepAll (signRules ++ rs) s = sweepAll rs s := by
  rw [sweepAll_append_rules, signRules, sweepAll_cons, sweep_excludedPhrase hquote, sweepAll_cons, sweep_phrase hquote,
    sweepAll_cons, sweep_choice hbars]
  rfl

/-- A date is read off the front of a word only. -/
theorem exists_mem_words_of_dateRule {value? : List Char → Option Found} {pre rest : List Char} {f : Found}
    (h : fieldRule "date" value? ((pre.getLast?.map isBlank).getD true) rest = some f) :
    ∃ w ∈ words (pre ++ rest), (dropCaseless? "date:".toList w).isSome := by
  obtain ⟨hstart, k, more, v, rfl, hk, -, -⟩ := fieldRule_eq_some h
  have hwords := words_append_of_wordStart hstart (k ++ ':' :: more)
  have hsolid : IsSolid (k ++ ':' :: more.takeWhile (!isBlank ·)) := by
    refine (IsSolid.of_sameLetters hk (by decide)).append (List.forall_mem_cons.2 ⟨by decide, ?_⟩)
    intro c hc
    simpa using forall_mem_takeWhile _ _ c hc
  have hfirst : words (k ++ ':' :: more) =
      (k ++ ':' :: more.takeWhile (!isBlank ·)) :: words (more.dropWhile (!isBlank ·)) := by
    rw [← words_append_of_isSolid hsolid (startsBlank_dropWhile more), List.append_assoc, List.cons_append,
      List.takeWhile_append_dropWhile]
  refine ⟨_, by rw [hwords, hfirst]; exact List.mem_append_right _ List.mem_cons_self, ?_⟩
  rw [Option.isSome_iff_exists]
  refine ⟨more.takeWhile (!isBlank ·), dropCaseless?_eq_some_iff.2 ⟨k ++ [':'], by simp, ?_⟩⟩
  exact List.rel_append hk (.cons (by decide) .nil)

theorem sweep_date {s : List Char} (presets : List (List Char))
    (h : ∀ w ∈ words s, dropCaseless? "date:".toList w = none) :
    sweep .date (fieldRule "date" (dateValue? presets)) 0 0 true s = ([], s) := by
  refine sweep_eq_of_forall (dateRule_takes presets) fun pre rest hs => ?_
  rw [Option.eq_none_iff_forall_not_mem]
  intro f hf
  obtain ⟨w, hw, hdate⟩ := exists_mem_words_of_dateRule hf
  rw [h w (hs ▸ hw)] at hdate
  cases hdate

/-- Without a colon no field is found. -/
theorem sweep_field_of_not_mem {kind : TokenKind} {key : String} {value? : List Char → Option Found} {s : List Char}
    (htakes : (fieldRule key value?).Takes IsEdged) (h : ':' ∉ s) :
    sweep kind (fieldRule key value?) 0 0 true s = ([], s) := by
  refine sweep_eq_of_forall htakes fun pre rest hs => ?_
  rw [Option.eq_none_iff_forall_not_mem]
  intro f hf
  obtain ⟨-, k, more, v, rfl, -⟩ := fieldRule_eq_some hf
  exact h (by simp [hs])

theorem earlyRules_takeWords {r : TokenKind × Rule} (h : r ∈ earlyRules) : r.2.TakesWords := by
  obtain ⟨key, hkey, hr⟩ := isSolid_of_mem_earlyRules h
  rw [hr]
  exact wordFieldRule_takesWords hkey

/-- Of a plain text, the rules that read one word each find all there is. -/
theorem sweepAll_of_isPlain (lexicon : Lexicon) {s : List Char} (hs : IsPlain s) :
    sweepAll (rules lexicon) s = sweepAll wordRules s := by
  have hdate : ∀ w ∈ words (sweepAll earlyRules s).2, dropCaseless? "date:".toList w = none := fun w hw =>
    hs.date w (of_mem_words_sweepAll (fun _ => earlyRules_takeWords) hw).1
  rw [rules_eq, sweepAll_signRules_append hs.quote fun h => hs.bar (h.subset List.mem_cons_self),
    sweepAll_append_rules, sweepAll_cons, sweep_date _ hdate, wordRules, sweepAll_append_rules]
  rfl

/-! ## Texts with one token in front -/

section Whole

variable {kind : TokenKind} {rule : Rule} {s : List Char} {f : Found}

/-- A rule that takes the front of a text and finds nothing after it blanks the front. -/
theorem sweep_front (hr : rule.Takes IsEdged) {rest : List Char} (hne : s ≠ []) (hf : rule true (s ++ rest) = some f)
    (hlen : f.length = s.length) (hrest : StartsBlank rest) (hnone : sweep kind rule 0 0 true rest = ([], rest)) :
    sweep kind rule 0 0 true (s ++ rest) =
      ([⟨kind, f.values.map fun v => String.ofList (lower v), 0, s.length⟩],
        List.replicate s.length ' ' ++ rest) := by
  obtain ⟨htokens, hleft⟩ := sweep_place kind rule (0 + s.length) 0 0 true rest
  rw [hnone, List.map_nil, List.map_eq_nil_iff] at htokens
  rw [hnone] at hleft
  rw [sweep_found hne hf hlen, sweep_of_startsBlank hr _ _ hrest, htokens, hleft, Nat.zero_add]

/-- After rules that find nothing and one that takes the front, rules that find nothing leave the
    rest for terms. -/
theorem tokensOf_front (lexicon : Lexicon) (before : List (TokenKind × Rule)) {after : List (TokenKind × Rule)}
    (hrules : rules lexicon = before ++ (kind, rule) :: after) {rest : List Char}
    (hbefore : sweepAll before (s ++ rest) = ([], s ++ rest)) (hne : s ≠ []) (hf : rule true (s ++ rest) = some f)
    (hlen : f.length = s.length) (hrest : StartsBlank rest) (hnone : sweep kind rule 0 0 true rest = ([], rest))
    (hafter : sweepAll after (List.replicate s.length ' ' ++ rest) = ([], List.replicate s.length ' ' ++ rest)) :
    tokensOf lexicon (s ++ rest) = ⟨kind, f.values.map fun v => String.ofList (lower v), 0, s.length⟩ ::
      termsOf (List.replicate s.length ' ' ++ rest) := by
  have htakes : rule.Takes IsEdged := (rules_take lexicon (r := (kind, rule)) (by simp [hrules])).1
  rw [tokensOf_eq, ← sweepAll_blanks fun r hr => (rules_take lexicon hr).1, hrules, sweepAll_append_rules, hbefore,
    sweepAll_cons, sweep_front htakes hne hf hlen hrest hnone, hafter]
  rfl

theorem termsOf_of_isBlankText {gap : List Char} (hgap : isBlankText gap = true) : termsOf gap = [] := by
  have hwords := map_fst_placedWords 0 gap
  rw [words_eq_nil_of_isBlankText hgap, List.map_eq_nil_iff] at hwords
  rw [termsOf, hwords]
  rfl

/-- After rules that find nothing and one that takes the whole text, nothing is left. -/
theorem tokensOf_whole (lexicon : Lexicon) (before : List (TokenKind × Rule)) {after : List (TokenKind × Rule)}
    (hrules : rules lexicon = before ++ (kind, rule) :: after) (hbefore : sweepAll before s = ([], s)) (hne : s ≠ [])
    (hf : rule true s = some f) (hlen : f.length = s.length) :
    tokensOf lexicon s = [⟨kind, f.values.map fun v => String.ofList (lower v), 0, s.length⟩] := by
  have hgap := isBlankText_replicate s.length
  have hafter : sweepAll after (List.replicate s.length ' ') = ([], List.replicate s.length ' ') :=
    sweepAll_of_isBlankText (fun r hr => (rules_take lexicon (by simp [hrules, hr])).1) hgap
  rw [← List.append_nil s] at hbefore hf
  rw [← List.append_nil (List.replicate _ _)] at hafter
  have hfront := tokensOf_front lexicon before hrules hbefore hne hf hlen startsBlank_nil rfl hafter
  rwa [List.append_nil, List.append_nil, termsOf_of_isBlankText hgap] at hfront

end Whole

/-! ## Tokens word by word -/

/-- What the tokens of a text say that only word rules read. -/
def wordContents (s : List Char) : List Content :=
  contents wordRules s ++ (words (sweepAll wordRules s).2).filterMap fun w => (termOf? w 0).map Token.content

theorem content_termOf? (w : List Char) (n : Nat) :
    (termOf? w n).map Token.content = (termOf? w 0).map Token.content := by
  simp only [termOf?]
  split <;> rfl

theorem contents_termsOf (s : List Char) :
    (termsOf s).map Token.content = (words s).filterMap fun w => (termOf? w 0).map Token.content := by
  rw [termsOf, List.map_filterMap, ← map_fst_placedWords 0 s, List.filterMap_map]
  exact List.filterMap_congr fun a _ => content_termOf? a.1 a.2

theorem wordContents_append (a : List Char) {rest : List Char} (hrest : StartsBlank rest) :
    (wordContents (a ++ rest)).Perm (wordContents a ++ wordContents rest) := by
  obtain ⟨hperm, hleft⟩ := sweepAll_append (fun _ => wordRules_isLocal) a hrest
  have hblank : StartsBlank (sweepAll wordRules rest).2 := by
    rw [sweepAll_blanks fun r hr => (wordRules_isLocal hr).takes]
    exact startsBlank_blanked hrest _
  unfold wordContents
  rw [hleft, words_append_of_startsBlank _ hblank, List.filterMap_append, List.append_assoc]
  refine (hperm.append_right _).trans ?_
  rw [List.append_assoc]
  exact List.Perm.append_left _ (List.perm_append_comm_assoc _ _ _)

theorem wordContents_cons_of_isBlank {c : Char} (hc : isBlank c = true) (s : List Char) :
    wordContents (c :: s) = wordContents s := by
  obtain ⟨hcontents, hleft⟩ := sweepAll_cons_of_isBlank (fun _ => wordRules_isLocal) hc s
  rw [wordContents, hcontents, hleft, words_of_isBlank hc, wordContents]

theorem wordContents_perm (s : List Char) : (wordContents s).Perm ((words s).flatMap wordContents) := by
  induction s using text_induction with
  | nil => exact .refl _
  | blank c s hc ih => rwa [wordContents_cons_of_isBlank hc, words_of_isBlank hc]
  | word w rest hw hrest ih =>
    rw [words_append_of_isSolid hw hrest, List.flatMap_cons]
    exact (wordContents_append w hrest).trans (ih.append_left _)

/-- The tokens of a plain text say what those of its words say, each read alone. -/
theorem contents_tokensOf (lexicon : Lexicon) {s : List Char} (hs : IsPlain s) :
    ((tokensOf lexicon s).map Token.content).Perm ((words s).flatMap wordContents) := by
  rw [tokensOf_eq, ← sweepAll_blanks fun r hr => (rules_take lexicon hr).1, sweepAll_of_isPlain lexicon hs,
    List.map_append, contents_termsOf]
  exact wordContents_perm s

end SearchBox.Query

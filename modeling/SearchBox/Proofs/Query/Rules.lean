import SearchBox.Proofs.Text.Words
import SearchBox.Query.Lexer

/-!
  SearchBox.Proofs.Query.Rules — what each rule of the lexer finds, as the shape of the text it
  takes off the front. From the shapes: what a rule takes is visible at both ends, and only
  quoted phrases, choices and dates take white space along (`rules_take`).
-/

namespace SearchBox.Query

open SearchBox.Text

/-! ## The front of a text -/

theorem drop_length_takeWhile (p : Char → Bool) (s : List Char) :
    s.drop (s.takeWhile p).length = s.dropWhile p := by
  induction s with
  | nil => rfl
  | cons c rest ih => cases h : p c <;> simp [h, ih]

/-- A text is the run of characters with a property and what follows it. -/
theorem eq_takeWhile_append_drop (p : Char → Bool) (s : List Char) :
    s = s.takeWhile p ++ s.drop (s.takeWhile p).length := by
  rw [drop_length_takeWhile, List.takeWhile_append_dropWhile]

/-- A run ends where the property does. -/
theorem exists_eq_takeWhile_append (p : Char → Bool) (s : List Char) :
    ∃ rest, s = s.takeWhile p ++ rest ∧ ∀ c ∈ rest.head?, p c = false := by
  refine ⟨s.dropWhile p, List.takeWhile_append_dropWhile.symm, fun c hc => ?_⟩
  have hnot := List.head?_dropWhile_not p s
  rw [Option.mem_def.1 hc] at hnot
  simpa using hnot

theorem forall_mem_takeWhile (p : Char → Bool) (s : List Char) : ∀ c ∈ s.takeWhile p, p c = true :=
  List.all_eq_true.1 List.all_takeWhile

theorem quotedRun?_eq_some {s run : List Char} (h : quotedRun? s = some run) :
    ∃ rest, s = '"' :: (run ++ '"' :: rest) ∧ run ≠ [] ∧ ∀ c ∈ run, isQuote c = false := by
  unfold quotedRun? at h
  split at h
  · rename_i rest
    simp only at h
    split at h
    · cases h
    · rename_i hne
      simp only [Option.some.injEq] at h
      subst h
      have hsplit := eq_takeWhile_append_drop (!isQuote ·) rest
      simp only [Bool.or_eq_true, List.isEmpty_iff, decide_eq_true_eq, not_or] at hne
      cases hafter : rest.drop (rest.takeWhile (!isQuote ·)).length with
      | nil =>
        rw [hafter, List.append_nil] at hsplit
        exact absurd (congrArg List.length hsplit) hne.2
      | cons c later =>
        have hc : isQuote c = true := by
          have := List.head?_dropWhile_not (!isQuote ·) rest
          rw [← drop_length_takeWhile, hafter] at this
          simpa using this
        have hq : c = '"' := by simpa [isQuote] using hc
        refine ⟨later, ?_, hne.1, fun c hc => by simpa using forall_mem_takeWhile _ _ c hc⟩
        rw [← hq, ← hafter, ← hsplit]
  · cases h

theorem quotedRun?_of_not_mem {w : List Char} (hne : w ≠ []) (hq : '"' ∉ w) (rest : List Char) :
    quotedRun? ('"' :: (w ++ '"' :: rest)) = some w := by
  have hrun : (w ++ '"' :: rest).takeWhile (!isQuote ·) = w := by
    refine takeWhile_run (fun c hc => ?_) fun c hc => by cases hc; rfl
    have hc' : c ≠ '"' := fun h => hq (h ▸ hc)
    simp [isQuote, hc']
  simp [quotedRun?, hrun, hne]

theorem wordValue?_eq_some {s : List Char} {f : Found} (h : wordValue? s = some f) :
    ∃ word rest, s = word ++ rest ∧ f = ⟨[word], word.length⟩ ∧ IsSolid word ∧ StartsBlank rest := by
  simp only [wordValue?] at h
  split at h
  · cases h
  · rename_i hne
    simp only [Option.some.injEq] at h
    obtain ⟨rest, hs, hend⟩ := exists_eq_takeWhile_append (!isBlank ·) s
    refine ⟨_, rest, hs, h.symm, ⟨by simpa using hne, fun c hc => ?_⟩, fun c hc => by simpa using hend c hc⟩
    simpa using forall_mem_takeWhile _ _ c hc

theorem wordValue?_of_isSolid {w rest : List Char} (hw : IsSolid w) (hrest : StartsBlank rest) :
    wordValue? (w ++ rest) = some ⟨[w], w.length⟩ := by
  have hword : (w ++ rest).takeWhile (!isBlank ·) = w :=
    takeWhile_run (fun c hc => by simp [hw.2 c hc]) fun c hc => by simp [hrest c hc]
  rw [wordValue?, hword, if_neg (by simpa using hw.1)]

/-- Words in any case with white space between each two. -/
inductive SpacedAs : List (List Char) → List Char → Prop where
  | nil : SpacedAs [] []
  | one {w m : List Char} : List.Forall₂ (fun a b => sameLetter a b) w m → SpacedAs [w] m
  | cons {w k gap v m : List Char} {ws : List (List Char)} : List.Forall₂ (fun a b => sameLetter a b) w k →
      gap ≠ [] → (∀ c ∈ gap, isBlank c = true) → SpacedAs (v :: ws) m → SpacedAs (w :: v :: ws) (k ++ gap ++ m)

theorem spacedWords?_eq_some {ws : List (List Char)} {s : List Char} {n : Nat} (h : spacedWords? ws s = some n) :
    ∃ m rest, s = m ++ rest ∧ m.length = n ∧ SpacedAs ws m := by
  fun_induction spacedWords? ws s generalizing n with
  | case1 s =>
    cases h
    exact ⟨[], s, rfl, rfl, .nil⟩
  | case2 s w =>
    obtain ⟨rest, hrest, rfl⟩ := Option.map_eq_some_iff.1 h
    obtain ⟨k, rfl, hk⟩ := dropCaseless?_eq_some_iff.1 hrest
    exact ⟨k, rest, rfl, hk.length_eq.symm, .one hk⟩
  | case3 => cases h
  | case4 => cases h
  | case5 w ws s hws rest hrest gap hgap =>
    rename_i ih
    obtain ⟨n', hn', rfl⟩ := Option.map_eq_some_iff.1 h
    obtain ⟨k, rfl, hk⟩ := dropCaseless?_eq_some_iff.1 hrest
    obtain ⟨m, later, hm, rfl, hws'⟩ := ih hn'
    cases ws with
    | nil => exact absurd rfl hws
    | cons v ws =>
      refine ⟨k ++ gap ++ m, later, ?_, ?_, .cons hk (by simpa using hgap) (forall_mem_takeWhile _ _) hws'⟩
      · rw [List.append_assoc, List.append_assoc, ← hm, ← eq_takeWhile_append_drop]
      · rw [List.length_append, List.length_append, hk.length_eq]

theorem presetValue?_eq_some {preset s : List Char} {f : Found} (h : presetValue? preset s = some f) :
    ∃ m rest, s = m ++ rest ∧ f = ⟨[m], m.length⟩ ∧ SpacedAs (words preset) m ∧ atWordEnd rest = true := by
  unfold presetValue? at h
  split at h
  · rename_i n hn
    split at h
    · rename_i hend
      obtain ⟨m, rest, rfl, rfl, hm⟩ := spacedWords?_eq_some hn
      cases h
      exact ⟨m, rest, rfl, by simp, hm, by simpa using hend⟩
    · cases h
  · cases h

theorem choiceRule_eq_some {ws : Bool} {s : List Char} {f : Found} (h : choiceRule ws s = some f) :
    ∃ left gap gapAfter right rest, s = left ++ (gap ++ '|' :: '|' :: (gapAfter ++ (right ++ rest))) ∧
      f = ⟨[left, right], left.length + gap.length + 2 + gapAfter.length + right.length⟩ ∧
      left ≠ [] ∧ right ≠ [] ∧ (∀ c ∈ left ++ right, isChoiceChar c = true) ∧
      (∀ c ∈ gap ++ gapAfter, isBlank c = true) ∧ ∀ c ∈ rest.head?, isChoiceChar c = false := by
  simp only [choiceRule] at h
  split at h
  · rename_i c left' rest hleft hbar
    split at h
    · cases h
    · rename_i hright
      cases h
      obtain ⟨later, hlater, hend⟩ :=
        exists_eq_takeWhile_append isChoiceChar (rest.drop (rest.takeWhile isBlank).length)
      refine ⟨s.takeWhile isChoiceChar, (s.drop (s.takeWhile isChoiceChar).length).takeWhile isBlank,
        rest.takeWhile isBlank, (rest.drop (rest.takeWhile isBlank).length).takeWhile isChoiceChar, later, ?_, rfl,
        by simp [hleft], by simpa using hright, ?_, ?_, hend⟩
      · rw [← hlater, ← eq_takeWhile_append_drop, ← hbar, ← List.drop_drop, ← eq_takeWhile_append_drop,
          ← eq_takeWhile_append_drop]
      · exact fun c hc => (List.mem_append.1 hc).elim (forall_mem_takeWhile _ _ c) (forall_mem_takeWhile _ _ c)
      · exact fun c hc => (List.mem_append.1 hc).elim (forall_mem_takeWhile _ _ c) (forall_mem_takeWhile _ _ c)
  · cases h

theorem isBlank_of_isChoiceChar {c : Char} (h : isChoiceChar c = true) : isBlank c = false := by
  simp only [isChoiceChar, Bool.and_eq_true, Bool.not_eq_true'] at h
  exact h.1

/-- Two words with bars and any white space between them are a choice. -/
theorem choiceRule_of_parts (ws : Bool) {left gap gapAfter right rest : List Char} (hleft : left ≠ [])
    (hright : right ≠ []) (hchars : ∀ c ∈ left ++ right, isChoiceChar c = true)
    (hgaps : ∀ c ∈ gap ++ gapAfter, isBlank c = true) (hrest : ∀ c ∈ rest.head?, isChoiceChar c = false) :
    choiceRule ws (left ++ (gap ++ '|' :: '|' :: (gapAfter ++ (right ++ rest)))) =
      some ⟨[left, right], left.length + gap.length + 2 + gapAfter.length + right.length⟩ := by
  obtain ⟨hl, hr⟩ := List.forall_mem_append.1 hchars
  obtain ⟨hgap, hgapAfter⟩ := List.forall_mem_append.1 hgaps
  have hbar : isBlank '|' = false := by decide
  have hleftRun : (left ++ (gap ++ '|' :: '|' :: (gapAfter ++ (right ++ rest)))).takeWhile isChoiceChar = left := by
    refine takeWhile_run hl fun c hc => ?_
    cases gap with
    | nil => cases hc; decide
    | cons d gap =>
      cases hc
      have hd := hgap c List.mem_cons_self
      simp [isChoiceChar, hd]
  have hgapRun : (gap ++ '|' :: '|' :: (gapAfter ++ (right ++ rest))).takeWhile isBlank = gap :=
    takeWhile_run hgap fun c hc => by cases hc; exact hbar
  have hgapAfterRun : (gapAfter ++ (right ++ rest)).takeWhile isBlank = gapAfter := by
    refine takeWhile_run hgapAfter fun c hc => ?_
    rw [List.head?_append_of_ne_nil _ hright] at hc
    exact isBlank_of_isChoiceChar (hr c (List.mem_of_mem_head? hc))
  obtain ⟨c, left', rfl⟩ := List.exists_cons_of_ne_nil hleft
  simp only [choiceRule, hleftRun, List.drop_left, hgapRun, ← List.drop_drop, hgapAfterRun, takeWhile_run hr hrest]
  rw [if_neg (by simpa using hright)]

theorem fieldRule_eq_some {key : String} {value? : List Char → Option Found} {ws : Bool} {s : List Char} {f : Found}
    (h : fieldRule key value? ws s = some f) : ws = true ∧ ∃ k rest v, s = k ++ ':' :: rest ∧
      List.Forall₂ (fun a b => sameLetter a b) key.toList k ∧ value? rest = some v ∧
      f = ⟨v.values, k.length + 1 + v.length⟩ := by
  unfold fieldRule at h
  split at h
  · rename_i hws
    refine ⟨hws, ?_⟩
    split at h
    · rename_i rest hrest
      obtain ⟨v, hv, rfl⟩ := Option.map_eq_some_iff.1 h
      obtain ⟨k, rfl, hk⟩ := dropCaseless?_eq_some_iff.1 hrest
      exact ⟨k, rest, v, rfl, hk, hv, by rw [hk.length_eq]⟩
    · cases h
  · cases h

theorem hashtagRule_eq_some {ws : Bool} {s : List Char} {f : Found} (h : hashtagRule ws s = some f) :
    ws = true ∧ ∃ c name rest, s = '#' :: c :: (name ++ rest) ∧ f = ⟨[c :: name], name.length + 2⟩ ∧
      isWordChar c = true ∧ (∀ d ∈ name, (isWordChar d || d = '-') = true) ∧
      ∀ d ∈ rest.head?, (isWordChar d || d = '-') = false := by
  unfold hashtagRule at h
  split at h
  · rename_i c rest
    split at h
    · rename_i hc
      cases h
      obtain ⟨later, hlater, hend⟩ := exists_eq_takeWhile_append (fun d => isWordChar d || d = '-') rest
      exact ⟨rfl, c, _, later, by rw [← hlater], rfl, hc, forall_mem_takeWhile _ _, hend⟩
    · cases h
  · cases h

theorem hashtagRule_of_parts {c : Char} {name rest : List Char} (hc : isWordChar c = true)
    (hname : ∀ d ∈ name, (isWordChar d || d = '-') = true) (hrest : ∀ d ∈ rest.head?, (isWordChar d || d = '-') = false) :
    hashtagRule true ('#' :: c :: (name ++ rest)) = some ⟨[c :: name], name.length + 2⟩ := by
  rw [hashtagRule, if_pos hc, takeWhile_run hname hrest]
  rfl

theorem exclusionRule_eq_some {ws : Bool} {s : List Char} {f : Found} (h : exclusionRule ws s = some f) :
    ws = true ∧ ∃ c word rest, s = '-' :: c :: (word ++ rest) ∧ f = ⟨[c :: word], word.length + 2⟩ ∧ c ≠ '-' ∧
      (∀ d ∈ c :: word, isBlank d = false) ∧ StartsBlank rest := by
  unfold exclusionRule at h
  split at h
  · rename_i c rest
    split at h
    · cases h
    · rename_i hc
      cases h
      simp only [Bool.or_eq_true, decide_eq_true_eq, not_or, Bool.not_eq_true] at hc
      obtain ⟨later, hlater, hend⟩ := exists_eq_takeWhile_append (!isBlank ·) rest
      refine ⟨rfl, c, _, later, by rw [← hlater], rfl, hc.2, ?_, fun d hd => by simpa using hend d hd⟩
      rw [List.forall_mem_cons]
      exact ⟨hc.1, fun d hd => by simpa using forall_mem_takeWhile _ _ d hd⟩
  · cases h

theorem exclusionRule_of_parts {c : Char} {word rest : List Char} (hc : c ≠ '-')
    (hvisible : ∀ d ∈ c :: word, isBlank d = false) (hrest : StartsBlank rest) :
    exclusionRule true ('-' :: c :: (word ++ rest)) = some ⟨[c :: word], word.length + 2⟩ := by
  obtain ⟨hcv, hword⟩ := List.forall_mem_cons.1 hvisible
  have hrun : (word ++ rest).takeWhile (!isBlank ·) = word :=
    takeWhile_run (fun d hd => by simp [hword d hd]) fun d hd => by simp [hrest d hd]
  rw [exclusionRule, if_neg (by simp [hcv, hc]), hrun]
  rfl

/-! ## Ends and white space -/

theorem isEdged_of_spacedAs {ws : List (List Char)} {m : List Char} (h : SpacedAs ws m) (hne : ws ≠ [])
    (hws : ∀ w ∈ ws, IsSolid w) : IsEdged m := by
  induction h with
  | nil => exact absurd rfl hne
  | one hm => exact (IsSolid.of_sameLetters hm (hws _ (List.mem_singleton.2 rfl))).isEdged
  | @cons w k gap v m ws hk _ _ _ ih =>
    rw [List.append_assoc]
    exact (IsSolid.of_sameLetters hk (hws w List.mem_cons_self)).isEdged.join
      (ih (List.cons_ne_nil _ _) fun u hu => hws u (List.mem_cons_of_mem _ hu)) gap

/-- All that a rule takes has a property. -/
def Rule.Takes (r : Rule) (P : List Char → Prop) : Prop :=
  ∀ ws s f, r ws s = some f → ∃ m rest, s = m ++ rest ∧ m.length = f.length ∧ P m

theorem Rule.Takes.mono {r : Rule} {P Q : List Char → Prop} (h : r.Takes P) (hPQ : ∀ m, P m → Q m) : r.Takes Q := by
  intro ws s f hf
  obtain ⟨m, rest, hs, hm, hP⟩ := h ws s f hf
  exact ⟨m, rest, hs, hm, hPQ m hP⟩

theorem phraseRule_takes : Rule.Takes phraseRule IsEdged := by
  intro ws s f h
  obtain ⟨run, hrun, rfl⟩ := Option.map_eq_some_iff.1 h
  obtain ⟨rest, rfl, -, -⟩ := quotedRun?_eq_some hrun
  have hq : IsEdged ['"'] := IsSolid.isEdged (by decide)
  exact ⟨['"'] ++ (run ++ ['"']), rest, by simp, by simp, hq.join hq run⟩

theorem excludedPhraseRule_takes : Rule.Takes excludedPhraseRule IsEdged := by
  intro ws s f h
  unfold excludedPhraseRule at h
  split at h
  · obtain ⟨run, hrun, rfl⟩ := Option.map_eq_some_iff.1 h
    obtain ⟨rest, rfl, -, -⟩ := quotedRun?_eq_some hrun
    have hfirst : IsEdged ['-', '"'] := IsSolid.isEdged (by decide)
    have hq : IsEdged ['"'] := IsSolid.isEdged (by decide)
    exact ⟨['-', '"'] ++ (run ++ ['"']), rest, by simp, by simp, hfirst.join hq run⟩
  · cases h

theorem choiceRule_takes : Rule.Takes choiceRule IsEdged := by
  intro ws s f h
  obtain ⟨left, gap, gapAfter, right, rest, rfl, rfl, hleft, hright, hchars, -⟩ := choiceRule_eq_some h
  have hl : IsEdged left := IsSolid.isEdged ⟨hleft, fun c hc =>
    isBlank_of_isChoiceChar (hchars c (List.mem_append_left _ hc))⟩
  have hr : IsEdged right := IsSolid.isEdged ⟨hright, fun c hc =>
    isBlank_of_isChoiceChar (hchars c (List.mem_append_right _ hc))⟩
  refine ⟨left ++ ((gap ++ '|' :: '|' :: gapAfter) ++ right), rest, by simp, ?_, hl.join hr _⟩
  simp only [List.length_append, List.length_cons]
  omega

section Fields

variable {key : String} {value? : List Char → Option Found}

theorem fieldRule_takes_isEdged (hkey : IsSolid key.toList)
    (hvalue : ∀ s f, value? s = some f → ∃ v rest, s = v ++ rest ∧ v.length = f.length ∧ (v = [] ∨ IsEdged v)) :
    (fieldRule key value?).Takes IsEdged := by
  intro ws s f h
  obtain ⟨-, k, rest, v, rfl, hk, hv, rfl⟩ := fieldRule_eq_some h
  obtain ⟨m, later, rfl, hlen, hm⟩ := hvalue _ _ hv
  have hfront : IsSolid (k ++ [':']) := (IsSolid.of_sameLetters hk hkey).append (List.forall_mem_singleton.2 (by decide))
  refine ⟨k ++ [':'] ++ ([] ++ m), later, by simp, ?_, ?_⟩
  · simp only [List.length_append, List.length_singleton, List.length_nil, hlen]
    omega
  · rcases hm with rfl | hm
    · simpa using hfront.isEdged
    · exact hfront.isEdged.join hm []

theorem fieldRule_takes_isSolid (hkey : IsSolid key.toList) : (fieldRule key wordValue?).Takes IsSolid := by
  intro ws s f h
  obtain ⟨-, k, rest, v, rfl, hk, hv, rfl⟩ := fieldRule_eq_some h
  obtain ⟨word, later, rfl, rfl, hword, -⟩ := wordValue?_eq_some hv
  refine ⟨k ++ [':'] ++ word, later, by simp, by simp only [List.length_append, List.length_singleton], ?_⟩
  exact ((IsSolid.of_sameLetters hk hkey).append (List.forall_mem_singleton.2 (by decide))).append hword.2

end Fields

theorem dateValue?_eq_some {presets : List (List Char)} {s : List Char} {f : Found}
    (h : dateValue? presets s = some f) :
    (∃ preset ∈ presets, presetValue? preset s = some f) ∨ wordValue? s = some f := by
  unfold dateValue? at h
  split at h
  · rename_i found hfound
    cases h
    exact .inl (List.exists_of_findSome?_eq_some hfound)
  · exact .inr h

theorem dateRule_takes (presets : List (List Char)) : (fieldRule "date" (dateValue? presets)).Takes IsEdged := by
  refine fieldRule_takes_isEdged (by decide) fun s f h => ?_
  rcases dateValue?_eq_some h with ⟨preset, -, h⟩ | h
  · obtain ⟨m, rest, rfl, rfl, hm, -⟩ := presetValue?_eq_some h
    refine ⟨m, rest, rfl, rfl, ?_⟩
    cases hw : words preset with
    | nil =>
      rw [hw] at hm
      cases hm
      exact .inl rfl
    | cons w ws =>
      exact .inr (isEdged_of_spacedAs hm (by simp [hw]) fun u hu => of_mem_words hu)
  · obtain ⟨word, rest, rfl, rfl, hword, -⟩ := wordValue?_eq_some h
    exact ⟨word, rest, rfl, rfl, .inr (IsSolid.isEdged hword)⟩

theorem isBlank_of_isNameChar {c : Char} (h : (isWordChar c || c = '-') = true) : isBlank c = false := by
  simp only [Bool.or_eq_true, decide_eq_true_eq] at h
  rcases h with h | rfl
  · exact isBlank_eq_false_of_isWordChar h
  · decide

theorem hashtagRule_takes : Rule.Takes hashtagRule IsSolid := by
  intro ws s f h
  obtain ⟨-, c, name, rest, rfl, rfl, hc, hname, -⟩ := hashtagRule_eq_some h
  refine ⟨'#' :: c :: name, rest, rfl, rfl, by simp, List.forall_mem_cons.2 ⟨by decide, List.forall_mem_cons.2 ⟨?_, ?_⟩⟩⟩
  · exact isBlank_eq_false_of_isWordChar hc
  · exact fun d hd => isBlank_of_isNameChar (hname d hd)

theorem exclusionRule_takes : Rule.Takes exclusionRule IsSolid := by
  intro ws s f h
  obtain ⟨-, c, word, rest, rfl, rfl, -, hvis, -⟩ := exclusionRule_eq_some h
  exact ⟨'-' :: c :: word, rest, rfl, rfl, by simp, List.forall_mem_cons.2 ⟨by decide, hvis⟩⟩

/-- Kinds of tokens that may hold white space. -/
def TokenKind.isPorous : TokenKind → Bool
  | .excludedPhrase | .phrase | .choice | .date => true
  | _ => false

/-- What a rule takes is visible at both ends, and throughout unless its tokens may hold white
    space. -/
theorem rules_take (lexicon : Lexicon) {r : TokenKind × Rule} (hr : r ∈ rules lexicon) :
    r.2.Takes IsEdged ∧ (r.1.isPorous = false → r.2.Takes IsSolid) := by
  have solid : ∀ {r : Rule}, r.Takes IsSolid → ∀ k : TokenKind,
      r.Takes IsEdged ∧ (k.isPorous = false → r.Takes IsSolid) :=
    fun h _ => ⟨h.mono fun _ => IsSolid.isEdged, fun _ => h⟩
  simp only [rules, List.mem_cons, List.not_mem_nil, or_false] at hr
  rcases hr with rfl | rfl | rfl | rfl | rfl | rfl | rfl | rfl | rfl | rfl | rfl | rfl
  · exact ⟨excludedPhraseRule_takes, by simp [TokenKind.isPorous]⟩
  · exact ⟨phraseRule_takes, by simp [TokenKind.isPorous]⟩
  · exact ⟨choiceRule_takes, by simp [TokenKind.isPorous]⟩
  · exact solid (fieldRule_takes_isSolid (by decide)) _
  · exact solid (fieldRule_takes_isSolid (by decide)) _
  · exact solid (fieldRule_takes_isSolid (by decide)) _
  · exact solid (fieldRule_takes_isSolid (by decide)) _
  · exact ⟨dateRule_takes _, by simp [TokenKind.isPorous]⟩
  · exact solid (fieldRule_takes_isSolid (by decide)) _
  · exact solid (fieldRule_takes_isSolid (by decide)) _
  · exact solid hashtagRule_takes _
  · exact solid exclusionRule_takes _

end SearchBox.Query

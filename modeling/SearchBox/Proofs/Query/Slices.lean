import Mathlib.Data.List.Pairwise
import SearchBox.Proofs.Query.Presets

/-!
  SearchBox.Proofs.Query.Slices — which tokens stand in the query as they were read. What a rule
  takes off the front of a text it takes of just that much as well (`rules_areSelfContained`), so
  that a token is read off its own span of what the earlier rules have left (`reads_of_mem_sweep`).
  What they have left is not the query: their tokens are white space there, and phrases, choices
  and dates read over white space. With a token inside it, such a span of the query holds more to
  see than what was read (`ink_slice_blanked_lt`), and its rule does not read it with these values.
  Without one the span is the query's own (`tokenize_reads_slices`).
-/

namespace SearchBox.Query

open SearchBox.Text

/-! ## What a rule has taken -/

/-- A reader of values takes a piece of a text up to white space, or up to its end. -/
def TakesPiece (value? : List Char → Option Found) : Prop :=
  ∀ s f, value? s = some f → ∃ v rest, s = v ++ rest ∧ f = ⟨[v], v.length⟩ ∧ StartsBlank rest

theorem wordValue?_takesPiece : TakesPiece wordValue? := by
  intro s f h
  obtain ⟨word, rest, rfl, rfl, -, hrest⟩ := wordValue?_eq_some h
  exact ⟨word, rest, rfl, rfl, hrest⟩

theorem dateValue?_takesPiece (presets : List (List Char)) : TakesPiece (dateValue? presets) := by
  intro s f h
  rcases dateValue?_eq_some h with ⟨preset, -, h⟩ | h
  · obtain ⟨m, rest, rfl, rfl, -, hend⟩ := presetValue?_eq_some h
    exact ⟨m, rest, rfl, rfl, atWordEnd_iff.1 hend⟩
  · exact wordValue?_takesPiece s f h

section Taken

variable {ws : Bool} {m rest : List Char} {f : Found}

theorem TakesPiece.startsBlank {value? : List Char → Option Found} (hvalue : TakesPiece value?)
    (h : value? (m ++ rest) = some ⟨[m], m.length⟩) : StartsBlank rest := by
  obtain ⟨v, later, hs, hf, hlater⟩ := hvalue _ _ h
  obtain rfl : m = v := by simpa using congrArg Found.values hf
  rwa [List.append_cancel_left hs]

theorem phraseRule_taken (h : phraseRule ws (m ++ rest) = some f) (hlen : f.length = m.length) :
    ∃ run, m = '"' :: (run ++ ['"']) ∧ f = ⟨[run], run.length + 2⟩ ∧ run ≠ [] ∧ '"' ∉ run := by
  obtain ⟨run, hrun, rfl⟩ := Option.map_eq_some_iff.1 h
  obtain ⟨later, hs, hne, hq⟩ := quotedRun?_eq_some hrun
  obtain ⟨hm, -⟩ : m = '"' :: (run ++ ['"']) ∧ rest = later := List.append_inj (by simpa using hs) (by simp [← hlen])
  exact ⟨run, hm, rfl, hne, fun hmem => by simpa [isQuote] using hq _ hmem⟩

theorem excludedPhraseRule_taken (h : excludedPhraseRule ws (m ++ rest) = some f) (hlen : f.length = m.length) :
    ∃ run, m = '-' :: '"' :: (run ++ ['"']) ∧ f = ⟨[run], run.length + 3⟩ ∧ run ≠ [] ∧ '"' ∉ run := by
  unfold excludedPhraseRule at h
  split at h
  · rename_i s hs
    obtain ⟨run, hrun, rfl⟩ := Option.map_eq_some_iff.1 h
    obtain ⟨later, rfl, hne, hq⟩ := quotedRun?_eq_some hrun
    obtain ⟨hm, -⟩ : m = '-' :: '"' :: (run ++ ['"']) ∧ rest = later :=
      List.append_inj (by simpa using hs) (by simp [← hlen])
    exact ⟨run, hm, rfl, hne, fun hmem => by simpa [isQuote] using hq _ hmem⟩
  · cases h

theorem choiceRule_taken (h : choiceRule ws (m ++ rest) = some f) (hlen : f.length = m.length) :
    ∃ left gap gapAfter right, m = left ++ (gap ++ '|' :: '|' :: (gapAfter ++ right)) ∧
      f = ⟨[left, right], left.length + gap.length + 2 + gapAfter.length + right.length⟩ ∧
      left ≠ [] ∧ right ≠ [] ∧ (∀ c ∈ left ++ right, isChoiceChar c = true) ∧
      (∀ c ∈ gap ++ gapAfter, isBlank c = true) ∧ ∀ c ∈ rest.head?, isChoiceChar c = false := by
  obtain ⟨left, gap, gapAfter, right, later, hs, rfl, hleft, hright, hchars, hgaps, hend⟩ := choiceRule_eq_some h
  obtain ⟨hm, rfl⟩ : m = left ++ (gap ++ '|' :: '|' :: (gapAfter ++ right)) ∧ rest = later :=
    List.append_inj (by simpa using hs) (by simp [← hlen]; omega)
  exact ⟨left, gap, gapAfter, right, hm, rfl, hleft, hright, hchars, hgaps, hend⟩

theorem fieldRule_taken {key : String} {value? : List Char → Option Found} (hvalue : TakesPiece value?)
    (h : fieldRule key value? ws (m ++ rest) = some f) (hlen : f.length = m.length) :
    ∃ k v, m = k ++ ':' :: v ∧ f = ⟨[v], k.length + 1 + v.length⟩ ∧
      List.Forall₂ (fun a b => sameLetter a b) key.toList k ∧ value? (v ++ rest) = some ⟨[v], v.length⟩ := by
  obtain ⟨-, k, more, g, hs, hk, hg, rfl⟩ := fieldRule_eq_some h
  obtain ⟨v, later, rfl, rfl, -⟩ := hvalue more g hg
  obtain ⟨hm, rfl⟩ : m = k ++ ':' :: v ∧ rest = later := List.append_inj (by simpa using hs) (by simp [← hlen]; omega)
  exact ⟨k, v, hm, rfl, hk, hg⟩

theorem hashtagRule_taken (h : hashtagRule ws (m ++ rest) = some f) (hlen : f.length = m.length) :
    ∃ c name, m = '#' :: c :: name ∧ f = ⟨[c :: name], name.length + 2⟩ ∧ isWordChar c = true ∧
      (∀ d ∈ name, (isWordChar d || d = '-') = true) ∧ ∀ d ∈ rest.head?, (isWordChar d || d = '-') = false := by
  obtain ⟨-, c, name, later, hs, rfl, hc, hname, hend⟩ := hashtagRule_eq_some h
  obtain ⟨hm, rfl⟩ : m = '#' :: c :: name ∧ rest = later := List.append_inj (by simpa using hs) (by simp [← hlen])
  exact ⟨c, name, hm, rfl, hc, hname, hend⟩

theorem exclusionRule_taken (h : exclusionRule ws (m ++ rest) = some f) (hlen : f.length = m.length) :
    ∃ c word, m = '-' :: c :: word ∧ f = ⟨[c :: word], word.length + 2⟩ ∧ c ≠ '-' ∧
      (∀ d ∈ c :: word, isBlank d = false) ∧ StartsBlank rest := by
  obtain ⟨-, c, word, later, hs, rfl, hc, hvisible, hend⟩ := exclusionRule_eq_some h
  obtain ⟨hm, rfl⟩ : m = '-' :: c :: word ∧ rest = later := List.append_inj (by simpa using hs) (by simp [← hlen])
  exact ⟨c, word, hm, rfl, hc, hvisible, hend⟩

end Taken

/-! ## Rules on what they take -/

/-- What a rule takes off the front of a text it takes of that alone. -/
def Rule.IsSelfContained (r : Rule) : Prop :=
  ∀ ws m rest f, r ws (m ++ rest) = some f → f.length = m.length → r true m = some f

theorem phraseRule_isSelfContained : Rule.IsSelfContained phraseRule := by
  intro ws m rest f h hlen
  obtain ⟨run, rfl, rfl, hne, hnot⟩ := phraseRule_taken h hlen
  rw [phraseRule, quotedRun?_of_not_mem hne hnot []]
  rfl

theorem excludedPhraseRule_isSelfContained : Rule.IsSelfContained excludedPhraseRule := by
  intro ws m rest f h hlen
  obtain ⟨run, rfl, rfl, hne, hnot⟩ := excludedPhraseRule_taken h hlen
  rw [excludedPhraseRule, quotedRun?_of_not_mem hne hnot []]
  rfl

theorem choiceRule_isSelfContained : Rule.IsSelfContained choiceRule := by
  intro ws m rest f h hlen
  obtain ⟨left, gap, gapAfter, right, rfl, rfl, hleft, hright, hchars, hgaps, -⟩ := choiceRule_taken h hlen
  have hend : ∀ c ∈ ([] : List Char).head?, isChoiceChar c = false := by simp
  have hself := choiceRule_of_parts true hleft hright hchars hgaps hend
  rwa [List.append_nil] at hself

/-- What a reader of values takes off the front it takes of that alone. -/
def IsSelfContainedValue (value? : List Char → Option Found) : Prop :=
  ∀ v rest, value? (v ++ rest) = some ⟨[v], v.length⟩ → value? v = some ⟨[v], v.length⟩

theorem fieldRule_isSelfContained {key : String} {value? : List Char → Option Found} (hpiece : TakesPiece value?)
    (hvalue : IsSelfContainedValue value?) : (fieldRule key value?).IsSelfContained := by
  intro ws m rest f h hlen
  obtain ⟨k, v, rfl, rfl, hk, hv⟩ := fieldRule_taken hpiece h hlen
  have hdrop : dropCaseless? key.toList (k ++ ':' :: v) = some (':' :: v) := dropCaseless?_eq_some_iff.2 ⟨k, rfl, hk⟩
  rw [fieldRule, if_pos rfl, hdrop]
  simp only [hvalue v rest hv, Option.map_some, hk.length_eq]

theorem wordValue?_isSelfContained : IsSelfContainedValue wordValue? := by
  intro v rest h
  obtain ⟨word, later, -, hf, hword, -⟩ := wordValue?_eq_some h
  obtain rfl : v = word := by simpa using congrArg Found.values hf
  have hself := wordValue?_of_isSolid hword startsBlank_nil
  rwa [List.append_nil] at hself

/-- A preset that is found in a text is found where white space follows the text. -/
theorem presetValue?_append {preset v rest : List Char} {f : Found} (hrest : StartsBlank rest)
    (h : presetValue? preset v = some f) : presetValue? preset (v ++ rest) = some f := by
  obtain ⟨m, later, rfl, rfl, hm, hend⟩ := presetValue?_eq_some h
  rw [List.append_assoc]
  exact presetValue?_of_spacedAs hm ((atWordEnd_iff.1 hend).append hrest)

theorem presetValue?_isSelfContained (preset : List Char) : IsSelfContainedValue (presetValue? preset) := by
  intro v rest h
  obtain ⟨m, later, -, hf, hm, -⟩ := presetValue?_eq_some h
  obtain rfl : v = m := by simpa using congrArg Found.values hf
  have hself := presetValue?_of_spacedAs hm startsBlank_nil
  rwa [List.append_nil] at hself

theorem dateValue?_isSelfContained (presets : List (List Char)) : IsSelfContainedValue (dateValue? presets) := by
  intro v rest h
  -- White space follows the value, so that a preset in the value alone is found in the text as well.
  have hrest : StartsBlank rest := (dateValue?_takesPiece presets).startsBlank h
  have hnone : ∀ p, presetValue? p (v ++ rest) = none → presetValue? p v = none := by
    intro p hp
    rw [Option.eq_none_iff_forall_not_mem] at hp ⊢
    exact fun g hg => hp g (presetValue?_append hrest hg)
  unfold dateValue? at h ⊢
  split at h
  · rename_i found hfound
    cases h
    obtain ⟨before, p, after, rfl, hp, hbefore⟩ := List.findSome?_eq_some_iff.1 hfound
    have hself : (before ++ p :: after).findSome? (presetValue? · v) = some ⟨[v], v.length⟩ :=
      List.findSome?_eq_some_iff.2 ⟨before, p, after, rfl, presetValue?_isSelfContained p v rest hp,
        fun q hq => hnone q (hbefore q hq)⟩
    rw [hself]
  · rename_i hfound
    have hself : presets.findSome? (presetValue? · v) = none :=
      List.findSome?_eq_none_iff.2 fun p hp => hnone p (List.findSome?_eq_none_iff.1 hfound p hp)
    rw [hself]
    exact wordValue?_isSelfContained v rest h

theorem hashtagRule_isSelfContained : Rule.IsSelfContained hashtagRule := by
  intro ws m rest f h hlen
  obtain ⟨c, name, rfl, rfl, hc, hname, -⟩ := hashtagRule_taken h hlen
  have hend : ∀ d ∈ ([] : List Char).head?, (isWordChar d || d = '-') = false := by simp
  have hself := hashtagRule_of_parts hc hname hend
  rwa [List.append_nil] at hself

theorem exclusionRule_isSelfContained : Rule.IsSelfContained exclusionRule := by
  intro ws m rest f h hlen
  obtain ⟨c, word, rfl, rfl, hc, hvisible, -⟩ := exclusionRule_taken h hlen
  have hself := exclusionRule_of_parts hc hvisible startsBlank_nil
  rwa [List.append_nil] at hself

theorem rules_areSelfContained (lexicon : Lexicon) {r : TokenKind × Rule} (hr : r ∈ rules lexicon) :
    r.2.IsSelfContained := by
  have hfield : ∀ key : String, (fieldRule key wordValue?).IsSelfContained := fun _ =>
    fieldRule_isSelfContained wordValue?_takesPiece wordValue?_isSelfContained
  simp only [rules, List.mem_cons, List.not_mem_nil, or_false] at hr
  rcases hr with rfl | rfl | rfl | rfl | rfl | rfl | rfl | rfl | rfl | rfl | rfl | rfl
  · exact excludedPhraseRule_isSelfContained
  · exact phraseRule_isSelfContained
  · exact choiceRule_isSelfContained
  · exact hfield _
  · exact hfield _
  · exact hfield _
  · exact hfield _
  · exact fieldRule_isSelfContained (dateValue?_takesPiece _) (dateValue?_isSelfContained _)
  · exact hfield _
  · exact hfield _
  · exact hashtagRule_isSelfContained
  · exact exclusionRule_isSelfContained

/-! ## Spans -/

def Token.slice (t : Token) (s : List Char) : List Char :=
  (s.drop t.start).take (t.stop - t.start)

theorem Token.getElem?_slice (t : Token) (s : List Char) {i : Nat} (hi : t.start + i < t.stop) :
    (t.slice s)[i]? = s[t.start + i]? := by
  rw [Token.slice, List.getElem?_take, if_pos (by omega), List.getElem?_drop]

/-- A rule takes a text as a whole, and what it finds there are the values in lower case. -/
def Rule.Reads (r : Rule) (s : List Char) (values : List String) : Prop :=
  ∃ f, r true s = some f ∧ f.length = s.length ∧ f.values.map (fun v => String.ofList (lower v)) = values

/-- A token is read off its span alone. -/
theorem reads_of_mem_sweep {kind : TokenKind} {rule : Rule} (hedged : rule.Takes IsEdged)
    (hself : rule.IsSelfContained) {ws : Bool} {s : List Char} {t : Token}
    (h : t ∈ (sweep kind rule 0 0 ws s).1) : rule.Reads (t.slice s) t.values := by
  obtain ⟨pre, rest, f, rfl, -, hf, rfl⟩ := isFoundIn_of_mem_sweep h
  obtain ⟨m, later, rfl, hm, -⟩ := hedged _ _ _ hf
  have hslice : Token.slice ⟨kind, f.values.map fun v => String.ofList (lower v), 0 + pre.length,
      0 + pre.length + f.length⟩ (pre ++ (m ++ later)) = m := by
    simp [Token.slice, ← hm]
  rw [hslice]
  exact ⟨f, hself _ _ _ _ hf hm.symm, hm.symm, rfl⟩

/-- Each token is found by one of the rules in what those before it have left. -/
theorem exists_rule_of_mem_sweepAll {rs : List (TokenKind × Rule)} {s : List Char} {t : Token}
    (h : t ∈ (sweepAll rs s).1) : ∃ before kind rule after, rs = before ++ (kind, rule) :: after ∧
      t ∈ (sweep kind rule 0 0 true (sweepAll before s).2).1 := by
  induction rs generalizing s with
  | nil => cases h
  | cons r rs ih =>
    obtain ⟨kind, rule⟩ := r
    rw [sweepAll_cons] at h
    rcases List.mem_append.1 h with h | h
    · exact ⟨[], kind, rule, rs, rfl, h⟩
    · obtain ⟨before, k, r, after, rfl, ht⟩ := ih h
      exact ⟨(kind, rule) :: before, k, r, after, rfl, ht⟩

/-- Where no token reaches into a span, it is what it was. -/
theorem slice_blanked_of_isApart {ts : List Token} {t : Token} (h : ∀ a ∈ ts, a.IsApart t) (s : List Char) :
    t.slice (blanked ts s) = t.slice s := by
  refine take_drop_blanked (fun i hi hlt => ?_) s
  rw [Bool.eq_false_iff, Ne, isCovered_iff]
  rintro ⟨a, ha, hle, hstop⟩
  have := h a ha
  unfold Token.IsApart at this
  omega

/-! ## What there is to see -/

/-- The number of visible characters that a character becomes in lower case. -/
def inkOf (c : Char) : Nat :=
  if isBlank c then 0 else if c = 'İ' then 2 else 1

def ink : List Char → Nat
  | [] => 0
  | c :: s => inkOf c + ink s

@[simp] theorem ink_nil : ink [] = 0 := rfl

@[simp] theorem ink_cons (c : Char) (s : List Char) : ink (c :: s) = inkOf c + ink s := rfl

@[simp] theorem ink_append (a b : List Char) : ink (a ++ b) = ink a + ink b := by
  induction a with
  | nil => simp
  | cons c a ih => rw [List.cons_append, ink_cons, ink_cons, ih, Nat.add_assoc]

theorem ink_of_isBlankText {gap : List Char} (h : ∀ c ∈ gap, isBlank c = true) : ink gap = 0 := by
  induction gap with
  | nil => rfl
  | cons c gap ih =>
    obtain ⟨hc, hgap⟩ := List.forall_mem_cons.1 h
    simp [inkOf, hc, ih hgap]

theorem length_filter_lowerFrom (afterCased : Bool) (s : List Char) :
    ((lowerFrom afterCased s).filter (!isBlank ·)).length = ink s := by
  induction s generalizing afterCased with
  | nil => rfl
  | cons c s ih =>
    rw [lowerFrom, ink_cons]
    by_cases hsigma : c = 'Σ'
    · subst hsigma
      have hsmall : isBlank 'ς' = false ∧ isBlank 'σ' = false ∧ inkOf 'Σ' = 1 := by decide
      cases afterCased && !startsCased s <;> simp [ih, hsmall, Nat.add_comm]
    · by_cases hdotted : c = 'İ'
      · subst hdotted
        have hdot : isBlank 'i' = false ∧ isBlank '\u0307' = false ∧ inkOf 'İ' = 2 := by decide
        simp only [hsigma, if_false, if_true, List.filter_cons, hdot, Bool.not_false, List.length_cons, ih]
        omega
      · cases hc : isBlank c <;> simp [hsigma, hdotted, inkOf, isBlank_lowerChar, hc, ih, Nat.add_comm]

theorem ink_eq_of_lower_eq {v w : List Char} (h : lower v = lower w) : ink v = ink w := by
  rw [← length_filter_lowerFrom false v, ← length_filter_lowerFrom false w]
  exact congrArg (fun s => (s.filter (!isBlank ·)).length) h

theorem ink_flatten_eq_of_map_lower_eq {vs ws : List (List Char)}
    (h : vs.map (fun v => String.ofList (lower v)) = ws.map fun v => String.ofList (lower v)) :
    ink vs.flatten = ink ws.flatten := by
  rw [← List.forall₂_eq_eq_eq, List.forall₂_map_left_iff, List.forall₂_map_right_iff] at h
  induction h with
  | nil => rfl
  | cons hvw _ ih =>
    rw [List.flatten_cons, List.flatten_cons, ink_append, ink_append, ih,
      ink_eq_of_lower_eq (String.ofList_injective hvw)]

theorem ink_of_sameLetters {key k : List Char} (h : List.Forall₂ (fun a b => sameLetter a b) key k)
    (hkey : (key.all fun a => !isBlank a && !sameLetter a 'İ') = true) : ink k = key.length := by
  induction h with
  | nil => rfl
  | @cons a b key k hab _ ih =>
    simp only [List.all_cons, Bool.and_eq_true, Bool.not_eq_true'] at hkey
    obtain ⟨⟨hvisible, hdotted⟩, hkey⟩ := hkey
    have hb : inkOf b = 1 := by
      rw [inkOf, ← isBlank_eq_of_sameLetter hab, hvisible]
      rw [if_neg Bool.false_ne_true, if_neg fun he => by rw [he, hdotted] at hab; cases hab]
    rw [ink_cons, hb, ih hkey, List.length_cons, Nat.add_comm]

/-! ## What blanking takes away -/

/-- A text is another one with white space in place of some characters. -/
def IsFaded (m m' : List Char) : Prop :=
  List.Forall₂ (fun c d => c = d ∨ isBlank c = true) m m'

theorem isFaded_blanked (ts : List Token) (s : List Char) : IsFaded (blanked ts s) s := by
  refine List.forall₂_iff_get.2 ⟨length_blanked ts s, fun i h₁ h₂ => ?_⟩
  rw [List.get_eq_getElem, List.get_eq_getElem]
  simp only [blanked, List.getElem_mapIdx]
  split
  · exact .inr (by decide)
  · exact .inl rfl

theorem IsFaded.ink_le {m m' : List Char} (h : IsFaded m m') : ink m ≤ ink m' := by
  induction h with
  | nil => exact Nat.le_refl _
  | @cons c d m m' hcd _ ih =>
    rw [ink_cons, ink_cons]
    rcases hcd with rfl | hc
    · omega
    · simp only [inkOf, hc, if_true]
      omega

theorem IsFaded.ink_lt {m m' : List Char} (h : IsFaded m m') {i : Nat} (hvisible : IsVisibleAt m' i)
    (hblank : ¬ IsVisibleAt m i) : ink m < ink m' := by
  induction h generalizing i with
  | nil => exact absurd hvisible hblank
  | @cons c d m m' hcd hm ih =>
    rw [ink_cons, ink_cons]
    cases i with
    | zero =>
      obtain ⟨e, he, hd⟩ := hvisible
      cases he
      have hle := IsFaded.ink_le hm
      rcases hcd with rfl | hc
      · exact absurd ⟨c, rfl, hd⟩ hblank
      · have hpos : 0 < inkOf d := by
          rw [inkOf, hd, if_neg Bool.false_ne_true]
          split <;> omega
        simp only [inkOf, hc, if_true] at hpos ⊢
        omega
    | succ i =>
      have hlt := ih (i := i) hvisible hblank
      rcases hcd with rfl | hc
      · omega
      · simp only [inkOf, hc, if_true]
        omega

/-- With a token inside it, a span of the text has more ink than what is left of it. -/
theorem ink_slice_blanked_lt {ts : List Token} {s : List Char} {a t : Token} (ha : a ∈ ts) (hin : a.IsInside t)
    (hlt : a.start < a.stop) (hvisible : IsVisibleAt s a.start) : ink (t.slice (blanked ts s)) < ink (t.slice s) := by
  obtain ⟨hstart, hstop⟩ := hin
  have hplace : t.start + (a.start - t.start) = a.start := by omega
  have hget := fun u => Token.getElem?_slice t u (i := a.start - t.start) (by omega)
  rw [hplace] at hget
  have hfaded : IsFaded (t.slice (blanked ts s)) (t.slice s) :=
    List.forall₂_take _ (List.forall₂_drop _ (isFaded_blanked ts s))
  refine hfaded.ink_lt (i := a.start - t.start) ?_ ?_
  · obtain ⟨c, hc, hv⟩ := hvisible
    exact ⟨c, (hget s).trans hc, hv⟩
  · rintro ⟨c, hc, hv⟩
    have hshown : IsVisibleAt (blanked ts s) a.start := ⟨c, (hget _).symm.trans hc, hv⟩
    have hcovered : isCovered ts a.start = true := isCovered_iff.2 ⟨a, ha, Nat.le_refl _, hlt⟩
    rw [(isVisibleAt_blanked_iff.1 hshown).1] at hcovered
    cases hcovered

/-- What a rule takes beside its values has always the same ink. -/
def Rule.Weighs (r : Rule) (n : Nat) : Prop :=
  ∀ ws m rest f, r ws (m ++ rest) = some f → f.length = m.length → ink m = ink f.values.flatten + n

theorem phraseRule_weighs : Rule.Weighs phraseRule 2 := by
  intro ws m rest f h hlen
  obtain ⟨run, rfl, rfl, -⟩ := phraseRule_taken h hlen
  have hquote : inkOf '"' = 1 := by decide
  simp only [ink_cons, ink_append, hquote, ink_nil, List.flatten_cons, List.flatten_nil]
  omega

theorem choiceRule_weighs : Rule.Weighs choiceRule 2 := by
  intro ws m rest f h hlen
  obtain ⟨left, gap, gapAfter, right, rfl, rfl, -, -, -, hgaps, -⟩ := choiceRule_taken h hlen
  obtain ⟨hgap, hgapAfter⟩ := List.forall_mem_append.1 hgaps
  have hbar : inkOf '|' = 1 := by decide
  simp only [ink_append, ink_cons, hbar, ink_of_isBlankText hgap, ink_of_isBlankText hgapAfter, List.flatten_cons,
    List.flatten_nil, ink_nil]
  omega

theorem dateRule_weighs (presets : List (List Char)) : Rule.Weighs (fieldRule "date" (dateValue? presets)) 5 := by
  intro ws m rest f h hlen
  obtain ⟨k, v, rfl, rfl, hk, -⟩ := fieldRule_taken (dateValue?_takesPiece presets) h hlen
  have hcolon : inkOf ':' = 1 := by decide
  have hkey : ink k = 4 := ink_of_sameLetters hk (by decide)
  simp only [ink_append, ink_cons, hcolon, hkey, List.flatten_cons, List.flatten_nil, ink_nil]
  omega

/-- Of the rules that read over white space only the first one need not be weighed: no token stands
    before it. -/
theorem exists_weighs (lexicon : Lexicon) {r : TokenKind × Rule} (hr : r ∈ rules lexicon)
    (hk : r.1 ∈ [TokenKind.phrase, .choice, .date]) : ∃ n, r.2.Weighs n := by
  simp only [rules, List.mem_cons, List.not_mem_nil, or_false] at hr
  rcases hr with rfl | rfl | rfl | rfl | rfl | rfl | rfl | rfl | rfl | rfl | rfl | rfl <;> simp at hk
  · exact ⟨2, phraseRule_weighs⟩
  · exact ⟨2, choiceRule_weighs⟩
  · exact ⟨5, dateRule_weighs _⟩

/-- Texts that are read with the same values have the same ink. -/
theorem Rule.Weighs.ink_eq {r : Rule} {n : Nat} (h : r.Weighs n) {m m' : List Char} {values : List String}
    (hm : r.Reads m values) (hm' : r.Reads m' values) : ink m = ink m' := by
  obtain ⟨f, hf, hlen, hvalues⟩ := hm
  obtain ⟨f', hf', hlen', hvalues'⟩ := hm'
  rw [h true m [] f (by rwa [List.append_nil]) hlen, h true m' [] f' (by rwa [List.append_nil]) hlen',
    ink_flatten_eq_of_map_lower_eq (hvalues.trans hvalues'.symm)]

/-! ## The tokens of a query -/

/-- No token lies inside this one. -/
def Token.HoldsNone (t : Token) (ts : List Token) : Prop :=
  ∀ a ∈ ts, ¬ a.IsInside t

theorem Token.not_isInside_of_isApart {a t : Token} (h : a.IsApart t) (hlt : a.start < a.stop) : ¬ a.IsInside t := by
  unfold Token.IsApart at h
  unfold Token.IsInside
  omega

instance : Std.Symm Token.IsApart := ⟨fun _ _ => Or.symm⟩

section Origin

variable {lexicon : Lexicon} {s : List Char} {t : Token} {before after : List (TokenKind × Rule)} {rule : Rule}

theorem exists_rule_of_mem_tokensOf (ht : t ∈ tokensOf lexicon s) (hk : t.kind ≠ .term) :
    ∃ before rule after, rules lexicon = before ++ (t.kind, rule) :: after ∧
      t ∈ (sweep t.kind rule 0 0 true (sweepAll before s).2).1 := by
  rw [tokensOf_eq] at ht
  rcases List.mem_append.1 ht with ht | ht
  · obtain ⟨before, kind, rule, after, hrules, hmem⟩ := exists_rule_of_mem_sweepAll ht
    rw [kind_of_mem_sweep hmem]
    exact ⟨before, rule, after, hrules, hmem⟩
  · obtain ⟨w, hterm, -⟩ := exists_of_mem_termsOf ht
    exact absurd (termOf?_eq_some hterm).1 hk

variable (hrules : rules lexicon = before ++ (t.kind, rule) :: after)
  (ht : t ∈ (sweep t.kind rule 0 0 true (sweepAll before s).2).1)
include hrules

theorem takes_of_rules_eq : ∀ r ∈ before ++ (t.kind, rule) :: after,
    r.2.Takes IsEdged ∧ (r.1.isPorous = false → r.2.Takes IsSolid) := fun _ hr => rules_take lexicon (hrules ▸ hr)

theorem sweepAll_before : (sweepAll before s).2 = blanked (sweepAll before s).1 s :=
  sweepAll_blanks (fun _ hr => (takes_of_rules_eq hrules _ (List.mem_append_left _ hr)).1) s

include ht

/-- Only tokens of earlier rules lie inside a token. -/
theorem mem_before_of_isInside {a : Token} (ha : a ∈ tokensOf lexicon s) (hin : a.IsInside t) :
    a ∈ (sweepAll before s).1 := by
  have htakes := takes_of_rules_eq hrules
  have hedged := (htakes _ (List.mem_append_right _ List.mem_cons_self)).1
  have hlt := (isWithin_of_mem_sweep hedged ht).lt
  -- What lies in a text where `t` is blanked does not lie inside `t`.
  have hlater : ∀ {ts : List Token} {s' : List Char}, t ∈ ts → ¬ a.IsWithin (blanked ts s') := by
    intro ts s' hmem hwithin
    have := hwithin.lt
    obtain ⟨hstart, hstop⟩ := hin
    rcases Token.isApart_or_isInside hmem hlt hwithin with h | ⟨⟨h, -⟩, -⟩
    · unfold Token.IsApart at h
      omega
    · omega
  rw [tokensOf_eq, hrules, sweepAll_append_rules, sweepAll_cons] at ha
  simp only [List.mem_append] at ha
  rcases ha with (ha | ha | ha) | ha
  · exact ha
  · have hapart := ((pairwise_sweep hedged 0 0 true _).imp (S := Token.IsApart) .inl).forall ha ht
    by_cases hat : a = t
    · exact absurd (hat ▸ hin.1) (Nat.lt_irrefl _)
    · exact absurd hin (Token.not_isInside_of_isApart (hapart hat) (isWithin_of_mem_sweep hedged ha).lt)
  · rw [sweep_eq_blanked hedged] at ha
    have hwithin := isWithin_of_mem_sweepAll (fun r hr => htakes r (by simp [hr])) ha
    exact absurd hwithin.1 (hlater ht)
  · refine absurd (isWithin_of_mem_termsOf ha).1 (hlater ?_)
    simp [ht]

/-- A token inside which no other lies is read off the text itself. -/
theorem slice_of_holdsNone (hnone : t.HoldsNone (tokensOf lexicon s)) :
    t.slice (sweepAll before s).2 = t.slice s := by
  have hedged := (takes_of_rules_eq hrules _ (List.mem_append_right _ List.mem_cons_self)).1
  rw [sweepAll_before hrules] at ht ⊢
  refine slice_blanked_of_isApart (fun a ha => ?_) s
  have hmem : a ∈ tokensOf lexicon s := by
    rw [tokensOf_eq, hrules, sweepAll_append_rules]
    simp [ha]
  have hlt := (isWithin_of_mem_sweepAll
    (fun r hr => takes_of_rules_eq hrules r (List.mem_append_left _ hr)) ha).1.lt
  exact (Token.isApart_or_isInside ha hlt (isWithin_of_mem_sweep hedged ht)).resolve_right
    fun h => hnone a hmem h.1

theorem holdsNone_of_kind (hk : t.kind ∉ [TokenKind.phrase, .choice, .date]) :
    t.HoldsNone (tokensOf lexicon s) := by
  intro a ha hin
  have hbefore := mem_before_of_isInside hrules ht ha hin
  have hr := takes_of_rules_eq hrules _ (List.mem_append_right _ List.mem_cons_self)
  by_cases hporous : t.kind.isPorous = true
  · -- A rule for excluded phrases has no rule before it.
    by_cases hfirst : t.kind = .excludedPhrase
    · cases before with
      | nil => cases hbefore
      | cons b before =>
        refine kind_ne_of_mem_tail_rules lexicon (r := (t.kind, rule)) ?_ hfirst
        rw [hrules]
        simp
    · exact hk (mem_of_isPorous hporous hfirst)
  · have hsolid := isSolidIn_of_mem_sweep (hr.2 (Bool.eq_false_iff.2 hporous)) ht
    have hwithin := isWithin_of_mem_sweep hr.1 ht
    rw [sweepAll_before hrules] at hsolid hwithin
    have hlt := (isWithin_of_mem_sweepAll
      (fun r hr => takes_of_rules_eq hrules r (List.mem_append_left _ hr)) hbefore).1.lt
    rcases Token.isApart_or_isInside hbefore hlt hwithin with h | ⟨-, hnot⟩
    · exact Token.not_isInside_of_isApart h hlt hin
    · exact hnot hsolid

end Origin

/-! ## Choices and phrases -/

theorem choice_of_reads {m : List Char} {values : List String} (h : Rule.Reads choiceRule m values) :
    ∃ left gap gapAfter right, m = left ++ (gap ++ '|' :: '|' :: (gapAfter ++ right)) ∧
      (∀ c ∈ left ++ right, isChoiceChar c = true) ∧ (∀ c ∈ gap ++ gapAfter, isBlank c = true) ∧
      values = [String.ofList (lower left), String.ofList (lower right)] := by
  obtain ⟨f, hf, hlen, rfl⟩ := h
  rw [← List.append_nil m] at hf
  obtain ⟨left, gap, gapAfter, right, hm, rfl, -, -, hchars, hgaps, -⟩ := choiceRule_taken hf hlen
  exact ⟨left, gap, gapAfter, right, hm, hchars, hgaps, rfl⟩

theorem phrase_of_reads {m : List Char} {values : List String} (h : Rule.Reads phraseRule m values) :
    ∃ run, m = '"' :: (run ++ ['"']) ∧ '"' ∉ run ∧ values = [String.ofList (lower run)] := by
  obtain ⟨f, hf, hlen, rfl⟩ := h
  rw [← List.append_nil m] at hf
  obtain ⟨run, hm, rfl, -, hnot⟩ := phraseRule_taken hf hlen
  exact ⟨run, hm, hnot, rfl⟩

/-- The rule of a token's kind reads the token's span of the query, as a whole and with its values,
    exactly if no token lies inside it. Then the members of a choice have nothing but white space
    and the bars between them, and a phrase is the text between its quotes. Only phrases, choices
    and dates can have tokens inside. -/
theorem tokenize_reads_slices (lexicon : Lexicon) (query : String) {t : Token} (ht : t ∈ tokenize lexicon query)
    (hk : t.kind ≠ .term) :
    ∃ rule, (t.kind, rule) ∈ rules lexicon ∧
      (rule.Reads (t.slice query.toList) t.values ↔ t.HoldsNone (tokenize lexicon query)) ∧
      (t.kind ∉ [TokenKind.phrase, .choice, .date] → t.HoldsNone (tokenize lexicon query)) ∧
      (t.HoldsNone (tokenize lexicon query) → t.kind = .choice → ∃ left gap gapAfter right,
        t.slice query.toList = left ++ (gap ++ '|' :: '|' :: (gapAfter ++ right)) ∧
        (∀ c ∈ left ++ right, isChoiceChar c = true) ∧ (∀ c ∈ gap ++ gapAfter, isBlank c = true) ∧
        t.values = [String.ofList (lower left), String.ofList (lower right)]) ∧
      (t.HoldsNone (tokenize lexicon query) → t.kind = .phrase → ∃ run,
        t.slice query.toList = '"' :: (run ++ ['"']) ∧ '"' ∉ run ∧ t.values = [String.ofList (lower run)]) := by
  unfold tokenize at ht ⊢
  generalize query.toList = s at ht ⊢
  obtain ⟨before, rule, after, hrules, hmem⟩ := exists_rule_of_mem_tokensOf ht hk
  have hr : (t.kind, rule) ∈ rules lexicon := hrules ▸ List.mem_append_right _ List.mem_cons_self
  have hleft := reads_of_mem_sweep (rules_take lexicon hr).1 (rules_areSelfContained lexicon hr) hmem
  have hreads : t.HoldsNone (tokensOf lexicon s) → rule.Reads (t.slice s) t.values := fun hnone => by
    rwa [slice_of_holdsNone hrules hmem hnone] at hleft
  have hkind := holdsNone_of_kind hrules hmem
  refine ⟨rule, hr, ⟨fun hwhole a ha hin => ?_, hreads⟩, hkind, fun hnone hchoice => ?_, fun hnone hphrase => ?_⟩
  · have hbefore := mem_before_of_isInside hrules hmem ha hin
    obtain ⟨n, hweighs⟩ := exists_weighs lexicon hr (by_contra fun hnot => hkind hnot a ha hin)
    have hwithin := (isWithin_of_mem_sweepAll
      (fun r hr => takes_of_rules_eq hrules r (List.mem_append_left _ hr)) hbefore).1
    have hink := ink_slice_blanked_lt hbefore hin hwithin.lt hwithin.first
    rw [← sweepAll_before hrules, hweighs.ink_eq hleft hwhole] at hink
    exact Nat.lt_irrefl _ hink
  · obtain rfl : rule = choiceRule := by simpa [rules, hchoice] using hr
    exact choice_of_reads (hreads hnone)
  · obtain rfl : rule = phraseRule := by simpa [rules, hphrase] using hr
    exact phrase_of_reads (hreads hnone)

/-- A choice with a phrase in front of it. -/
theorem tokenize_reads_slices_cats :
    let query := "\"red\" Cats  ||dogs"
    ∃ t ∈ tokenize .builtin query, t.kind = .choice ∧ ∃ rule, (t.kind, rule) ∈ rules .builtin ∧
      rule.Reads (t.slice query.toList) t.values := by
  intro query
  have htokens : tokenize .builtin query = [⟨.phrase, ["red"], 0, 5⟩, ⟨.choice, ["cats", "dogs"], 6, 18⟩] := by
    rw [tokenize, tokensOf, rules, spacedPresets_builtin]
    decide
  have hmem : ⟨.choice, ["cats", "dogs"], 6, 18⟩ ∈ tokenize .builtin query := by simp [htokens]
  obtain ⟨rule, hrule, hiff, -⟩ := tokenize_reads_slices .builtin query hmem (by decide)
  refine ⟨_, hmem, rfl, rule, hrule, hiff.2 ?_⟩
  rw [htokens]
  simp [Token.HoldsNone, Token.IsInside]

/-- A phrase between two words does not keep them from being a choice, and the choice's span of the
    query is none. -/
theorem tokenize_reads_across :
    let query := "cats \"red\" || dogs"
    ∃ t ∈ tokenize .builtin query, t.kind = .choice ∧ t.values = ["cats", "dogs"] ∧ ∀ rule,
      (t.kind, rule) ∈ rules .builtin → ¬ rule.Reads (t.slice query.toList) t.values := by
  intro query
  have htokens : tokenize .builtin query = [⟨.phrase, ["red"], 5, 10⟩, ⟨.choice, ["cats", "dogs"], 0, 18⟩] := by
    rw [tokenize, tokensOf, rules, spacedPresets_builtin]
    decide
  refine ⟨⟨.choice, ["cats", "dogs"], 0, 18⟩, by simp [htokens], rfl, rfl, fun rule hr hreads => ?_⟩
  obtain rfl : rule = choiceRule := by simpa [rules] using hr
  obtain ⟨f, hf, -⟩ := hreads
  have hnone : (choiceRule true query.toList).isNone = true := by decide
  have hslice : Token.slice ⟨.choice, ["cats", "dogs"], 0, 18⟩ query.toList = query.toList := by decide
  rw [hslice] at hf
  rw [hf] at hnone
  cases hnone

end SearchBox.Query

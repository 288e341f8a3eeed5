import SearchBox.Proofs.Query.Parts
import SearchBox.Proofs.Query.Presets
import SearchBox.Proofs.Text.Alike

/-!
  SearchBox.Proofs.Query.Respelling — queries in another case and with other white space. A rule that
  finds something in front of a text finds the like in front of every alike text, and leaves alike
  texts (`rules_respect`). A sweep over both goes on side by side, though the places differ
  (`sweep_alike`), so that the tokens have the same kinds and, but for the white space of dates, the
  same values (`gists_tokensOf`). White space in dates counts for nothing. Only quotes hold white
  space that counts: without them, alike queries have one filter (`compile_alike`).
-/

namespace SearchBox.Query

open SearchBox.Calendar SearchBox.Text

/-! ## Values -/

/-- What a filter makes of a value: of a date its words. -/
def TokenKind.view : TokenKind → String → String
  | .date => singleSpaced
  | _ => id

/-- The kind of a token and what a filter makes of its values. -/
def Token.gist (t : Token) : TokenKind × List String :=
  (t.kind, t.values.map t.kind.view)

theorem singleSpaced_lower_eq {s t : List Char} (h : Alike s t) :
    singleSpaced (String.ofList (lower s)) = singleSpaced (String.ofList (lower t)) := by
  have hwords : (words s).map lower = (words t).map lower := by
    rw [← List.forall₂_eq_eq_eq, List.forall₂_map_left_iff, List.forall₂_map_right_iff]
    exact h.words.imp fun _ _ => SameButCase.lower_eq
  rw [singleSpaced, singleSpaced, String.toList_ofList, String.toList_ofList, words_lower, words_lower, hwords]

/-- A date's white space is that of its words. -/
theorem addDate_congr (clock : Clock) (lexicon : Lexicon) (f : Filter) {v w : String}
    (h : singleSpaced v = singleSpaced w) : f.addDate clock lexicon v = f.addDate clock lexicon w := by
  unfold Filter.addDate
  rw [h]

/-- A filter takes of a token only its gist. -/
theorem addToken_congr (clock : Clock) (lexicon : Lexicon) (f : Filter) {t u : Token} (h : t.gist = u.gist) :
    f.addToken clock lexicon t = f.addToken clock lexicon u := by
  obtain ⟨kind, vs, start, stop⟩ := t
  obtain ⟨kind', ws, start', stop'⟩ := u
  simp only [Token.gist, Prod.mk.injEq] at h
  obtain ⟨rfl, hvalues⟩ := h
  by_cases hdate : kind = .date
  · subst hdate
    cases vs with
    | nil =>
      rw [List.map_nil, eq_comm, List.map_eq_nil_iff] at hvalues
      rw [hvalues]
      rfl
    | cons v vs =>
      obtain ⟨w, ws, rfl, hvw, -⟩ := List.map_eq_cons_iff.1 hvalues.symm
      exact addDate_congr clock lexicon f hvw.symm
  · have hview : kind.view = id := by
      cases kind <;> first | rfl | exact absurd rfl hdate
    simp only [hview, List.map_id] at hvalues
    rw [hvalues]
    rfl

theorem foldlM_addToken_congr (clock : Clock) (lexicon : Lexicon) {ts us : List Token}
    (h : ts.map Token.gist = us.map Token.gist) (f : Filter) :
    ts.foldlM (Filter.addToken clock lexicon) f = us.foldlM (Filter.addToken clock lexicon) f := by
  induction ts generalizing us f with
  | nil =>
    rw [List.map_nil, eq_comm, List.map_eq_nil_iff] at h
    rw [h]
  | cons t ts ih =>
    obtain ⟨u, us, rfl, htu, hlater⟩ := List.map_eq_cons_iff.1 h.symm
    rw [List.foldlM_cons, List.foldlM_cons, addToken_congr clock lexicon f htu.symm]
    exact bind_congr fun g => ih hlater.symm g

/-! ## Rules -/

def Found.views (kind : TokenKind) (f : Found) : List String :=
  f.values.map fun v => kind.view (String.ofList (lower v))

/-- In front of alike texts a rule finds values that a filter takes as the same, and leaves alike
    texts. -/
def Rule.Respects (kind : TokenKind) (r : Rule) : Prop :=
  ∀ ws s t f, Alike s t → r ws s = some f → ∃ f', r ws t = some f' ∧ f.views kind = f'.views kind ∧
    Alike (s.drop f.length) (t.drop f'.length)

theorem Rule.Respects.eq_none {kind : TokenKind} {r : Rule} (h : r.Respects kind) (ws : Bool)
    {s t : List Char} (hst : Alike s t) (hs : r ws s = none) : r ws t = none := by
  rw [Option.eq_none_iff_forall_not_mem]
  intro f hf
  obtain ⟨f', hf', -⟩ := h ws t s f hst.symm hf
  rw [hs] at hf'
  cases hf'

theorem alike_drop {m m' rest rest' : List Char} {n n' : Nat} (hn : n = m.length) (hn' : n' = m'.length)
    (h : Alike rest rest') : Alike ((m ++ rest).drop n) ((m' ++ rest').drop n') := by
  rwa [hn, hn', List.drop_left, List.drop_left]

theorem choiceRule_respects : Rule.Respects .choice choiceRule := by
  intro ws s t f hst h
  obtain ⟨left, gap, gapAfter, right, rest, rfl, rfl, hleft, hright, hchars, hgaps, hend⟩ := choiceRule_eq_some h
  obtain ⟨hl, hr⟩ := List.forall_mem_append.1 hchars
  obtain ⟨hg, hgAfter⟩ := List.forall_mem_append.1 hgaps
  have hbar : isBlank '|' = false := by decide
  have hchar : IgnoresCase isChoiceChar := by decide
  obtain ⟨left', t, rfl, hleft', ht⟩ := hst.word_append fun c hc => isBlank_of_isChoiceChar (hl c hc)
  obtain ⟨gap', t, rfl, hgap', -, ht⟩ := ht.gap_append hg fun c hc => by cases hc; exact hbar
  obtain ⟨t, rfl, hbars⟩ := ht.cons_sign hbar (by decide)
  obtain ⟨t, rfl, hafter⟩ := hbars.cons_sign hbar (by decide)
  obtain ⟨gapAfter', t, rfl, hgapAfter', -, ht⟩ := hafter.gap_append hgAfter fun c hc => by
    rw [List.head?_append_of_ne_nil _ hright] at hc
    exact isBlank_of_isChoiceChar (hr c (List.mem_of_mem_head? hc))
  obtain ⟨right', rest', rfl, hright', hrest⟩ := ht.word_append fun c hc => isBlank_of_isChoiceChar (hr c hc)
  have hfound := choiceRule_of_parts ws (hleft'.ne_nil hleft) (hright'.ne_nil hright)
    (List.forall_mem_append.2 ⟨hleft'.forall_mem hchar hl, hright'.forall_mem hchar hr⟩)
    (List.forall_mem_append.2 ⟨hgap', hgapAfter'⟩)
    (hrest.head?_eq_false hchar (fun c hc => by simp [isChoiceChar, hc]) hend)
  refine ⟨_, hfound, by simp [Found.views, hleft'.lower_eq, hright'.lower_eq], ?_⟩
  have hsplit : ∀ left gap gapAfter right rest : List Char, left ++ (gap ++ '|' :: '|' :: (gapAfter ++ (right ++ rest))) =
      (left ++ (gap ++ '|' :: '|' :: (gapAfter ++ right))) ++ rest := by simp
  rw [hsplit, hsplit]
  exact alike_drop (by simp; omega) (by simp; omega) hrest

theorem wordValue?_respects (kind : TokenKind) : Rule.Respects kind fun _ => wordValue? := by
  intro _ s t f hst h
  obtain ⟨word, rest, rfl, rfl, hword, hblank⟩ := wordValue?_eq_some h
  obtain ⟨word', rest', rfl, hsame, hrest⟩ := hst.word_append hword.2
  refine ⟨_, wordValue?_of_isSolid (hsame.isSolid hword) (hrest.startsBlank hblank), ?_, alike_drop rfl rfl hrest⟩
  simp [Found.views, hsame.lower_eq]

theorem fieldRule_respects {kind : TokenKind} {key : String} {value? : List Char → Option Found}
    (hkey : IsSolid key.toList) (hvalue : Rule.Respects kind fun _ => value?) :
    (fieldRule key value?).Respects kind := by
  intro ws s t f hst h
  obtain ⟨rfl, k, more, v, rfl, hk, hv, rfl⟩ := fieldRule_eq_some h
  obtain ⟨k', t, rfl, hsame, ht⟩ := hst.word_append (IsSolid.of_sameLetters hk hkey).2
  obtain ⟨more', rfl, hmore⟩ := ht.cons_sign (by decide) (by decide)
  obtain ⟨v', hv', hviews, hrest⟩ := hvalue true _ _ _ hmore hv
  have hk' := hsame.sameLetters hk
  have hdrop : dropCaseless? key.toList (k' ++ ':' :: more') = some (':' :: more') :=
    dropCaseless?_eq_some_iff.2 ⟨k', rfl, hk'⟩
  have hfound : fieldRule key value? true (k' ++ ':' :: more') = some ⟨v'.values, k'.length + 1 + v'.length⟩ := by
    rw [fieldRule, if_pos rfl, hdrop]
    simp only [hv', Option.map_some, hk'.length_eq]
  refine ⟨_, hfound, hviews, ?_⟩
  have hskip : ∀ (k more : List Char) (n : Nat), (k ++ ':' :: more).drop (k.length + 1 + n) = more.drop n := by
    intro k more n
    rw [← List.drop_drop, ← List.drop_drop, List.drop_left]
    rfl
  rw [hskip, hskip]
  exact hrest

theorem hashtagRule_respects : Rule.Respects .hashtag hashtagRule := by
  intro ws s t f hst h
  obtain ⟨rfl, c, name, rest, rfl, rfl, hc, hname, hend⟩ := hashtagRule_eq_some h
  have hchar : IgnoresCase fun d => isWordChar d || d = '-' := by decide
  have hletter : IgnoresCase isWordChar := by decide
  obtain ⟨t, rfl, ht⟩ := hst.cons_sign (by decide) (by decide)
  obtain ⟨c', t, rfl, hcc', ht⟩ := ht.cons_visible (isBlank_eq_false_of_isWordChar hc)
  obtain ⟨name', rest', rfl, hsame, hrest⟩ := ht.word_append fun d hd => isBlank_of_isNameChar (hname d hd)
  have hstop : ∀ c, isBlank c = true → (isWordChar c || c = '-') = false := by
    intro c hblank
    rw [Bool.eq_false_iff]
    intro hname
    rw [isBlank_of_isNameChar hname] at hblank
    cases hblank
  have hfound := hashtagRule_of_parts (hletter.eq hcc' ▸ hc) (hsame.forall_mem hchar hname)
    (hrest.head?_eq_false hchar hstop hend)
  have hwhole : SameButCase (c :: name) (c' :: name') := .cons hcc' hsame
  refine ⟨_, hfound, by simp [Found.views, hwhole.lower_eq], ?_⟩
  simpa using hrest

theorem exclusionRule_respects : Rule.Respects .excluded exclusionRule := by
  intro ws s t f hst h
  obtain ⟨rfl, c, word, rest, rfl, rfl, hc, hvisible, hblank⟩ := exclusionRule_eq_some h
  have hhyphen : IgnoresCase fun d => decide (d = '-') := by decide
  obtain ⟨t, rfl, ht⟩ := hst.cons_sign (by decide) hhyphen
  obtain ⟨w, rest', rfl, hsame, hrest⟩ := Alike.word_append (w := c :: word) ht hvisible
  cases hsame with
  | @cons c c' word word' hcc' hsame =>
    have hc' : c' ≠ '-' := fun he => hc (eq_of_toLower_eq hhyphen (he ▸ hcc'))
    have hwhole : SameButCase (c :: word) (c' :: word') := .cons hcc' hsame
    have hfound := exclusionRule_of_parts hc' (hwhole.forall_mem ignoresCase_isBlank hvisible)
      (hrest.startsBlank hblank)
    refine ⟨_, hfound, by simp [Found.views, hwhole.lower_eq], ?_⟩
    simpa using hrest

/-! ## Dates -/

/-- Words stand in front of a text if they stand in front of an alike one. -/
theorem SpacedAs.alike {ws : List (List Char)} {m : List Char} (h : SpacedAs ws m) (hws : ∀ w ∈ ws, IsSolid w)
    {rest t : List Char} (ht : Alike (m ++ rest) t) :
    ∃ m' rest', t = m' ++ rest' ∧ SpacedAs ws m' ∧ Alike m m' ∧ Alike rest rest' := by
  induction h generalizing rest t with
  | nil => exact ⟨[], t, rfl, .nil, .nil, ht⟩
  | @one w m hm =>
    have hsolid := IsSolid.of_sameLetters hm (hws w (List.mem_singleton.2 rfl))
    obtain ⟨m', rest', rfl, hsame, hrest⟩ := ht.word_append hsolid.2
    exact ⟨m', rest', rfl, .one (hsame.sameLetters hm), hsame.alike hsolid.2, hrest⟩
  | @cons w k gap v m ws hk hgap hblank hm ih =>
    obtain ⟨hw, hlater⟩ := List.forall_mem_cons.1 hws
    have hsolid := IsSolid.of_sameLetters hk hw
    obtain ⟨⟨c, hc, hvisible⟩, -⟩ := isEdged_of_spacedAs hm (List.cons_ne_nil _ _) hlater
    rw [List.append_assoc, List.append_assoc] at ht
    obtain ⟨k', t, rfl, hsame, ht⟩ := ht.word_append hsolid.2
    obtain ⟨gap', t, rfl, hblank', hempty, ht⟩ := ht.gap_append hblank fun d hd => by
      rw [List.head?_append, Option.mem_def.1 hc] at hd
      cases hd
      exact hvisible
    obtain ⟨m', rest', rfl, hm', halike, hrest⟩ := ih hlater ht
    have hgap' : gap' ≠ [] := fun hnil => hgap (hempty.2 hnil)
    refine ⟨k' ++ gap' ++ m', rest', by simp, .cons (hsame.sameLetters hk) hgap' hblank' hm', ?_, hrest⟩
    exact ((hsame.alike hsolid.2).append (alike_of_isGap ⟨hgap, hblank⟩ ⟨hgap', hblank'⟩)).append halike

theorem presetValue?_respects (preset : List Char) : Rule.Respects .date fun _ => presetValue? preset := by
  intro _ s t f hst h
  obtain ⟨m, rest, rfl, rfl, hm, hend⟩ := presetValue?_eq_some h
  obtain ⟨m', rest', rfl, hm', halike, hrest⟩ := hm.alike (fun w hw => of_mem_words hw) hst
  refine ⟨_, presetValue?_of_spacedAs hm' (hrest.startsBlank (atWordEnd_iff.1 hend)), ?_, alike_drop rfl rfl hrest⟩
  simp [Found.views, TokenKind.view, singleSpaced_lower_eq halike]

theorem dateValue?_respects (presets : List (List Char)) : Rule.Respects .date fun _ => dateValue? presets := by
  intro ws s t f hst h
  have hnone : ∀ p, presetValue? p s = none → presetValue? p t = none := fun p hp =>
    (presetValue?_respects p).eq_none ws hst hp
  change dateValue? presets s = some f at h
  unfold dateValue? at h
  split at h
  · rename_i found hfound
    cases h
    obtain ⟨before, p, after, hsplit, hp, hbefore⟩ := List.findSome?_eq_some_iff.1 hfound
    obtain ⟨f', hf', hlike⟩ := presetValue?_respects p ws _ _ _ hst hp
    have hfound' : presets.findSome? (presetValue? · t) = some f' :=
      List.findSome?_eq_some_iff.2 ⟨before, p, after, hsplit, hf', fun q hq => hnone q (hbefore q hq)⟩
    refine ⟨f', ?_, hlike⟩
    change dateValue? presets t = some f'
    rw [dateValue?, hfound']
  · rename_i hfound
    obtain ⟨f', hf', hlike⟩ := wordValue?_respects .date ws _ _ _ hst h
    have hfound' : presets.findSome? (presetValue? · t) = none :=
      List.findSome?_eq_none_iff.2 fun p hp => hnone p (List.findSome?_eq_none_iff.1 hfound p hp)
    refine ⟨f', ?_, hlike⟩
    change dateValue? presets t = some f'
    rw [dateValue?, hfound', ← hf']

/-- All rules but those for quotes respect alikeness. -/
theorem rules_respect (lexicon : Lexicon) {r : TokenKind × Rule} (hr : r ∈ rules lexicon)
    (hk : r.1 ≠ .excludedPhrase ∧ r.1 ≠ .phrase) : r.2.Respects r.1 := by
  have hfield : ∀ kind, ∀ key ∈ fieldKeys, (fieldRule key wordValue?).Respects kind := fun kind key hkey =>
    fieldRule_respects (isSolid_fieldKeys key hkey) (wordValue?_respects kind)
  simp only [rules, List.mem_cons, List.not_mem_nil, or_false] at hr
  rcases hr with rfl | rfl | rfl | rfl | rfl | rfl | rfl | rfl | rfl | rfl | rfl | rfl
  · exact absurd rfl hk.1
  · exact absurd rfl hk.2
  · exact choiceRule_respects
  · exact hfield _ _ (by decide)
  · exact hfield _ _ (by decide)
  · exact hfield _ _ (by decide)
  · exact hfield _ _ (by decide)
  · exact fieldRule_respects (by decide) (dateValue?_respects _)
  · exact hfield _ _ (by decide)
  · exact hfield _ _ (by decide)
  · exact hashtagRule_respects
  · exact exclusionRule_respects

/-! ## Sweeps -/

section Sweep

variable {kind : TokenKind} {rule : Rule}

/-- A sweep passes over white space. -/
theorem sweep_gap_append (hr : rule.Takes IsEdged) {g : List Char} (hg : IsGap g) (place : Nat) (ws : Bool)
    (s : List Char) : sweep kind rule place 0 ws (g ++ s) =
      ((sweep kind rule (place + g.length) 0 true s).1, g ++ (sweep kind rule (place + g.length) 0 true s).2) := by
  obtain ⟨hne, hblank⟩ := hg
  induction g generalizing place ws with
  | nil => exact absurd rfl hne
  | cons c g ih =>
    obtain ⟨hc, hg⟩ := List.forall_mem_cons.1 hblank
    have hnone := hr.eq_none ws (s := c :: (g ++ s)) fun d hd => by cases hd; exact hc
    rw [List.cons_append, sweep, hnone, hc]
    cases g with
    | nil => rfl
    | cons d g =>
      rw [ih (place + 1) true (List.cons_ne_nil _ _) hg, List.length_cons (a := c), Nat.add_assoc, Nat.add_comm 1]
      rfl

/-- What a rule finds in front is one token, and the sweep goes on in the middle of a word. -/
theorem sweep_of_found (hr : rule.Takes IsEdged) {place : Nat} {ws : Bool} {s : List Char} {f : Found}
    (hf : rule ws s = some f) : sweep kind rule place 0 ws s =
      (⟨kind, f.values.map fun v => String.ofList (lower v), place, place + f.length⟩ ::
          (sweep kind rule (place + f.length) 0 false (s.drop f.length)).1,
        List.replicate f.length ' ' ++ (sweep kind rule (place + f.length) 0 false (s.drop f.length)).2) := by
  obtain ⟨m, rest, rfl, hm, -, c, hc, hvisible⟩ := hr ws s f hf
  have hne : m ≠ [] := by
    rintro rfl
    cases hc
  rw [List.getLast?_eq_some_getLast hne, Option.mem_def, Option.some.injEq] at hc
  rw [sweep_found hne hf hm.symm, hc, hvisible, ← hm, List.drop_left]

/-- Sweeps over alike texts find the same and leave alike texts, wherever they start. -/
theorem sweep_alike (hr : rule.Takes IsEdged) (hrespects : rule.Respects kind) {s t : List Char} (h : Alike s t)
    (p q : Nat) (ws : Bool) :
    (sweep kind rule p 0 ws s).1.map Token.gist = (sweep kind rule q 0 ws t).1.map Token.gist ∧
      Alike (sweep kind rule p 0 ws s).2 (sweep kind rule q 0 ws t).2 := by
  induction hn : s.length using Nat.strongRecOn generalizing s t p q ws with
  | ind n ih =>
    cases h with
    | nil => exact ⟨rfl, .nil⟩
    | @gap g h s t hg hh hst =>
      have hpos := List.length_pos_iff.2 hg.1
      rw [List.length_append] at hn
      obtain ⟨htokens, hleft⟩ := ih s.length (by omega) hst (p + g.length) (q + h.length) true rfl
      rw [sweep_gap_append hr hg, sweep_gap_append hr hh]
      exact ⟨htokens, .gap hg hh hleft⟩
    | @char c d s t hc hcd hst =>
      have hd := ignoresCase_isBlank.eq hcd ▸ hc
      have hwhole : Alike (c :: s) (d :: t) := .char hc hcd hst
      cases hf : rule ws (c :: s) with
      | none =>
        have hf' := hrespects.eq_none ws hwhole hf
        obtain ⟨htokens, hleft⟩ := ih s.length (by simp [← hn]) hst (p + 1) (q + 1) false rfl
        rw [sweep, sweep, hf, hf', hc, hd]
        exact ⟨htokens, .char hc hcd hleft⟩
      | some f =>
        obtain ⟨f', hf', hviews, hrest⟩ := hrespects ws _ _ f hwhole hf
        have hpos := hr.length_pos hf
        have hpos' := hr.length_pos hf'
        have hshorter : ((c :: s).drop f.length).length < n := by
          rw [List.length_drop, hn]
          simp only [List.length_cons] at hn
          omega
        obtain ⟨htokens, hleft⟩ := ih _ hshorter hrest (p + f.length) (q + f'.length) false rfl
        rw [sweep_of_found hr hf, sweep_of_found hr hf']
        refine ⟨?_, .gap (isGap_replicate hpos) (isGap_replicate hpos') hleft⟩
        rw [List.map_cons, List.map_cons, htokens]
        simpa [Token.gist, Found.views, Function.comp_def] using hviews

end Sweep

theorem sweepAll_alike {rs : List (TokenKind × Rule)} (hrs : ∀ r ∈ rs, r.2.Takes IsEdged ∧ r.2.Respects r.1)
    {s t : List Char} (h : Alike s t) :
    (sweepAll rs s).1.map Token.gist = (sweepAll rs t).1.map Token.gist ∧ Alike (sweepAll rs s).2 (sweepAll rs t).2 := by
  induction rs generalizing s t with
  | nil => exact ⟨rfl, h⟩
  | cons r rs ih =>
    obtain ⟨kind, rule⟩ := r
    obtain ⟨⟨hr, hrespects⟩, hrs⟩ := List.forall_mem_cons.1 hrs
    obtain ⟨htokens, hleft⟩ := sweep_alike hr hrespects h 0 0 true
    obtain ⟨hmore, hlast⟩ := ih hrs hleft
    rw [sweepAll_cons, sweepAll_cons, List.map_append, List.map_append, htokens, hmore]
    exact ⟨rfl, hlast⟩

/-! ## Terms -/

/-- A left-over word is one in any case. -/
theorem IsLeftOver.of_sameButCase {w v : List Char} (h : SameButCase w v) (hw : IsLeftOver w) : IsLeftOver v := by
  rcases hw with rfl | hw | rfl | ⟨key, hkey, k, rfl, hk⟩
  · exact .inl (List.forall₂_nil_left_iff.1 h)
  · have hsigns := h.forall_mem (p := fun c => c = '-' || c = '|') (by decide) (b := true)
      fun c hc => by simpa using hw c hc
    exact .inr (.inl fun c hc => by simpa using hsigns c hc)
  · exact .inr (.inr (.inl (h.eq_of_singleton (by decide))))
  · obtain ⟨k', colon, rfl, hk', hcolon⟩ := h.exists_append
    rw [hcolon.eq_of_singleton (by decide)]
    exact .inr (.inr (.inr ⟨key, hkey, k', rfl, hk'.sameLetters hk⟩))

/-- A word says the same as a term in any case. -/
theorem content_termOf?_eq {w v : List Char} (h : SameButCase w v) :
    (termOf? w 0).map Token.content = (termOf? v 0).map Token.content := by
  have hbare : SameButCase (w.filter (!isQuote ·)) (v.filter (!isQuote ·)) := h.filter (by decide)
  by_cases hleft : IsLeftOver (w.filter (!isQuote ·))
  · rw [termOf?_eq_none_iff.2 hleft, termOf?_eq_none_iff.2 (hleft.of_sameButCase hbare)]
  · rw [termOf?_of_not_isLeftOver 0 hleft, termOf?_of_not_isLeftOver 0 fun h => hleft (h.of_sameButCase hbare.symm),
      hbare.lower_eq]
    rfl

theorem gists_termsOf {s t : List Char} (h : Alike s t) :
    (termsOf s).map Token.gist = (termsOf t).map Token.gist := by
  have hgist : Token.gist = (fun c : Content => (c.1, c.2.map c.1.view)) ∘ Token.content := rfl
  have hwords := h.words
  rw [hgist, ← List.map_map, ← List.map_map, contents_termsOf, contents_termsOf]
  congr 1
  generalize words s = ws at hwords ⊢
  generalize words t = vs at hwords ⊢
  induction hwords with
  | nil => rfl
  | cons hwv _ ih => rw [List.filterMap_cons, List.filterMap_cons, content_termOf?_eq hwv, ih]

/-! ## Queries -/

/-- Without quotes the rules for them find nothing. -/
theorem sweepAll_rules_of_not_mem (lexicon : Lexicon) {s : List Char} (hq : '"' ∉ s) :
    sweepAll (rules lexicon) s = sweepAll ((rules lexicon).drop 2) s := by
  have hrules : rules lexicon =
      (.excludedPhrase, excludedPhraseRule) :: (.phrase, phraseRule) :: (rules lexicon).drop 2 := rfl
  generalize (rules lexicon).drop 2 = rs at hrules ⊢
  rw [hrules, sweepAll_cons, sweep_excludedPhrase hq, sweepAll_cons, sweep_phrase hq]
  rfl

theorem gists_tokensOf (lexicon : Lexicon) {s t : List Char} (h : Alike s t) (hq : '"' ∉ s) :
    (tokensOf lexicon s).map Token.gist = (tokensOf lexicon t).map Token.gist := by
  have hq' : '"' ∉ t := h.not_mem (by decide) (by decide) hq
  have hedged : ∀ r ∈ rules lexicon, r.2.Takes IsEdged := fun r hr => (rules_take lexicon hr).1
  have hrs : ∀ r ∈ (rules lexicon).drop 2, r.2.Takes IsEdged ∧ r.2.Respects r.1 := by
    intro r hr
    have hmem := List.mem_of_mem_drop hr
    refine ⟨hedged r hmem, rules_respect lexicon hmem ?_⟩
    simp only [rules, List.drop_succ_cons, List.drop_zero, List.mem_cons, List.not_mem_nil, or_false] at hr
    rcases hr with rfl | rfl | rfl | rfl | rfl | rfl | rfl | rfl | rfl | rfl <;> simp
  obtain ⟨htokens, hleft⟩ := sweepAll_alike hrs h
  rw [tokensOf_eq, tokensOf_eq, ← sweepAll_blanks hedged, ← sweepAll_blanks hedged, sweepAll_rules_of_not_mem lexicon hq,
    sweepAll_rules_of_not_mem lexicon hq', List.map_append, List.map_append, htokens, gists_termsOf hleft]

/-- Two queries without quotes that differ only in the case of ASCII letters and in the white space
    between words, at their ends and around bars have the same filter, or fail alike. -/
theorem compile_alike (clock : Clock) (lexicon : Lexicon) {query query' : String}
    (h : Alike query.toList query'.toList) (hq : '"' ∉ query.toList) :
    compile clock lexicon query = compile clock lexicon query' := by
  have hgists := gists_tokensOf lexicon h.strip fun hmem => hq (mem_of_mem_strip hmem)
  rw [compile_eq_ofTokens, compile_eq_ofTokens, Filter.ofTokens, Filter.ofTokens,
    foldlM_addToken_congr clock lexicon hgists]

/-- A date of two words and a word with a final sigma. -/
theorem compile_alike_last_week :
    let clock : Clock := ⟨.universal (738000 * microsPerDay), Zone.utc⟩
    compile clock .builtin "dATE:last\u3000\nWEEK TAXIΣ||B" =
      .ok { terms := [], choices := [("taxiς", "b")], since := some "last week", freeText := "" } := by
  intro clock
  have halike : Alike "Date:LAST  Week TaxiΣ||b".toList "dATE:last\u3000\nWEEK TAXIΣ||B".toList := by
    have hsolid : IsSolid "Date:LAST".toList ∧ IsSolid "Week".toList ∧ IsSolid "TaxiΣ||b".toList := by decide
    have hword : Alike "Date:LAST".toList "dATE:last".toList := SameButCase.alike (by decide) hsolid.1.2
    have hlater : Alike "Week".toList "WEEK".toList := SameButCase.alike (by decide) hsolid.2.1.2
    have hchoice : Alike "TaxiΣ||b".toList "TAXIΣ||B".toList := SameButCase.alike (by decide) hsolid.2.2.2
    exact hword.append ((alike_of_isGap (g := "  ".toList) (h := "\u3000\n".toList) (by decide) (by decide)).append
      (hlater.append ((alike_of_isGap (g := " ".toList) (h := " ".toList) (by decide) (by decide)).append hchoice)))
  rw [← compile_alike clock .builtin halike (by decide)]
  have htokens : tokensOf .builtin (strip "Date:LAST  Week TaxiΣ||b".toList) =
      [⟨.choice, ["taxiς", "b"], 16, 24⟩, ⟨.date, ["last  week"], 0, 15⟩] := by
    rw [tokensOf, rules, spacedPresets_builtin]
    decide
  rw [compile_eq_ofTokens, htokens]
  decide

end SearchBox.Query

import SearchBox.Proofs.Query.Wordwise
import SearchBox.Proofs.Settings.Lexicon

/-!
  SearchBox.Proofs.Query.Presets — which preset a date is. A preset is found where its words stand
  in any case, with white space between each two and a word's end after them
  (`presetValue?_of_spacedAs`), and what it takes is settled by how many words it has
  (`eq_of_length_words`). Longer presets are tried first. A preset with fewer words than another one
  that stands at the same place is shorter (`length_lt_of_isPrefix`), so that a preset that no one
  with more words outdoes takes just its own words (`dateValue?_of_preset`).
-/

namespace SearchBox.Query

open SearchBox.Settings SearchBox.Text

/-! ## Words with white space between them -/

theorem SpacedAs.words_eq {ws : List (List Char)} {m : List Char} (h : SpacedAs ws m) (hws : ∀ w ∈ ws, IsSolid w) :
    List.Forall₂ (List.Forall₂ fun a b => sameLetter a b) ws (words m) := by
  induction h with
  | nil => exact .nil
  | @one w m hm =>
    rw [words_of_isSolid (IsSolid.of_sameLetters hm (hws w (List.mem_singleton.2 rfl)))]
    exact .cons hm .nil
  | @cons w k gap v m ws hk hgap hblank _ ih =>
    obtain ⟨hw, hlater⟩ := List.forall_mem_cons.1 hws
    have hstart : StartsBlank (gap ++ m) := by
      intro c hc
      rw [List.head?_append_of_ne_nil _ hgap] at hc
      exact hblank c (List.mem_of_mem_head? hc)
    rw [List.append_assoc, words_append_of_isSolid (IsSolid.of_sameLetters hk hw) hstart,
      words_isBlankText_append (isBlankText_iff.2 hblank)]
    exact .cons hk (ih hlater)

theorem takeWhile_isBlank_append {gap m : List Char} (hgap : ∀ c ∈ gap, isBlank c = true) (hm : IsEdged m)
    (rest : List Char) : (gap ++ (m ++ rest)).takeWhile isBlank = gap := by
  obtain ⟨⟨c, hc, hvisible⟩, -⟩ := hm
  refine takeWhile_run hgap fun d hd => ?_
  rw [List.head?_append, Option.mem_def.1 hc] at hd
  cases hd
  exact hvisible

/-- Words are found where they stand, whatever their case. -/
theorem spacedWords?_of_spacedAs {ws : List (List Char)} {m : List Char} (h : SpacedAs ws m)
    (hws : ∀ w ∈ ws, IsSolid w) (rest : List Char) : spacedWords? ws (m ++ rest) = some m.length := by
  induction h with
  | nil => rfl
  | @one w m hm =>
    have hdrop : dropCaseless? w (m ++ rest) = some rest := dropCaseless?_eq_some_iff.2 ⟨m, rfl, hm⟩
    rw [spacedWords?, hdrop, Option.map_some, hm.length_eq]
  | @cons w k gap v m ws hk hgap hblank hm ih =>
    obtain ⟨hw, hlater⟩ := List.forall_mem_cons.1 hws
    have hedged := isEdged_of_spacedAs hm (List.cons_ne_nil _ _) hlater
    have hdrop : dropCaseless? w (k ++ (gap ++ (m ++ rest))) = some (gap ++ (m ++ rest)) :=
      dropCaseless?_eq_some_iff.2 ⟨k, rfl, hk⟩
    rw [List.append_assoc, List.append_assoc, spacedWords?, hdrop]
    · simp only [takeWhile_isBlank_append hblank hedged, List.drop_left, ih hlater, Option.map_some,
        List.length_append, hk.length_eq]
      rw [if_neg (by simpa using hgap)]
    · exact fun hnil => by cases hnil

theorem atWordEnd_iff {s : List Char} : atWordEnd s = true ↔ StartsBlank s := by
  cases s with
  | nil => simp [atWordEnd, StartsBlank]
  | cons c s => simp [atWordEnd, StartsBlank]

theorem presetValue?_of_spacedAs {preset m rest : List Char} (h : SpacedAs (words preset) m) (hrest : StartsBlank rest) :
    presetValue? preset (m ++ rest) = some ⟨[m], m.length⟩ := by
  rw [presetValue?, spacedWords?_of_spacedAs h fun w hw => of_mem_words hw]
  simp only [List.drop_left, List.take_left, atWordEnd_iff.2 hrest, if_true]

/-- The first words of a text, with what stands between them. -/
theorem exists_append_of_words {s : List Char} {ws vs : List (List Char)} (hs : words s = ws ++ vs) (hws : ws ≠ [])
    (hfront : ∃ c ∈ s.head?, isBlank c = false) :
    ∃ m rest, s = m ++ rest ∧ SpacedAs ws m ∧ StartsBlank rest ∧ words rest = vs := by
  induction ws generalizing s with
  | nil => exact absurd rfl hws
  | cons w ws ih =>
    obtain ⟨c, hc, hvisible⟩ := hfront
    have hstart : ¬ StartsBlank s := by
      intro hblank
      rw [hblank c hc] at hvisible
      cases hvisible
    obtain ⟨w', more, rfl, hw', hmore⟩ := exists_word_append hstart
    rw [words_append_of_isSolid hw' hmore, List.cons_append, List.cons.injEq] at hs
    obtain ⟨rfl, hs⟩ := hs
    have hself : List.Forall₂ (fun a b => sameLetter a b) w' w' := sameLetters_iff.2 rfl
    cases ws with
    | nil => exact ⟨w', more, rfl, .one hself, hmore, hs⟩
    | cons v ws =>
      have hstrip := words_stripStart more
      rw [hs] at hstrip
      cases hrest : stripStart more with
      | nil =>
        rw [hrest] at hstrip
        cases hstrip
      | cons d s =>
        rw [hrest] at hstrip
        have hd := not_isBlank_of_stripStart hrest
        obtain ⟨m, rest, hm, hspaced, hblank, hvs⟩ := ih hstrip (List.cons_ne_nil _ _) ⟨d, rfl, hd⟩
        have hmore' : more = more.takeWhile isBlank ++ (m ++ rest) := by
          rw [← hm, ← hrest, stripStart, List.takeWhile_append_dropWhile]
        have hgap : more.takeWhile isBlank ≠ [] := by
          intro hnil
          rw [hnil, List.nil_append, ← hm] at hmore'
          have hdblank := hmore d (by rw [hmore']; rfl)
          rw [hd] at hdblank
          cases hdblank
        refine ⟨w' ++ more.takeWhile isBlank ++ m, rest, ?_,
          .cons hself hgap (forall_mem_takeWhile isBlank more) hspaced, hblank, hvs⟩
        rw [List.append_assoc, List.append_assoc, ← hmore']

/-- What stands at the front of a text, visible at its ends and up to a word's end, is settled by
    the number of its words. -/
theorem eq_of_length_words {m m' rest rest' : List Char} (h : m ++ rest = m' ++ rest') (hm : IsEdged m)
    (hm' : IsEdged m') (hrest : StartsBlank rest) (hrest' : StartsBlank rest')
    (hlen : (words m).length = (words m').length) : m = m' := by
  -- What the longer one has more starts blank and ends visibly, so that it holds a word.
  have hmore : ∀ {a d later : List Char}, IsEdged (a ++ d) → StartsBlank (d ++ later) → d ≠ [] →
      (words a).length < (words (a ++ d)).length := by
    intro a d later hedged hblank hd
    have hstart : StartsBlank d := by
      intro c hc
      refine hblank c ?_
      rwa [List.head?_append_of_ne_nil _ hd]
    obtain ⟨-, c, hc, hvisible⟩ := hedged
    rw [List.getLast?_append_of_ne_nil _ hd] at hc
    obtain ⟨w, hw, -⟩ := exists_mem_words (List.mem_of_getLast? hc) hvisible
    have hpos := List.length_pos_of_mem hw
    rw [words_append_of_startsBlank a hstart, List.length_append]
    omega
  rcases List.append_eq_append_iff.1 h with ⟨d, rfl, rfl⟩ | ⟨d, rfl, rfl⟩
  · by_cases hd : d = []
    · rw [hd, List.append_nil]
    · have := hmore hm' hrest hd
      omega
  · by_cases hd : d = []
    · rw [hd, List.append_nil]
    · have := hmore hm hrest' hd
      omega

/-! ## The words of presets -/

theorem words_ne_nil_of_isPresetWord {p : String} (hp : IsPresetWord p) (hne : p ≠ "") : words p.toList ≠ [] := by
  intro hnil
  refine hne (String.toList_inj.1 ?_)
  rw [← hp.2, hnil]
  rfl

theorem space_mem_of_isPresetWord {p : String} (hp : IsPresetWord p) (h : 1 < (words p.toList).length) :
    ' ' ∈ p.toList := by
  rw [← hp.2]
  rcases hwords : words p.toList with _ | ⟨w, _ | ⟨v, ws⟩⟩
  · rw [hwords] at h
    cases h
  · rw [hwords] at h
    exact absurd h (Nat.lt_irrefl 1)
  · rw [joinWith_cons _ _ (List.cons_ne_nil _ _)]
    exact List.mem_append_left _ (List.mem_append_right _ (List.mem_singleton.2 rfl))

theorem length_joinWith_congr {separator : List Char} {ws vs : List (List Char)}
    (h : List.Forall₂ (List.Forall₂ fun a b => sameLetter a b) ws vs) :
    (joinWith separator ws).length = (joinWith separator vs).length := by
  induction h with
  | nil => rfl
  | @cons w v ws vs hwv hws ih =>
    cases hws with
    | nil => exact hwv.length_eq
    | cons hnext hlater =>
      rw [joinWith_cons _ _ (List.cons_ne_nil _ _), joinWith_cons _ _ (List.cons_ne_nil _ _)]
      simp only [List.length_append, hwv.length_eq, ih]

theorem length_joinWith_lt {ws vs : List (List Char)} (hws : ws ≠ []) (hvs : vs ≠ []) :
    (joinWith [' '] ws).length < (joinWith [' '] (ws ++ vs)).length := by
  induction ws with
  | nil => exact absurd rfl hws
  | cons w ws ih =>
    rw [List.cons_append]
    by_cases hnil : ws = []
    · subst hnil
      rw [List.nil_append, joinWith_cons _ _ hvs]
      simp only [joinWith, List.length_append, List.length_singleton]
      omega
    · rw [joinWith_cons _ _ hnil, joinWith_cons _ _ (List.append_ne_nil_of_left_ne_nil hnil _)]
      have := ih hnil
      simp only [List.length_append]
      omega

/-- A preset whose words are in any case the first ones of those of another preset, but not all of
    them, is shorter. -/
theorem length_lt_of_isPrefix {p q : String} (hp : IsPresetWord p) (hq : IsPresetWord q)
    {front ws : List (List Char)} (hfront : front <+: ws) (hlt : front.length < ws.length) (hne : front ≠ [])
    (hpw : List.Forall₂ (List.Forall₂ fun a b => sameLetter a b) (words p.toList) ws)
    (hqf : List.Forall₂ (List.Forall₂ fun a b => sameLetter a b) (words q.toList) front) :
    q.toList.length < p.toList.length := by
  obtain ⟨more, rfl⟩ := hfront
  have hmore : more ≠ [] := by
    rintro rfl
    rw [List.append_nil] at hlt
    omega
  rw [← hp.2, ← hq.2, length_joinWith_congr hpw, length_joinWith_congr hqf]
  exact length_joinWith_lt hne hmore

/-! ## The preset that is taken -/

/-- Words that are, in any case, the first ones of others. -/
def AreFirstIn (ws vs : List (List Char)) : Prop :=
  ∃ front, front <+: vs ∧ List.Forall₂ (List.Forall₂ fun a b => sameLetter a b) ws front

section Tables

variable {lexicon : Lexicon} {preset : List Char}

theorem mem_spacedPresets : preset ∈ spacedPresets lexicon ↔ ' ' ∈ preset ∧ ∃ e ∈ lexicon.presets, e.1.toList = preset := by
  simp only [spacedPresets, List.mem_mergeSort, List.mem_filter, List.mem_map, List.contains_iff_mem]
  rw [and_comm]

/-- Of two presets the one that is tried first is not the shorter one. -/
theorem pairwise_spacedPresets (lexicon : Lexicon) :
    (spacedPresets lexicon).Pairwise fun a b => b.length ≤ a.length := by
  have htrans : ∀ a b c : List Char, decide (b.length ≤ a.length) = true → decide (c.length ≤ b.length) = true →
      decide (c.length ≤ a.length) = true := by
    intro a b c hab hbc
    simp only [decide_eq_true_eq] at hab hbc ⊢
    omega
  have htotal : ∀ a b : List Char, (decide (b.length ≤ a.length) || decide (a.length ≤ b.length)) = true := by
    intro a b
    simp only [Bool.or_eq_true, decide_eq_true_eq]
    omega
  exact (List.pairwise_mergeSort htrans htotal _).imp of_decide_eq_true

/-- The built-in presets of several words in the order they are tried in. -/
theorem spacedPresets_builtin :
    spacedPresets .builtin = ["last month", "this month", "last week", "this week"].map String.toList := by
  have hspaced : (Lexicon.builtin.presets.map fun e => e.1.toList).filter (·.contains ' ') =
      ["last week", "this week", "last month", "this month"].map String.toList := by decide
  unfold spacedPresets
  refine (congrArg (List.mergeSort · _) hspaced).trans ?_
  simp [List.mergeSort, List.MergeSort.Internal.splitInTwo]

/-- What is found is found by a longest one of the presets that find anything. -/
theorem exists_longest_of_findSome? {find? : List Char → Option Found} {f : Found}
    (h : (spacedPresets lexicon).findSome? find? = some f) : ∃ q ∈ spacedPresets lexicon, find? q = some f ∧
      ∀ p ∈ spacedPresets lexicon, find? p ≠ none → p.length ≤ q.length := by
  obtain ⟨before, q, after, hsplit, hfound, hbefore⟩ := List.findSome?_eq_some_iff.1 h
  have hsorted := pairwise_spacedPresets lexicon
  rw [hsplit] at hsorted ⊢
  refine ⟨q, List.mem_append_right _ List.mem_cons_self, hfound, fun p hp hfinds => ?_⟩
  rcases List.mem_append.1 hp with hp | hp
  · exact absurd (hbefore p hp) hfinds
  · rcases List.mem_cons.1 hp with rfl | hp
    · exact Nat.le_refl _
    · exact (List.pairwise_cons.1 (List.pairwise_append.1 hsorted).2.1).1 p hp

end Tables

/-- Of two texts in front, up to a word's end, the words of the one with fewer words are the first
    ones of the other. -/
theorem isPrefix_words {m m' rest rest' : List Char} (h : m ++ rest = m' ++ rest') (hrest : StartsBlank rest)
    (hrest' : StartsBlank rest') (hle : (words m').length ≤ (words m).length) : words m' <+: words m := by
  have hwords := congrArg words h
  rw [words_append_of_startsBlank m hrest, words_append_of_startsBlank m' hrest'] at hwords
  have hwhole : words m' <+: words m ++ words rest := by
    rw [hwords]
    exact List.prefix_append _ _
  exact List.prefix_of_prefix_length_le hwhole (List.prefix_append _ _) hle

/-- A preset without a space is a single word. -/
theorem wordValue?_of_spacedAs {p : String} (hp : IsPresetWord p) (hne : p ≠ "") (hspace : ' ' ∉ p.toList)
    {m rest : List Char} (hm : SpacedAs (words p.toList) m) (hrest : StartsBlank rest) :
    wordValue? (m ++ rest) = some ⟨[m], m.length⟩ := by
  rcases hwords : words p.toList with _ | ⟨w, _ | ⟨v, ws⟩⟩
  · exact absurd hwords (words_ne_nil_of_isPresetWord hp hne)
  · have hw : w ∈ words p.toList := by simp [hwords]
    rw [hwords] at hm
    cases hm with
    | one hsame => exact wordValue?_of_isSolid (IsSolid.of_sameLetters hsame (of_mem_words hw)) hrest
  · exact absurd (space_mem_of_isPresetWord hp (by simp [hwords])) hspace

/-- Where a preset stands and none with more words does, its words are the date. -/
theorem dateValue?_of_preset {lexicon : Lexicon} (hpresets : ∀ e ∈ lexicon.presets, IsPresetWord e.1 ∧ e.1 ≠ "")
    {p : String} {days : Int} (hp : (p, days) ∈ lexicon.presets) {m rest : List Char}
    (hm : SpacedAs (words p.toList) m) (hrest : StartsBlank rest)
    (hlongest : ∀ q ∈ lexicon.presets, (words p.toList).length < (words q.1.toList).length →
      ¬ AreFirstIn (words q.1.toList) (words (m ++ rest))) :
    dateValue? (spacedPresets lexicon) (m ++ rest) = some ⟨[m], m.length⟩ := by
  obtain ⟨hpword, hpne⟩ := hpresets _ hp
  have hfinds := presetValue?_of_spacedAs hm hrest
  rw [dateValue?]
  cases hfind : (spacedPresets lexicon).findSome? (presetValue? · (m ++ rest)) with
  | none =>
    refine wordValue?_of_spacedAs hpword hpne (fun hspace => ?_) hm hrest
    have hnone := List.findSome?_eq_none_iff.1 hfind p.toList (mem_spacedPresets.2 ⟨hspace, _, hp, rfl⟩)
    rw [hfinds] at hnone
    cases hnone
  | some f =>
    obtain ⟨spaced, hspaced, hfound, hmax⟩ := exists_longest_of_findSome? hfind
    obtain ⟨-, q, hqmem, rfl⟩ := mem_spacedPresets.1 hspaced
    obtain ⟨hqword, hqne⟩ := hpresets _ hqmem
    obtain ⟨m', rest', hs, rfl, hm', hend⟩ := presetValue?_eq_some hfound
    have hrest' := atWordEnd_iff.1 hend
    have hpne' := words_ne_nil_of_isPresetWord hpword hpne
    have hqne' := words_ne_nil_of_isPresetWord hqword hqne
    have hpm := hm.words_eq fun w hw => of_mem_words hw
    have hqm := hm'.words_eq fun w hw => of_mem_words hw
    rcases Nat.lt_trichotomy (words m').length (words m).length with hlt | heq | hlt
    · -- The shorter preset would have been tried after this one.
      have hpos := List.length_pos_iff.2 hqne'
      rw [hqm.length_eq] at hpos
      have hfront := isPrefix_words hs hrest hrest' (Nat.le_of_lt hlt)
      have hshorter := length_lt_of_isPrefix hpword hqword hfront hlt (List.length_pos_iff.1 hpos) hpm hqm
      have hseveral : 1 < (words p.toList).length := by
        rw [hpm.length_eq]
        omega
      have hspace := space_mem_of_isPresetWord hpword hseveral
      have hle := hmax p.toList (mem_spacedPresets.2 ⟨hspace, _, hp, rfl⟩) (by simp [hfinds])
      exact absurd hle (Nat.not_le_of_lt hshorter)
    · have hedged := isEdged_of_spacedAs hm hpne' fun w hw => of_mem_words hw
      have hedged' := isEdged_of_spacedAs hm' hqne' fun w hw => of_mem_words hw
      rw [eq_of_length_words hs hedged hedged' hrest hrest' heq.symm]
    · have hlonger : (words p.toList).length < (words q.1.toList).length := by
        rwa [hpm.length_eq, hqm.length_eq]
      have hfirst : AreFirstIn (words q.1.toList) (words (m ++ rest)) := by
        refine ⟨words m', ?_, hqm⟩
        rw [hs, words_append_of_startsBlank m' hrest']
        exact List.prefix_append _ _
      exact absurd hfirst (hlongest q hqmem hlonger)

end SearchBox.Query

import SearchBox.Proofs.Text.LowerCase
import SearchBox.Proofs.Text.Words

/-!
  SearchBox.Proofs.Text.Letterwise — what lower-casing keeps of a text. Each character becomes
  the same letter in lower case, with a dot after it where a capital I had one
  (`lowerFrom_cons`). So signs stay where they are and none is added (`eq_of_sameLetter_sign`,
  `exists_of_mem_lower`), and white space separates texts that are lower-cased each for itself
  (`lower_append_blank`): the words of a lower-cased text are its words, lower-cased
  (`words_lower`). Only a capital sigma looks at its neighbours: without one, a part of a text
  stays a part (`lower_isInfix`).
-/

namespace SearchBox.Text

/-! ## The same letter -/

theorem sameLetter_symm {a b : Char} (h : sameLetter a b = true) : sameLetter b a = true := by
  simp only [sameLetter, decide_eq_true_eq] at h ⊢
  exact h.symm

/-- Texts are the same letter by letter when their letters have the same keys. -/
theorem sameLetters_iff {a b : List Char} :
    List.Forall₂ (fun a b => sameLetter a b) a b ↔ a.map caselessKey = b.map caselessKey := by
  rw [← List.forall₂_eq_eq_eq, List.forall₂_map_left_iff, List.forall₂_map_right_iff]
  simp only [sameLetter, decide_eq_true_eq]

theorem sameLetter_lowerChar (c : Char) : sameLetter c (lowerChar c) = true := by
  simp only [sameLetter, caselessKey, decide_eq_true_eq, (isSettled_lowerChar c).fixed]

/-- The dot that is left of a capital I with a dot. -/
def combiningDot : Char := '\u0307'

/-- A character becomes the same letter, which may have a dot after it. -/
theorem lowerFrom_cons (afterCased : Bool) (c : Char) (s : List Char) :
    ∃ d after, sameLetter c d = true ∧
      (c ≠ 'İ' ∧ lowerFrom afterCased (c :: s) = d :: lowerFrom after s ∨
        c = 'İ' ∧ lowerFrom afterCased (c :: s) = d :: combiningDot :: lowerFrom after s) := by
  rw [lowerFrom]
  by_cases hsigma : c = 'Σ'
  · subst hsigma
    refine ⟨_, _, ?_, .inl ⟨by decide, rfl⟩⟩
    split <;> decide +kernel
  · by_cases hdotted : c = 'İ'
    · subst hdotted
      exact ⟨'i', _, by decide, .inr ⟨rfl, rfl⟩⟩
    · refine ⟨lowerChar c, if isCaseIgnorable c then afterCased else isCased c, sameLetter_lowerChar c,
        .inl ⟨hdotted, ?_⟩⟩
      simp only [if_neg hsigma, if_neg hdotted]

theorem exists_of_mem_lowerFrom {afterCased : Bool} {s : List Char} {d : Char} (h : d ∈ lowerFrom afterCased s) :
    d = combiningDot ∨ ∃ c ∈ s, sameLetter c d = true := by
  induction s generalizing afterCased with
  | nil => cases h
  | cons c s ih =>
    have later : ∀ {after}, d ∈ lowerFrom after s → d = combiningDot ∨ ∃ e ∈ c :: s, sameLetter e d = true := by
      intro after hd
      rcases ih hd with hdot | ⟨e, he, hsame⟩
      · exact .inl hdot
      · exact .inr ⟨e, List.mem_cons_of_mem _ he, hsame⟩
    obtain ⟨d', after, hsame, ⟨-, heq⟩ | ⟨-, heq⟩⟩ := lowerFrom_cons afterCased c s
    · rw [heq] at h
      rcases List.mem_cons.1 h with rfl | h
      · exact .inr ⟨c, List.mem_cons_self, hsame⟩
      · exact later h
    · rw [heq] at h
      rcases List.mem_cons.1 h with rfl | h
      · exact .inr ⟨c, List.mem_cons_self, hsame⟩
      · rcases List.mem_cons.1 h with rfl | h
        · exact .inl rfl
        · exact later h

/-- Lower-casing writes letters of the text, and dots. -/
theorem exists_of_mem_lower {s : List Char} {d : Char} (h : d ∈ lower s) :
    d = combiningDot ∨ ∃ c ∈ s, sameLetter c d = true :=
  exists_of_mem_lowerFrom h

/-- No letter gets lost. -/
theorem exists_mem_lower {s : List Char} {c : Char} (h : c ∈ s) : ∃ d ∈ lower s, sameLetter c d = true := by
  have hfrom : ∀ afterCased, ∃ d ∈ lowerFrom afterCased s, sameLetter c d = true := by
    induction s with
    | nil => cases h
    | cons e s ih =>
      intro afterCased
      obtain ⟨d, after, hsame, hcons⟩ := lowerFrom_cons afterCased e s
      rcases List.mem_cons.1 h with rfl | h
      · refine ⟨d, ?_, hsame⟩
        rcases hcons with ⟨-, heq⟩ | ⟨-, heq⟩ <;> simp [heq]
      · obtain ⟨d', hd', hsame'⟩ := ih h after
        refine ⟨d', ?_, hsame'⟩
        rcases hcons with ⟨-, heq⟩ | ⟨-, heq⟩ <;> simp [heq, hd']
  exact hfrom false

theorem sameLetters_lowerFrom {afterCased : Bool} {s : List Char} (h : combiningDot ∉ lowerFrom afterCased s) :
    List.Forall₂ (fun a b => sameLetter a b) s (lowerFrom afterCased s) := by
  induction s generalizing afterCased with
  | nil => exact .nil
  | cons c s ih =>
    obtain ⟨d, after, hsame, ⟨-, heq⟩ | ⟨-, heq⟩⟩ := lowerFrom_cons afterCased c s
    · rw [heq] at h ⊢
      exact .cons hsame (ih fun hdot => h (List.mem_cons_of_mem _ hdot))
    · rw [heq] at h
      simp at h

/-- Without dots, the lower-cased text is the text letter by letter. -/
theorem sameLetters_lower {s : List Char} (h : combiningDot ∉ lower s) :
    List.Forall₂ (fun a b => sameLetter a b) s (lower s) :=
  sameLetters_lowerFrom h

theorem sameLetter_congr {a b c : Char} (h : sameLetter b c = true) : sameLetter a b = sameLetter a c := by
  simp only [sameLetter, decide_eq_true_eq] at h
  simp only [sameLetter, h]

theorem dropCaseless?_lowerFrom {key s : List Char} (hkey : ∀ a ∈ key, sameLetter a combiningDot = false)
    (h : dropCaseless? key s = none) (afterCased : Bool) : dropCaseless? key (lowerFrom afterCased s) = none := by
  induction s generalizing key afterCased with
  | nil => exact h
  | cons c s ih =>
    cases key with
    | nil => cases h
    | cons a key =>
      obtain ⟨-, hlater⟩ := List.forall_mem_cons.1 hkey
      obtain ⟨d, after, hsame, hcons⟩ := lowerFrom_cons afterCased c s
      rw [dropCaseless?, sameLetter_congr hsame] at h
      rcases hcons with ⟨-, heq⟩ | ⟨-, heq⟩
      · rw [heq, dropCaseless?]
        split
        · rename_i had
          rw [if_pos had] at h
          exact ih hlater h after
        · rfl
      · rw [heq, dropCaseless?]
        split
        · rename_i had
          rw [if_pos had] at h
          cases key with
          | nil => cases h
          | cons b key => rw [dropCaseless?, (List.forall_mem_cons.1 hlater).1, if_neg Bool.false_ne_true]
        · rfl

/-- A key without dots that does not start a text does not start it lower-cased. -/
theorem dropCaseless?_lower {key s : List Char} (hkey : ∀ a ∈ key, sameLetter a combiningDot = false)
    (h : dropCaseless? key s = none) : dropCaseless? key (lower s) = none :=
  dropCaseless?_lowerFrom hkey h false

/-! ## Signs -/

/-- A character that shares no capital with another lower letter. -/
def isTwinless (m : Char) : Bool :=
  letterTwins.all fun t => t.1 ≠ m.toNat && t.2 ≠ m.toNat

/-- A character that the tables of letters do not know. -/
def isSign (m : Char) : Bool :=
  m ≠ 'İ' && isTwinless m && lowerRuns.all fun r => !(r.first ≤ m.toNat && m.toNat ≤ r.last) &&
    !((r.first + r.shift).toNat ≤ m.toNat && m.toNat ≤ (r.last + r.shift).toNat)

/-- A character that is the same letter as a lower one without twins has that one as its lower form. -/
theorem lowerChar_eq_of_sameLetter {c m : Char} (hm : isTwinless m = true) (hfixed : lowerChar m = m)
    (h : sameLetter c m = true) : lowerChar c = m := by
  simp only [isTwinless, List.all_eq_true, Bool.and_eq_true, decide_eq_true_eq] at hm
  have hkey : caselessKey m = m.toNat := by
    have hnone : letterTwins.lookup m.toNat = none :=
      List.lookup_eq_none_iff.2 fun t ht => bne_iff_ne.2 (Ne.symm (hm t ht).1)
    simp only [caselessKey, hfixed, hnone, Option.getD_none]
  simp only [sameLetter, decide_eq_true_eq, hkey] at h
  unfold caselessKey at h
  cases htwin : letterTwins.lookup (lowerChar c).toNat with
  | some n =>
    obtain ⟨l₁, l₂, hl, -⟩ := List.lookup_eq_some_iff.1 htwin
    simp only [htwin, Option.getD_some] at h
    exact absurd h (hm ((lowerChar c).toNat, n) (by simp [hl])).2
  | none =>
    simp only [htwin, Option.getD_none] at h
    exact Char.ext (UInt32.toNat_inj.1 h)

/-- A text of lower letters without twins is the only lower-cased one with the same letters. -/
theorem eq_of_sameLetters {s t : List Char} (h : List.Forall₂ (fun a b => sameLetter a b) s t)
    (hs : ∀ c ∈ s, lowerChar c = c ∧ isTwinless c = true) (ht : IsSettledText t) : s = t := by
  induction h with
  | nil => rfl
  | @cons a b s t hab _ ih =>
    obtain ⟨⟨hfixed, htwinless⟩, hs⟩ := List.forall_mem_cons.1 hs
    obtain ⟨hb, ht⟩ := List.forall_mem_cons.1 ht
    rw [← lowerChar_eq_of_sameLetter htwinless hfixed (sameLetter_symm hab), hb.fixed, ih hs ht]

/-- A character is its own lower form, or has one that stands on a run. -/
theorem lowerChar_eq_or_mem_run (c : Char) : lowerChar c = c ∨ ∃ r ∈ lowerRuns,
    (r.first + r.shift).toNat ≤ (lowerChar c).toNat ∧ (lowerChar c).toNat ≤ (r.last + r.shift).toNat := by
  by_cases hdotted : c = 'İ'
  · subst hdotted
    exact .inr ⟨⟨65, 90, 1, 32⟩, List.mem_cons_self, by decide, by decide⟩
  by_cases hshift : lowerShift lowerRuns c.toNat = 0
  · exact .inl (lowerChar_of_lowerShift_eq_zero hdotted hshift)
  · obtain ⟨r, hr, hfirst, hlast, -, hs⟩ := exists_mem_of_lowerShift_ne hshift
    have hvalid := List.all_eq_true.1 lowerRuns_isVisible r hr
    simp only [LowerRun.isVisible, Bool.and_eq_true, Bool.or_eq_true, decide_eq_true_eq] at hvalid
    have hchar : lowerChar c = Char.ofNat (c.toNat + r.shift).toNat := by
      unfold lowerChar
      rw [if_neg hdotted]
      split
      · rename_i hnone
        exact absurd hnone hshift
      · rw [hs]
    refine .inr ⟨r, hr, ?_⟩
    rw [hchar, toNat_ofNat_of_valid (by omega)]
    omega

/-- A sign is no other character in any case. -/
theorem eq_of_sameLetter_sign {c m : Char} (hm : isSign m = true) (h : sameLetter c m = true) : c = m := by
  simp only [isSign, Bool.and_eq_true, List.all_eq_true, Bool.not_eq_true', Bool.and_eq_false_iff,
    decide_eq_true_eq, decide_eq_false_iff_not] at hm
  obtain ⟨⟨hdotted, htwinless⟩, hruns⟩ := hm
  have hfixed : lowerChar m = m := by
    refine lowerChar_of_lowerShift_eq_zero hdotted ?_
    by_contra hshift
    obtain ⟨r, hr, hfirst, hlast, -⟩ := exists_mem_of_lowerShift_ne hshift
    have := (hruns r hr).1
    omega
  have hlower := lowerChar_eq_of_sameLetter htwinless hfixed h
  rcases lowerChar_eq_or_mem_run c with heq | ⟨r, hr, hlow, hhigh⟩
  · exact heq.symm.trans hlower
  · have := (hruns r hr).2
    rw [hlower] at hlow hhigh
    omega

/-- A sign of the lower-cased text stands in the text. -/
theorem mem_of_sign_mem_lower {s : List Char} {m : Char} (hm : isSign m = true) (hdot : m ≠ combiningDot)
    (h : m ∈ lower s) : m ∈ s := by
  rcases exists_of_mem_lower h with rfl | ⟨c, hc, hsame⟩
  · exact absurd rfl hdot
  · rwa [← eq_of_sameLetter_sign hm hsame]

/-! ## White space -/

theorem isBlank_of_mem_lower {s : List Char} (h : ∀ c ∈ s, isBlank c = false) : ∀ d ∈ lower s, isBlank d = false := by
  intro d hd
  rcases exists_of_mem_lower hd with rfl | ⟨c, hc, hsame⟩
  · decide
  · rw [← isBlank_eq_of_sameLetter hsame]
    exact h c hc

theorem IsSolid.lower {s : List Char} (h : IsSolid s) : IsSolid (lower s) :=
  ⟨fun hnil => h.1 (lower_eq_nil_iff.1 hnil), isBlank_of_mem_lower h.2⟩

theorem isBlankText_of_isBlankText_lower {s : List Char} (h : isBlankText (lower s) = true) : isBlankText s = true := by
  refine isBlankText_iff.2 fun c hc => ?_
  obtain ⟨d, hd, hsame⟩ := exists_mem_lower hc
  rw [isBlank_eq_of_sameLetter hsame]
  exact isBlankText_iff.1 h d hd

/-- White space has no case. -/
structure IsCaseless (c : Char) : Prop extends IsSettled c where
  notCased : isCased c = false
  notIgnorable : isCaseIgnorable c = false

theorem isCaseless_of_isBlank {c : Char} (h : isBlank c = true) : IsCaseless c := by
  have hdotted : c ≠ 'İ' := by
    rintro rfl
    exact absurd h (by decide)
  have hshift : lowerShift lowerRuns c.toNat = 0 := by
    by_contra hshift
    obtain ⟨r, hr, hfirst, hlast, -⟩ := exists_mem_of_lowerShift_ne hshift
    have hvisible := List.all_eq_true.1 lowerRuns_isVisible r hr
    simp only [LowerRun.isVisible, Bool.and_eq_true] at hvisible
    have hnot := covers_eq_false_of_avoids hvisible.1.1.1 hfirst hlast
    rw [isBlank, hnot] at h
    cases h
  refine ⟨⟨lowerChar_of_lowerShift_eq_zero hdotted hshift, ?_, hdotted⟩,
    covers_eq_false_of_disjoint (by decide +kernel) h, covers_eq_false_of_disjoint (by decide +kernel) h⟩
  rintro rfl
  exact absurd h (by decide)

theorem startsCased_append_blank {c : Char} (hc : isBlank c = true) (a s : List Char) :
    startsCased (a ++ c :: s) = startsCased a := by
  induction a with
  | nil =>
    have hcaseless := isCaseless_of_isBlank hc
    simp [startsCased, hcaseless.notCased, hcaseless.notIgnorable]
  | cons d a ih => rw [List.cons_append, startsCased, startsCased, ih]

/-- White space makes no case of what stands on one side of it for the other side. -/
theorem lowerFrom_append_blank {c : Char} (hc : isBlank c = true) (afterCased : Bool) (a s : List Char) :
    lowerFrom afterCased (a ++ c :: s) = lowerFrom afterCased a ++ c :: lowerFrom false s := by
  induction a generalizing afterCased with
  | nil =>
    have hcaseless := isCaseless_of_isBlank hc
    show lowerFrom afterCased (c :: s) = c :: lowerFrom false s
    rw [lowerFrom, if_neg hcaseless.ne_sigma, if_neg hcaseless.ne_dotted, hcaseless.fixed, hcaseless.notCased,
      if_neg (by simp [hcaseless.notIgnorable])]
  | cons d a ih =>
    rw [List.cons_append, lowerFrom, lowerFrom, startsCased_append_blank hc]
    simp only [ih]
    split
    · rfl
    · split <;> rfl

/-- The texts on both sides of white space are lower-cased each for itself. -/
theorem lower_append_blank {c : Char} (hc : isBlank c = true) (a s : List Char) :
    lower (a ++ c :: s) = lower a ++ c :: lower s :=
  lowerFrom_append_blank hc false a s

theorem lower_append_of_startsBlank (a : List Char) {rest : List Char} (h : StartsBlank rest) :
    lower (a ++ rest) = lower a ++ lower rest := by
  cases rest with
  | nil => simp [lower, lowerFrom]
  | cons c rest =>
    have hc : isBlank c = true := h c rfl
    have hrest := lower_append_blank hc [] rest
    rw [List.nil_append] at hrest
    rw [lower_append_blank hc, hrest]
    rfl

theorem startsBlank_lower {s : List Char} (h : StartsBlank s) : StartsBlank (lower s) := by
  cases s with
  | nil => exact h
  | cons c s =>
    have hc : isBlank c = true := h c rfl
    have hlower := lower_append_blank hc [] s
    rw [List.nil_append] at hlower
    rw [hlower]
    exact fun d hd => by cases hd; exact hc

theorem words_lower (s : List Char) : words (lower s) = (words s).map lower := by
  induction s using text_induction with
  | nil => rfl
  | blank c s hc ih =>
    have hlower := lower_append_blank hc [] s
    rw [List.nil_append] at hlower
    rw [hlower, words_of_isBlank hc, ← ih]
    exact words_of_isBlank hc _
  | word w rest hw hrest ih =>
    rw [lower_append_of_startsBlank w hrest, words_append_of_isSolid hw.lower (startsBlank_lower hrest),
      words_append_of_isSolid hw hrest, ih, List.map_cons]

/-- Joined texts are lower-cased each for itself. -/
theorem lower_joinWith_space (ts : List (List Char)) : lower (joinWith [' '] ts) = joinWith [' '] (ts.map lower) := by
  induction ts with
  | nil => rfl
  | cons t ts ih =>
    cases ts with
    | nil => rfl
    | cons u ts =>
      have hjoin : joinWith [' '] (t :: u :: ts) = t ++ ' ' :: joinWith [' '] (u :: ts) := by simp [joinWith]
      rw [hjoin, lower_append_blank (by decide), ih]
      simp [joinWith]

/-! ## Without capital sigmas -/

/-- The lower form of a character that stands alone. -/
def lowerAlone (c : Char) : List Char :=
  if c = 'İ' then ['i', combiningDot] else [lowerChar c]

/-- All but a capital sigma is lower-cased whatever stands around it. -/
theorem lower_of_not_mem {s : List Char} (h : 'Σ' ∉ s) : lower s = s.flatMap lowerAlone := by
  have hfrom : ∀ afterCased, lowerFrom afterCased s = s.flatMap lowerAlone := by
    induction s with
    | nil => exact fun _ => rfl
    | cons c s ih =>
      intro afterCased
      rw [List.mem_cons, not_or] at h
      rw [lowerFrom, if_neg (Ne.symm h.1), List.flatMap_cons, ih h.2, lowerAlone]
      by_cases hdotted : c = 'İ'
      · rw [if_pos hdotted, if_pos hdotted]
        rfl
      · rw [if_neg hdotted, if_neg hdotted]
        rfl
  exact hfrom false

/-- Without capital sigmas, what stands in a text stands in it lower-cased. -/
theorem lower_isInfix {a s : List Char} (hsub : a <:+: s) (hs : 'Σ' ∉ s) : lower a <:+: lower s := by
  obtain ⟨before, after, rfl⟩ := hsub
  have ha : 'Σ' ∉ a := fun h => hs (by simp [h])
  rw [lower_of_not_mem hs, lower_of_not_mem ha, List.flatMap_append, List.flatMap_append]
  exact ⟨_, _, rfl⟩

end SearchBox.Text

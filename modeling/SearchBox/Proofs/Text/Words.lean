import SearchBox.Proofs.Text.Caseless

/-!
  SearchBox.Proofs.Text.Words — texts word by word. Every text is built from its end by
  putting white space or a word in front (`text_induction`); a word in front of white space is
  one more word (`words_append_of_isSolid`), and white space separates the words on its two
  sides (`words_append_blank`).
-/

namespace SearchBox.Text

/-! ## Runs of characters -/

section Runs

variable {p : Char → Bool} {run u : List Char}

theorem takeWhile_run (hrun : ∀ c ∈ run, p c = true) (hu : ∀ c ∈ u.head?, p c = false) :
    (run ++ u).takeWhile p = run := by
  rw [List.takeWhile_append_of_pos hrun]
  cases u with
  | nil => simp
  | cons c u => simp [hu c rfl]

theorem dropWhile_run (hrun : ∀ c ∈ run, p c = true) (hu : ∀ c ∈ u.head?, p c = false) :
    (run ++ u).dropWhile p = u := by
  rw [List.dropWhile_append_of_pos hrun]
  cases u with
  | nil => rfl
  | cons c u => simp [hu c rfl]

end Runs

/-! ## Ends and white space -/

/-- Not empty, and visible at both ends. -/
def IsEdged (m : List Char) : Prop :=
  (∃ c ∈ m.head?, isBlank c = false) ∧ ∃ c ∈ m.getLast?, isBlank c = false

/-- Not empty, and visible throughout. -/
def IsSolid (m : List Char) : Prop :=
  m ≠ [] ∧ ∀ c ∈ m, isBlank c = false

theorem isSolid_iff {m : List Char} : IsSolid m ↔ (!m.isEmpty && m.all (!isBlank ·)) = true := by
  simp [IsSolid]

instance : DecidablePred IsSolid := fun _ => decidable_of_iff _ isSolid_iff.symm

theorem IsSolid.isEdged {m : List Char} (h : IsSolid m) : IsEdged m := by
  obtain ⟨hne, hvis⟩ := h
  exact ⟨⟨m.head hne, by simp [List.head?_eq_some_head hne], hvis _ (List.head_mem hne)⟩,
    ⟨m.getLast hne, by simp [List.getLast?_eq_some_getLast hne], hvis _ (List.getLast_mem hne)⟩⟩

theorem IsSolid.append {a b : List Char} (ha : IsSolid a) (hb : ∀ c ∈ b, isBlank c = false) : IsSolid (a ++ b) := by
  refine ⟨fun h => ha.1 (List.append_eq_nil_iff.1 h).1, fun c hc => ?_⟩
  rcases List.mem_append.1 hc with hc | hc
  · exact ha.2 c hc
  · exact hb c hc

/-- Whatever stands between them, two visible ends are the ends of the whole. -/
theorem IsEdged.join {a b : List Char} (ha : IsEdged a) (hb : IsEdged b) (between : List Char) :
    IsEdged (a ++ (between ++ b)) := by
  obtain ⟨⟨c, hc, hcv⟩, -⟩ := ha
  obtain ⟨-, d, hd, hdv⟩ := hb
  rw [Option.mem_def] at hc hd
  exact ⟨⟨c, by simp [List.head?_append, hc], hcv⟩, ⟨d, by simp [List.getLast?_append, hd], hdv⟩⟩

theorem IsSolid.of_sameLetters {key k : List Char} (h : List.Forall₂ (fun a b => sameLetter a b) key k)
    (hkey : IsSolid key) : IsSolid k := by
  refine ⟨fun hk => hkey.1 ?_, forall_isBlank_of_sameLetters h hkey.2⟩
  rw [hk] at h
  exact List.forall₂_nil_right_iff.1 h

/-- A visible character stands at a place. -/
def IsVisibleAt (s : List Char) (i : Nat) : Prop :=
  ∃ c ∈ s[i]?, isBlank c = false

theorem IsVisibleAt.lt {s : List Char} {i : Nat} (h : IsVisibleAt s i) : i < s.length := by
  obtain ⟨c, hc, -⟩ := h
  exact (List.getElem?_eq_some_iff.1 hc).1

theorem IsVisibleAt.append {m : List Char} {i : Nat} (h : IsVisibleAt m i) (pre rest : List Char) :
    IsVisibleAt (pre ++ (m ++ rest)) (pre.length + i) := by
  have hi := h.lt
  obtain ⟨c, hc, hv⟩ := h
  refine ⟨c, ?_, hv⟩
  rw [List.getElem?_append_right (by omega), Nat.add_sub_cancel_left, List.getElem?_append_left hi]
  exact hc

theorem IsEdged.isVisibleAt {m : List Char} (h : IsEdged m) :
    0 < m.length ∧ IsVisibleAt m 0 ∧ IsVisibleAt m (m.length - 1) := by
  obtain ⟨⟨c, hc, hcv⟩, d, hd, hdv⟩ := h
  rw [List.head?_eq_getElem?] at hc
  rw [List.getLast?_eq_getElem?] at hd
  have h0 : IsVisibleAt m 0 := ⟨c, hc, hcv⟩
  exact ⟨h0.lt, h0, d, hd, hdv⟩

theorem IsSolid.isVisibleAt {m : List Char} (h : IsSolid m) {i : Nat} (hi : i < m.length) : IsVisibleAt m i :=
  ⟨m[i], List.getElem?_eq_getElem hi, h.2 _ (List.getElem_mem hi)⟩

/-- Nothing, or white space first. -/
def StartsBlank (s : List Char) : Prop :=
  ∀ c ∈ s.head?, isBlank c = true

theorem startsBlank_nil : StartsBlank [] := fun c hc => by cases hc

theorem StartsBlank.append {s : List Char} (h : StartsBlank s) {t : List Char} (ht : StartsBlank t) :
    StartsBlank (s ++ t) := by
  cases s with
  | nil => exact ht
  | cons c s => exact h

theorem isBlankText_replicate (n : Nat) : isBlankText (List.replicate n ' ') = true := by
  rw [isBlankText_iff]
  intro c hc
  rw [List.eq_of_mem_replicate hc]
  decide

/-! ## Induction by words -/

theorem startsBlank_dropWhile (s : List Char) : StartsBlank (s.dropWhile (!isBlank ·)) := by
  intro c hc
  have := List.head?_dropWhile_not (!isBlank ·) s
  rw [Option.mem_def] at hc
  rw [hc] at this
  simpa using this

/-- A text that starts with a visible character starts with a word. -/
theorem exists_word_append {s : List Char} (h : ¬ StartsBlank s) :
    ∃ w rest, s = w ++ rest ∧ IsSolid w ∧ StartsBlank rest := by
  refine ⟨s.takeWhile (!isBlank ·), s.dropWhile (!isBlank ·), List.takeWhile_append_dropWhile.symm,
    ⟨fun hnil => h ?_, fun c hc => ?_⟩, startsBlank_dropWhile s⟩
  · have hrest := startsBlank_dropWhile s
    rwa [← List.nil_append (List.dropWhile _ s), ← hnil, List.takeWhile_append_dropWhile] at hrest
  · simpa using List.all_eq_true.1 List.all_takeWhile c hc

/-- A property of texts that white space in front keeps, and that a word in front of white
    space keeps, is one of all texts. -/
@[elab_as_elim]
theorem text_induction {P : List Char → Prop} (nil : P []) (blank : ∀ c s, isBlank c = true → P s → P (c :: s))
    (word : ∀ w rest, IsSolid w → StartsBlank rest → P rest → P (w ++ rest)) (s : List Char) : P s := by
  induction hn : s.length using Nat.strongRecOn generalizing s with
  | ind n ih =>
    by_cases hblank : StartsBlank s
    · cases s with
      | nil => exact nil
      | cons c s => exact blank c s (hblank c rfl) (ih s.length (by simp [← hn]) s rfl)
    · obtain ⟨w, rest, rfl, hw, hrest⟩ := exists_word_append hblank
      have hpos := List.length_pos_iff.2 hw.1
      rw [List.length_append] at hn
      exact word w rest hw hrest (ih rest.length (by omega) rest rfl)

/-! ## Words -/

theorem words_append_of_isSolid {w rest : List Char} (hw : IsSolid w) (hrest : StartsBlank rest) :
    words (w ++ rest) = w :: words rest := by
  obtain ⟨hne, hvis⟩ := hw
  induction w with
  | nil => exact absurd rfl hne
  | cons c w ih =>
    obtain ⟨hc, hvis⟩ := List.forall_mem_cons.1 hvis
    rw [List.cons_append, words, hc, if_neg Bool.false_ne_true]
    cases w with
    | nil =>
      cases rest with
      | nil => rfl
      | cons d rest =>
        have hd : isBlank d = true := hrest d rfl
        cases h : words (d :: rest) <;> simp [h, prependToWords, hd]
    | cons d w =>
      rw [ih (List.cons_ne_nil _ _) hvis, List.cons_append, prependToWords]
      simp [hvis d List.mem_cons_self]

theorem words_of_isSolid {w : List Char} (hw : IsSolid w) : words w = [w] := by
  have hwords := words_append_of_isSolid hw startsBlank_nil
  rwa [List.append_nil] at hwords

theorem words_eq_nil_of_isBlankText {s : List Char} (h : isBlankText s = true) : words s = [] := by
  induction s with
  | nil => rfl
  | cons c s ih =>
    obtain ⟨hc, hs⟩ := List.forall_mem_cons.1 (isBlankText_iff.1 h)
    rw [words_of_isBlank hc, ih (isBlankText_iff.2 hs)]

/-- White space separates the words before it from those after it. -/
theorem words_append_blank {c : Char} (hc : isBlank c = true) (a b : List Char) :
    words (a ++ c :: b) = words a ++ words b := by
  induction a using text_induction with
  | nil => exact words_of_isBlank hc b
  | blank d s hd ih => rw [List.cons_append, words_of_isBlank hd, words_of_isBlank hd, ih]
  | word w rest hw hrest ih =>
    rw [List.append_assoc, words_append_of_isSolid hw (hrest.append fun d hd => by cases hd; exact hc),
      words_append_of_isSolid hw hrest, ih, List.cons_append]

theorem words_append_of_startsBlank (a : List Char) {rest : List Char} (h : StartsBlank rest) :
    words (a ++ rest) = words a ++ words rest := by
  cases rest with
  | nil => rw [List.append_nil, words, List.append_nil]
  | cons c rest => rw [words_append_blank (h c rfl), words_of_isBlank (h c rfl)]

/-- Where a word can start, the words before and after are those of the two texts. -/
theorem words_append_of_wordStart {pre : List Char} (h : (pre.getLast?.map isBlank).getD true = true) (s : List Char) :
    words (pre ++ s) = words pre ++ words s := by
  rcases List.eq_nil_or_concat pre with rfl | ⟨init, c, rfl⟩
  · rfl
  · simp only [List.concat_eq_append, List.getLast?_append, List.getLast?_singleton, Option.some_or,
      Option.map_some, Option.getD_some] at h
    rw [List.concat_eq_append, List.append_assoc, List.singleton_append, words_append_blank h,
      words_append_blank h, words, List.append_nil]

theorem words_append_of_isBlankText (s : List Char) {gap : List Char} (h : isBlankText gap = true) :
    words (s ++ gap) = words s := by
  cases gap with
  | nil => rw [List.append_nil]
  | cons c gap =>
    obtain ⟨hc, hgap⟩ := List.forall_mem_cons.1 (isBlankText_iff.1 h)
    rw [words_append_blank hc, words_eq_nil_of_isBlankText (isBlankText_iff.2 hgap), List.append_nil]

theorem words_isBlankText_append {gap : List Char} (h : isBlankText gap = true) (s : List Char) :
    words (gap ++ s) = words s := by
  induction gap with
  | nil => rfl
  | cons c gap ih =>
    obtain ⟨hc, hgap⟩ := List.forall_mem_cons.1 (isBlankText_iff.1 h)
    rw [List.cons_append, words_of_isBlank hc, ih (isBlankText_iff.2 hgap)]

theorem words_stripStart (s : List Char) : words (stripStart s) = words s := by
  induction s with
  | nil => rfl
  | cons c s ih =>
    cases hc : isBlank c
    · simp [stripStart, hc]
    · rw [words_of_isBlank hc, ← ih, stripStart, List.dropWhile_cons, hc, if_pos rfl, stripStart]

theorem words_stripEnd (s : List Char) : words (stripEnd s) = words s := by
  have hsplit : s = stripEnd s ++ (s.reverse.takeWhile isBlank).reverse := by
    rw [stripEnd, ← List.reverse_append, List.takeWhile_append_dropWhile, List.reverse_reverse]
  have hgap : isBlankText (s.reverse.takeWhile isBlank).reverse = true :=
    isBlankText_iff.2 fun c hc => List.all_eq_true.1 List.all_takeWhile c (List.mem_reverse.1 hc)
  conv_rhs => rw [hsplit, words_append_of_isBlankText _ hgap]

theorem words_strip (s : List Char) : words (strip s) = words s := by
  rw [strip, words_stripEnd, words_stripStart]

theorem strip_of_isEdged {m : List Char} (h : IsEdged m) : strip m = m := by
  have hkeep : ∀ {t : List Char}, (∃ c ∈ t.head?, isBlank c = false) → t.dropWhile isBlank = t := by
    rintro (_ | ⟨c, t⟩) ⟨d, hd, hvisible⟩
    · rfl
    · cases hd
      rw [List.dropWhile_cons, hvisible, if_neg Bool.false_ne_true]
  obtain ⟨hfirst, hlast⟩ := h
  rw [← List.head?_reverse] at hlast
  rw [strip, stripStart, hkeep hfirst, stripEnd, hkeep hlast, List.reverse_reverse]

/-! ## Joined texts -/

theorem joinWith_cons (separator t : List Char) {ts : List (List Char)} (h : ts ≠ []) :
    joinWith separator (t :: ts) = t ++ separator ++ joinWith separator ts := by
  rw [joinWith]
  exact h

theorem intercalate_eq_joinWith (separator : List Char) (ts : List (List Char)) :
    separator.intercalate ts = joinWith separator ts := by
  induction ts with
  | nil => rfl
  | cons t ts ih =>
    cases ts with
    | nil => simp [joinWith]
    | cons u ts => rw [List.intercalate_cons_cons, ih, joinWith_cons _ _ (List.cons_ne_nil u ts)]

theorem words_joinWith {ts : List (List Char)} (h : ∀ t ∈ ts, IsSolid t) : words (joinWith [' '] ts) = ts := by
  induction ts with
  | nil => rfl
  | cons t ts ih =>
    obtain ⟨ht, hts⟩ := List.forall_mem_cons.1 h
    cases ts with
    | nil => exact words_of_isSolid ht
    | cons u ts =>
      rw [joinWith_cons _ _ (List.cons_ne_nil _ _), List.append_assoc,
        words_append_of_isSolid ht fun c hc => by cases hc; decide]
      exact congrArg _ (ih hts)

/-- What is joined stands in the whole. -/
theorem isInfix_joinWith {separator t : List Char} {ts : List (List Char)} (h : t ∈ ts) : t <:+: joinWith separator ts := by
  induction ts with
  | nil => cases h
  | cons u ts ih =>
    by_cases hts : ts = []
    · subst hts
      rw [List.mem_singleton.1 h]
      exact List.infix_refl _
    · rw [joinWith_cons separator u hts]
      rcases List.mem_cons.1 h with rfl | h
      · exact ((List.prefix_append _ _).trans (List.prefix_append _ _)).isInfix
      · exact (ih h).trans (List.suffix_append _ _).isInfix

theorem occursIn_iff {needle s : List Char} : occursIn needle s = true ↔ needle <:+: s := by
  induction s with
  | nil => rw [occursIn, List.isEmpty_iff, List.infix_nil]
  | cons c s ih => rw [occursIn, Bool.or_eq_true, ih, List.isPrefixOf_iff_prefix, List.infix_cons_iff]

/-! ## Characters of words -/

theorem mem_of_mem_words {s w : List Char} (h : w ∈ words s) {c : Char} (hc : c ∈ w) : c ∈ s := by
  induction s using text_induction with
  | nil => cases h
  | blank d s hd ih =>
    rw [words_of_isBlank hd] at h
    exact List.mem_cons_of_mem _ (ih h)
  | word v rest hv hrest ih =>
    rw [words_append_of_isSolid hv hrest] at h
    rcases List.mem_cons.1 h with rfl | h
    · exact List.mem_append_left _ hc
    · exact List.mem_append_right _ (ih h)

/-- What is visible stands in a word. -/
theorem exists_mem_words {s : List Char} {c : Char} (h : c ∈ s) (hc : isBlank c = false) : ∃ w ∈ words s, c ∈ w := by
  induction s using text_induction with
  | nil => cases h
  | blank d s hd ih =>
    rw [words_of_isBlank hd]
    rcases List.mem_cons.1 h with rfl | h
    · rw [hd] at hc
      cases hc
    · exact ih h
  | word v rest hv hrest ih =>
    rw [words_append_of_isSolid hv hrest]
    rcases List.mem_append.1 h with h | h
    · exact ⟨v, List.mem_cons_self, h⟩
    · obtain ⟨w, hw, hcw⟩ := ih h
      exact ⟨w, List.mem_cons_of_mem _ hw, hcw⟩

/-- A visible character that stands in no word stands nowhere. -/
theorem not_mem_of_words {s : List Char} {c : Char} (hc : isBlank c = false) (h : ∀ w ∈ words s, c ∉ w) : c ∉ s := by
  intro hmem
  obtain ⟨w, hw, hcw⟩ := exists_mem_words hmem hc
  exact h w hw hcw

theorem mem_joinWith {separator : List Char} {ts : List (List Char)} {c : Char} (h : c ∈ joinWith separator ts) :
    c ∈ separator ∨ ∃ t ∈ ts, c ∈ t := by
  induction ts with
  | nil => cases h
  | cons t ts ih =>
    cases ts with
    | nil => exact .inr ⟨t, List.mem_cons_self, h⟩
    | cons u ts =>
      rw [joinWith, List.mem_append, List.mem_append] at h
      · rcases h with (h | h) | h
        · exact .inr ⟨t, List.mem_cons_self, h⟩
        · exact .inl h
        · exact (ih h).imp id fun ⟨v, hv, hc⟩ => ⟨v, List.mem_cons_of_mem _ hv, hc⟩
      · exact List.cons_ne_nil _ _

end SearchBox.Text

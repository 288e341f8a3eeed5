import SearchBox.Proofs.Query.Spans

/-!
  SearchBox.Proofs.Query.Leftovers — the words that no rule has taken, and the books of the
  lexer as a whole. Words are placed where they stand (`isRun_of_mem_placedWords`), each once
  (`pairwise_placedWords`), and none is missed (`exists_mem_placedWords`). Hence the accounting
  (`tokenize_accounts`): tokens lie in the query and apart, or around earlier ones where their
  kind allows it, and a run of the query outside of all tokens holds nothing to search for.
-/

namespace SearchBox.Query

open SearchBox.Text

/-! ## Runs -/

/-- A longest run of places with a property, up to but without `q`. -/
structure IsRun (P : Nat → Prop) (p q : Nat) : Prop where
  lt : p < q
  holds : ∀ i, p ≤ i → i < q → P i
  before : ∀ i, i + 1 = p → ¬ P i
  after : ¬ P q

theorem IsRun.eq_of_mem {P : Nat → Prop} {p q p' q' i : Nat} (h : IsRun P p q) (h' : IsRun P p' q')
    (hi : p ≤ i ∧ i < q) (hi' : p' ≤ i ∧ i < q') : p = p' ∧ q = q' := by
  have start : ∀ {p q p' q' : Nat}, IsRun P p q → IsRun P p' q' → p ≤ i ∧ i < q → p' ≤ i ∧ i < q' → ¬ p < p' := by
    intro p q p' q' h h' hi hi' hlt
    exact h'.before (p' - 1) (by omega) (h.holds (p' - 1) (by omega) (by omega))
  have stop : ∀ {p q p' q' : Nat}, IsRun P p q → IsRun P p' q' → p ≤ i ∧ i < q → p' ≤ i ∧ i < q' → ¬ q < q' := by
    intro p q p' q' h h' hi hi' hlt
    exact h.after (h'.holds q (by omega) hlt)
  have := start h h' hi hi'
  have := start h' h hi' hi
  have := stop h h' hi hi'
  have := stop h' h hi' hi
  omega

theorem isVisibleAt_append_right (pre : List Char) {s : List Char} {i : Nat} :
    IsVisibleAt (pre ++ s) (pre.length + i) ↔ IsVisibleAt s i := by
  unfold IsVisibleAt
  rw [List.getElem?_append_right (by omega), Nat.add_sub_cancel_left]

/-- A run of the rest of a text is one of the text, unless it starts where what is put before it
    is visible. -/
theorem IsRun.shift (pre : List Char) {s : List Char} {p q : Nat} (h : IsRun (IsVisibleAt s) p q)
    (hstart : p = 0 → ∀ i, i + 1 = pre.length → ¬ IsVisibleAt (pre ++ s) i) :
    IsRun (IsVisibleAt (pre ++ s)) (pre.length + p) (pre.length + q) := by
  refine ⟨by have := h.lt; omega, fun i hi hlt => ?_, fun i hi => ?_, ?_⟩
  · rw [show i = pre.length + (i - pre.length) by omega]
    exact (isVisibleAt_append_right pre).2 (h.holds _ (by omega) (by omega))
  · rcases Nat.eq_zero_or_pos p with hp | hp
    · exact hstart hp i (by omega)
    · rw [show i = pre.length + (p - 1) by omega]
      exact fun hv => h.before (p - 1) (by omega) ((isVisibleAt_append_right pre).1 hv)
  · exact fun hv => h.after ((isVisibleAt_append_right pre).1 hv)

theorem not_isVisibleAt_zero {s : List Char} (h : StartsBlank s) : ¬ IsVisibleAt s 0 := by
  rintro ⟨c, hc, hv⟩
  rw [h c (by rwa [List.head?_eq_getElem?])] at hv
  cases hv

theorem isRun_of_isSolid {w rest : List Char} (hw : IsSolid w) (hrest : StartsBlank rest) :
    IsRun (IsVisibleAt (w ++ rest)) 0 w.length := by
  refine ⟨List.length_pos_iff.2 hw.1, fun i _ hi => ?_, fun i hi => by omega, ?_⟩
  · simpa using (hw.isVisibleAt hi).append [] rest
  · exact fun hv => not_isVisibleAt_zero hrest ((isVisibleAt_append_right w (i := 0)).1 hv)

/-! ## Placed words -/

theorem placedWords_of_isBlank {c : Char} (hc : isBlank c = true) (place : Nat) (s : List Char) :
    placedWords place [] (c :: s) = placedWords (place + 1) [] s := by
  simp [placedWords, hc]

theorem placedWords_append {w rest : List Char} (hw : ∀ c ∈ w, isBlank c = false) (hrest : StartsBlank rest)
    (place : Nat) (word : List Char) (hne : word.reverse ++ w ≠ []) :
    placedWords place word (w ++ rest) =
      (word.reverse ++ w, place - word.length) :: placedWords (place + w.length) [] rest := by
  induction w generalizing place word with
  | nil =>
    have hword : word ≠ [] := by simpa using hne
    cases rest with
    | nil => simp [placedWords, hword]
    | cons c rest =>
      have hc : isBlank c = true := hrest c rfl
      simp [placedWords, hc, hword]
  | cons c w ih =>
    obtain ⟨hc, hw⟩ := List.forall_mem_cons.1 hw
    rw [List.cons_append, placedWords, hc, if_neg Bool.false_ne_true, ih hw (place + 1) (c :: word) (by simp)]
    simp only [List.reverse_cons, List.append_assoc, List.singleton_append, List.length_cons,
      Nat.add_sub_add_right, Nat.add_assoc, Nat.add_comm 1]

theorem placedWords_of_isSolid {w rest : List Char} (hw : IsSolid w) (hrest : StartsBlank rest) (place : Nat) :
    placedWords place [] (w ++ rest) = (w, place) :: placedWords (place + w.length) [] rest := by
  simpa using placedWords_append hw.2 hrest place [] (by simpa using hw.1)

theorem map_fst_placedWords (place : Nat) (s : List Char) : (placedWords place [] s).map (·.1) = words s := by
  induction s using text_induction generalizing place with
  | nil => rfl
  | blank c s hc ih => rw [placedWords_of_isBlank hc, words_of_isBlank hc, ih]
  | word w rest hw hrest ih =>
    rw [placedWords_of_isSolid hw hrest, words_append_of_isSolid hw hrest, List.map_cons, ih]

/-- A word stands where it is placed, and takes up the whole run there. -/
theorem isRun_of_mem_placedWords {place : Nat} {s w : List Char} {n : Nat} (h : (w, n) ∈ placedWords place [] s) :
    ∃ p, n = place + p ∧ IsRun (IsVisibleAt s) p (p + w.length) ∧ (s.drop p).take w.length = w := by
  induction s using text_induction generalizing place with
  | nil => cases h
  | blank c s hc ih =>
    rw [placedWords_of_isBlank hc] at h
    obtain ⟨p, rfl, hrun, htake⟩ := ih h
    refine ⟨1 + p, by omega, ?_, by simpa [Nat.add_comm 1] using htake⟩
    rw [Nat.add_assoc]
    refine hrun.shift [c] fun _ i hi => ?_
    rintro ⟨d, hd, hv⟩
    rw [show i = 0 by simpa using hi] at hd
    cases hd
    rw [hc] at hv
    cases hv
  | word v rest hv hrest ih =>
    rw [placedWords_of_isSolid hv hrest] at h
    rcases List.mem_cons.1 h with h | h
    · cases h
      exact ⟨0, rfl, by simpa using isRun_of_isSolid hv hrest, by simp⟩
    · obtain ⟨p, rfl, hrun, htake⟩ := ih h
      refine ⟨v.length + p, by omega, ?_, by rwa [← List.drop_drop, List.drop_left]⟩
      rw [Nat.add_assoc]
      refine hrun.shift v fun hp => absurd (hrun.holds p (Nat.le_refl _) hrun.lt) ?_
      rw [hp]
      exact not_isVisibleAt_zero hrest

theorem exists_mem_placedWords (place : Nat) {s : List Char} {i : Nat} (h : IsVisibleAt s i) :
    ∃ w n, (w, n) ∈ placedWords place [] s ∧ n ≤ place + i ∧ place + i < n + w.length := by
  induction s using text_induction generalizing place i with
  | nil =>
    obtain ⟨c, hc, -⟩ := h
    simp at hc
  | blank c s hc ih =>
    rw [placedWords_of_isBlank hc]
    cases i with
    | zero =>
      exact absurd h (not_isVisibleAt_zero fun d hd => by cases hd; exact hc)
    | succ i =>
      have := ih (place + 1) ((isVisibleAt_append_right [c]).1 (by simpa [Nat.add_comm 1] using h))
      simpa [Nat.add_assoc, Nat.add_comm 1] using this
  | word v rest hv hrest ih =>
    rw [placedWords_of_isSolid hv hrest]
    by_cases hi : i < v.length
    · exact ⟨v, place, List.mem_cons_self, by omega, by omega⟩
    · rw [show i = v.length + (i - v.length) by omega] at h ⊢
      obtain ⟨w, n, hmem, hle, hlt⟩ := ih (place + v.length) ((isVisibleAt_append_right v).1 h)
      exact ⟨w, n, List.mem_cons_of_mem _ hmem, by omega, by omega⟩

theorem pairwise_placedWords (place : Nat) (s : List Char) :
    (placedWords place [] s).Pairwise fun a b => a.2 + a.1.length ≤ b.2 := by
  induction s using text_induction generalizing place with
  | nil => exact .nil
  | blank c s hc ih =>
    rw [placedWords_of_isBlank hc]
    exact ih _
  | word v rest hv hrest ih =>
    rw [placedWords_of_isSolid hv hrest]
    refine List.pairwise_cons.2 ⟨fun ⟨w, n⟩ hb => ?_, ih _⟩
    obtain ⟨p, rfl, -⟩ := isRun_of_mem_placedWords hb
    show place + v.length ≤ place + v.length + p
    omega

/-! ## Terms -/

theorem termOf?_eq_some {w : List Char} {n : Nat} {t : Token} (h : termOf? w n = some t) :
    t.kind = .term ∧ t.start = n ∧ t.stop = n + w.length := by
  simp only [termOf?] at h
  split at h
  · cases h
  · cases h
    exact ⟨rfl, rfl, rfl⟩

def termsOf (s : List Char) : List Token :=
  (placedWords 0 [] s).filterMap fun (word, place) => termOf? word place

theorem tokensOf_eq (lexicon : Lexicon) (s : List Char) :
    tokensOf lexicon s =
      (sweepAll (rules lexicon) s).1 ++ termsOf (blanked (sweepAll (rules lexicon) s).1 s) := by
  rw [← sweepAll_blanks fun r hr => (rules_take lexicon hr).1, tokensOf]
  cases sweepAll (rules lexicon) s
  rfl

/-- A term is a word of its text, all of it. -/
theorem exists_of_mem_termsOf {s : List Char} {t : Token} (h : t ∈ termsOf s) :
    ∃ w, termOf? w t.start = some t ∧ t.stop = t.start + w.length ∧ IsRun (IsVisibleAt s) t.start t.stop ∧
      (s.drop t.start).take w.length = w := by
  obtain ⟨⟨w, n⟩, hmem, ht⟩ := List.mem_filterMap.1 h
  obtain ⟨-, hstart, hstop⟩ := termOf?_eq_some ht
  obtain ⟨p, rfl, hrun, htake⟩ := isRun_of_mem_placedWords hmem
  rw [Nat.zero_add] at hstart hstop ht
  exact ⟨w, by rwa [hstart], by rw [hstart, hstop], by rwa [hstart, hstop], by rwa [hstart]⟩

theorem isWithin_of_mem_termsOf {s : List Char} {t : Token} (h : t ∈ termsOf s) : t.IsWithin s ∧ t.IsSolidIn s := by
  obtain ⟨w, -, -, hrun, -⟩ := exists_of_mem_termsOf h
  have hlt := hrun.lt
  have hlast := hrun.holds (t.stop - 1) (by omega) (by omega)
  have := hlast.lt
  exact ⟨⟨hlt, by omega, hrun.holds _ (Nat.le_refl _) hlt, hlast⟩, hrun.holds⟩

theorem pairwise_termsOf (s : List Char) : (termsOf s).Pairwise Token.IsApart := by
  refine List.Pairwise.filterMap _ (fun a b hab t ht u hu => ?_) (pairwise_placedWords 0 s)
  obtain ⟨-, -, ha⟩ := termOf?_eq_some ht
  obtain ⟨-, hb, -⟩ := termOf?_eq_some hu
  refine .inl ?_
  rw [ha, hb]
  exact hab

/-! ## The books -/

/-- A visible character stands at a place outside of all tokens. -/
def IsLoose (s : List Char) (ts : List Token) (i : Nat) : Prop :=
  IsVisibleAt s i ∧ isCovered ts i = false

theorem isLoose_append_iff {s : List Char} {ts us : List Token} {i : Nat} :
    IsLoose s (ts ++ us) i ↔ IsLoose (blanked ts s) us i := by
  unfold IsLoose
  rw [isVisibleAt_blanked_iff, isCovered_append, Bool.or_eq_false_iff]
  tauto

/-- A run without its quotes that says nothing to search for. -/
def IsLeftOver (bare : List Char) : Prop :=
  bare = [] ∨ (∀ c ∈ bare, c = '-' ∨ c = '|') ∨ bare = ['#'] ∨
    ∃ key ∈ fieldKeys, ∃ k, bare = k ++ [':'] ∧ List.Forall₂ (fun a b => sameLetter a b) key.toList k

/-- A word is no term just if it says nothing without its quotes. -/
theorem termOf?_eq_none_iff {w : List Char} {n : Nat} : termOf? w n = none ↔ IsLeftOver (w.filter (!isQuote ·)) := by
  simp only [termOf?, ite_eq_left_iff, reduceCtorEq, imp_false, not_not, isDebris, Bool.or_eq_true,
    Bool.and_eq_true, Bool.not_eq_true', List.any_eq_true, List.all_eq_true, decide_eq_true_eq, List.isEmpty_iff]
  constructor
  · rintro (h | (⟨-, h⟩ | h) | ⟨key, hkey, h⟩)
    · exact .inl h
    · exact .inr (.inl h)
    · exact .inr (.inr (.inl h))
    · exact .inr (.inr (.inr ⟨key, hkey, dropCaseless?_eq_some_iff.1 h⟩))
  · rintro (h | h | h | ⟨key, hkey, h⟩)
    · exact .inl h
    · by_cases hempty : w.filter (!isQuote ·) = []
      · exact .inl hempty
      · exact .inr (.inl (.inl ⟨by simpa using hempty, h⟩))
    · exact .inr (.inl (.inr h))
    · exact .inr (.inr ⟨key, hkey, dropCaseless?_eq_some_iff.2 h⟩)

/-- A word that says something without its quotes is a term. -/
theorem termOf?_of_not_isLeftOver {w : List Char} (n : Nat) (h : ¬ IsLeftOver (w.filter (!isQuote ·))) :
    termOf? w n = some ⟨.term, [String.ofList (lower (w.filter (!isQuote ·)))], n, n + w.length⟩ := by
  rw [← termOf?_eq_none_iff (n := n)] at h
  simp only [termOf?] at h ⊢
  split
  · rename_i hnone
    exact absurd (if_pos hnone) h
  · rfl

theorem filter_isQuote_of_not_mem {w : List Char} (h : '"' ∉ w) : w.filter (!isQuote ·) = w := by
  refine List.filter_eq_self.2 fun c hc => ?_
  have hne : c ≠ '"' := fun heq => h (heq ▸ hc)
  simp [isQuote, hne]

/-- A run outside of all terms is a word that is none. -/
theorem isLeftOver_of_isRun {s : List Char} {p q : Nat} (h : IsRun (IsLoose s (termsOf s)) p q) :
    IsLeftOver (((s.drop p).take (q - p)).filter (!isQuote ·)) := by
  have hp := h.holds p (Nat.le_refl _) h.lt
  obtain ⟨w, n, hmem, hle, hlt⟩ := exists_mem_placedWords 0 hp.1
  obtain ⟨n, rfl, hrun, htake⟩ := isRun_of_mem_placedWords hmem
  have hnone : termOf? w (0 + n) = none := by
    rw [Option.eq_none_iff_forall_not_mem]
    intro t ht
    obtain ⟨-, hstart, hstop⟩ := termOf?_eq_some ht
    have hmem' : t ∈ termsOf s := List.mem_filterMap.2 ⟨(w, 0 + n), hmem, ht⟩
    have hcov : isCovered (termsOf s) p = true := isCovered_iff.2 ⟨t, hmem', by omega, by omega⟩
    rw [hp.2] at hcov
    cases hcov
  -- A term that covers a place of the word would be the word itself.
  have hloose : IsRun (IsLoose s (termsOf s)) n (n + w.length) := by
    refine ⟨hrun.lt, fun i hi hlt => ⟨hrun.holds i hi hlt, ?_⟩, fun i hi hl => hrun.before i hi hl.1,
      fun hl => hrun.after hl.1⟩
    rw [Bool.eq_false_iff, Ne, isCovered_iff]
    rintro ⟨t, ht, hin⟩
    obtain ⟨v, hterm, hstop, hrun', htake'⟩ := exists_of_mem_termsOf ht
    obtain ⟨hstart, hend⟩ := hrun.eq_of_mem hrun' ⟨hi, hlt⟩ hin
    have hlen : w.length = v.length := by omega
    rw [← hstart, ← hlen, htake] at htake'
    rw [← hstart, ← htake', show n = 0 + n by omega, hnone] at hterm
    cases hterm
  obtain ⟨rfl, rfl⟩ := h.eq_of_mem hloose ⟨Nat.le_refl _, h.lt⟩ (by omega)
  rw [Nat.add_sub_cancel_left, htake]
  exact termOf?_eq_none_iff.1 hnone

theorem take_drop_blanked {ts : List Token} {p q : Nat} (h : ∀ i, p ≤ i → i < q → isCovered ts i = false)
    (s : List Char) : ((blanked ts s).drop p).take (q - p) = (s.drop p).take (q - p) := by
  refine List.ext_getElem? fun i => ?_
  simp only [List.getElem?_take, List.getElem?_drop, getElem?_blanked]
  split
  · rw [h (p + i) (by omega) (by omega)]
    simp
  · rfl

theorem mem_of_isPorous {k : TokenKind} (h : k.isPorous = true) (hne : k ≠ .excludedPhrase) :
    k ∈ [TokenKind.phrase, .choice, .date] := by
  cases k <;> simp_all [TokenKind.isPorous]

/-- Excluded phrases are read first, so that no other token can have been read before them. -/
theorem kind_ne_of_mem_tail_rules (lexicon : Lexicon) {r : TokenKind × Rule} (hr : r ∈ (rules lexicon).tail) :
    r.1 ≠ .excludedPhrase := by
  simp only [rules, List.tail_cons, List.mem_cons, List.not_mem_nil, or_false] at hr
  rcases hr with rfl | rfl | rfl | rfl | rfl | rfl | rfl | rfl | rfl | rfl | rfl <;> exact TokenKind.noConfusion

/-- The tokens of a query lie in it and are visible at both ends. Of two tokens, the later one
    lies apart from the earlier one or, if it is a phrase, a choice or a date, around it. What
    is visible outside of all tokens is quotes, operators and field keys without a value. -/
theorem tokenize_accounts (lexicon : Lexicon) (query : String) :
    (∀ t ∈ tokenize lexicon query, t.IsWithin query.toList) ∧
    (tokenize lexicon query).Pairwise (fun a b =>
      a.IsApart b ∨ a.IsInside b ∧ b.kind ∈ [TokenKind.phrase, .choice, .date]) ∧
    ∀ p q, IsRun (IsLoose query.toList (tokenize lexicon query)) p q →
      IsLeftOver (((query.toList.drop p).take (q - p)).filter (!isQuote ·)) := by
  unfold tokenize
  generalize query.toList = s
  have hrules := fun r (hr : r ∈ rules lexicon) => rules_take lexicon hr
  rw [tokensOf_eq]
  refine ⟨fun t ht => ?_, List.pairwise_append.2 ⟨?_, ?_, fun a ha b hb => ?_⟩, fun p q h => ?_⟩
  · rcases List.mem_append.1 ht with ht | ht
    · exact (isWithin_of_mem_sweepAll hrules ht).1
    · exact (isWithin_of_mem_termsOf ht).1.of_blanked
  · refine (pairwise_sweepAll hrules s).imp fun h => h.imp id fun ⟨hin, hporous, r, hr, hk⟩ => ⟨hin, ?_⟩
    exact mem_of_isPorous hporous (hk ▸ kind_ne_of_mem_tail_rules lexicon hr)
  · exact (pairwise_termsOf _).imp .inl
  · obtain ⟨hin, hsolid⟩ := isWithin_of_mem_termsOf hb
    rcases Token.isApart_or_isInside ha (isWithin_of_mem_sweepAll hrules ha).1.lt hin with h | ⟨-, hnot⟩
    · exact .inl h
    · exact absurd hsolid hnot
  · have heq : IsLoose s ((sweepAll (rules lexicon) s).1 ++ termsOf (blanked (sweepAll (rules lexicon) s).1 s)) = _ :=
      funext fun i => propext isLoose_append_iff
    rw [heq] at h
    rw [← take_drop_blanked fun i hi hlt => (isVisibleAt_blanked_iff.1 (h.holds i hi hlt).1).1]
    exact isLeftOver_of_isRun h

end SearchBox.Query

import Mathlib.Data.List.Forall2
import SearchBox.Text.Blank
import SearchBox.Text.Caseless
import SearchBox.Text.Word

/-!
  SearchBox.Proofs.Text.Caseless — white space is apart from letters: a character that is the
  same letter as another is white space only if the other is (`isBlank_eq_of_sameLetter`), and
  no character of a name is white space (`isBlank_eq_false_of_isWordChar`). What a text compared
  whatever the case takes off the front is as long as the text and letter by letter the same
  (`dropCaseless?_eq_some_iff`).
-/

namespace SearchBox.Text

/-! ## Ranges -/

/-- Whether no range of a class meets the code points from `first` to `last`. -/
def avoids (ranges : List (Nat × Nat)) (first last : Nat) : Bool :=
  ranges.all fun r => last < r.1 || r.2 < first

theorem covers_eq_false_of_avoids {ranges : List (Nat × Nat)} {first last n : Nat}
    (h : avoids ranges first last = true) (hfirst : first ≤ n) (hlast : n ≤ last) : covers ranges n = false := by
  cases hc : covers ranges n
  · rfl
  · obtain ⟨r, hr, h1, h2⟩ := exists_mem_of_covers hc
    have := List.all_eq_true.1 h r hr
    simp only [Bool.or_eq_true, decide_eq_true_eq] at this
    omega

/-- Two classes share no character when each range of one avoids the other. -/
theorem covers_eq_false_of_disjoint {ranges others : List (Nat × Nat)} {n : Nat}
    (h : (ranges.all fun r => avoids others r.1 r.2) = true) (hn : covers ranges n = true) :
    covers others n = false := by
  obtain ⟨r, hr, h1, h2⟩ := exists_mem_of_covers hn
  exact covers_eq_false_of_avoids (List.all_eq_true.1 h r hr) h1 h2

/-! ## Names -/

theorem isBlank_eq_false_of_isWordChar {c : Char} (h : isWordChar c = true) : isBlank c = false := by
  simp only [isWordChar, Bool.or_eq_true, decide_eq_true_eq] at h
  rcases h with (h | h) | rfl
  · exact covers_eq_false_of_disjoint (by decide +kernel) h
  · exact covers_eq_false_of_disjoint (by decide) h
  · rfl

/-! ## Letters in any case -/

/-- Whether a run and its lower forms avoid white space, and the lower forms are characters. -/
def LowerRun.isVisible (r : LowerRun) : Bool :=
  avoids blankRanges r.first r.last && 0 < r.first + r.shift &&
    avoids blankRanges (r.first + r.shift).toNat (r.last + r.shift).toNat &&
    (r.last + r.shift < 55296 || 57344 ≤ r.first + r.shift && r.last + r.shift < 1114112)

theorem lowerRuns_isVisible : lowerRuns.all LowerRun.isVisible = true := by
  decide

/-- A code point with a lower form stands on one of the runs. -/
theorem exists_mem_of_lowerShift_ne {runs : List LowerRun} {n : Nat} (h : lowerShift runs n ≠ 0) :
    ∃ r ∈ runs, r.first ≤ n ∧ n ≤ r.last ∧ (n - r.first) % r.step = 0 ∧ lowerShift runs n = r.shift := by
  induction runs with
  | nil => exact absurd rfl h
  | cons r later ih =>
    rw [lowerShift] at h ⊢
    split
    · simp_all
    · rename_i hlow
      split
      · rename_i hin
        exact ⟨r, List.mem_cons_self, by omega, hin.1, hin.2, rfl⟩
      · rename_i hout
        rw [if_neg hlow, if_neg hout] at h
        obtain ⟨q, hq, hn⟩ := ih h
        exact ⟨q, List.mem_cons_of_mem _ hq, hn⟩

theorem toNat_ofNat_of_valid {n : Nat} (h : n < 55296 ∨ 57344 ≤ n ∧ n < 1114112) : (Char.ofNat n).toNat = n := by
  have hv : n.isValidChar := by
    unfold Nat.isValidChar
    omega
  rw [Char.ofNat, dif_pos hv]
  rfl

theorem isBlank_lowerChar (c : Char) : isBlank (lowerChar c) = isBlank c := by
  unfold lowerChar
  split
  · rename_i h
    subst h
    decide
  · split
    · rfl
    · rename_i hshift
      obtain ⟨r, hr, hfirst, hlast, -, hs⟩ := exists_mem_of_lowerShift_ne hshift
      have hv := List.all_eq_true.1 lowerRuns_isVisible r hr
      simp only [LowerRun.isVisible, Bool.and_eq_true, Bool.or_eq_true, decide_eq_true_eq] at hv
      obtain ⟨⟨⟨hin, hpos⟩, hout⟩, hvalid⟩ := hv
      rw [hs, isBlank, isBlank, toNat_ofNat_of_valid (by omega),
        covers_eq_false_of_avoids hin hfirst hlast,
        covers_eq_false_of_avoids hout (n := (c.toNat + r.shift).toNat) (by omega) (by omega)]

theorem letterTwins_visible :
    (letterTwins.all fun t => !covers blankRanges t.1 && !covers blankRanges t.2) = true := by
  decide

theorem covers_caselessKey (c : Char) : covers blankRanges (caselessKey c) = isBlank c := by
  rw [← isBlank_lowerChar, isBlank, caselessKey]
  cases h : letterTwins.lookup (lowerChar c).toNat with
  | none => rfl
  | some n =>
    obtain ⟨l₁, l₂, hl, -⟩ := List.lookup_eq_some_iff.1 h
    have hmem : ((lowerChar c).toNat, n) ∈ letterTwins := by
      rw [hl]
      simp
    have := List.all_eq_true.1 letterTwins_visible _ hmem
    simp_all

/-- Letters that are the same whatever the case are white space together. -/
theorem isBlank_eq_of_sameLetter {a b : Char} (h : sameLetter a b = true) : isBlank a = isBlank b := by
  rw [← covers_caselessKey a, ← covers_caselessKey b, of_decide_eq_true h]

theorem dropCaseless?_eq_some_iff {key s rest : List Char} :
    dropCaseless? key s = some rest ↔ ∃ k, s = k ++ rest ∧ List.Forall₂ (fun a b => sameLetter a b) key k := by
  induction key generalizing s with
  | nil => simp [dropCaseless?]
  | cons a key ih =>
    cases s with
    | nil => simp [dropCaseless?]
    | cons c s =>
      rw [dropCaseless?]
      split
      · rename_i hc
        rw [ih]
        constructor
        · rintro ⟨k, rfl, hk⟩
          exact ⟨c :: k, rfl, .cons hc hk⟩
        · rintro ⟨k, hs, hk⟩
          cases hk with
          | cons hac hk =>
            simp only [List.cons_append, List.cons.injEq] at hs
            exact ⟨_, hs.2, hk⟩
      · rename_i hc
        simp only [reduceCtorEq, false_iff]
        rintro ⟨k, hs, hk⟩
        cases hk with
        | cons hac hk =>
          simp only [List.cons_append, List.cons.injEq] at hs
          exact hc (hs.1 ▸ hac)

theorem dropCaseless?_append_key (key key' s : List Char) :
    dropCaseless? (key ++ key') s = (dropCaseless? key s).bind (dropCaseless? key') := by
  induction key generalizing s with
  | nil => rfl
  | cons a key ih =>
    cases s with
    | nil => rfl
    | cons c s =>
      rw [List.cons_append, dropCaseless?, dropCaseless?]
      split
      · exact ih s
      · rfl

/-- What matches visible letters is visible. -/
theorem forall_isBlank_of_sameLetters {key k : List Char} (h : List.Forall₂ (fun a b => sameLetter a b) key k)
    (hkey : ∀ c ∈ key, isBlank c = false) : ∀ c ∈ k, isBlank c = false := by
  induction h with
  | nil => simp
  | cons hc _ ih =>
    rw [List.forall_mem_cons] at hkey ⊢
    exact ⟨isBlank_eq_of_sameLetter hc ▸ hkey.1, ih hkey.2⟩

end SearchBox.Text

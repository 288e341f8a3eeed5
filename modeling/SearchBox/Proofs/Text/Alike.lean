import SearchBox.Proofs.Text.Letterwise

/-!
  SearchBox.Proofs.Text.Alike — texts that differ only in the case of ASCII letters and in the white
  space between their words. No table of characters tells the case of ASCII letters, checked letter
  by letter (`IgnoresCase`), so that words that differ in it alone are one word in lower case
  (`SameButCase.lower_eq`). Alike texts fall apart in the same places: after a word, after white
  space and at their ends (`Alike.word_append`, `Alike.gap_append`, `Alike.strip`), and word by word
  they are the same but for case (`Alike.words`).
-/

namespace SearchBox.Text

/-! ## ASCII letters in any case -/

section IgnoresCase

variable {α : Type}

/-- A function that does not tell a capital ASCII letter from the small one. -/
def IgnoresCase (f : Char → α) : Prop :=
  ∀ n < 128, f (Char.ofNat n).toLower = f (Char.ofNat n)

instance [DecidableEq α] (f : Char → α) : Decidable (IgnoresCase f) :=
  inferInstanceAs (Decidable (∀ n < 128, _))

theorem IgnoresCase.toLower {f : Char → α} (hf : IgnoresCase f) (c : Char) : f c.toLower = f c := by
  by_cases hc : c.toNat < 128
  · have hascii := hf c.toNat hc
    rwa [Char.ofNat_toNat] at hascii
  · have hlast : ¬ c.val ≤ 'Z'.val := fun h => hc (Nat.lt_of_le_of_lt (UInt32.le_iff_toNat_le.1 h) (by decide))
    have hsame : c.toLower = c := dif_neg fun h => hlast h.2
    rw [hsame]

theorem IgnoresCase.eq {f : Char → α} (hf : IgnoresCase f) {c d : Char} (h : c.toLower = d.toLower) : f c = f d := by
  rw [← hf.toLower c, h, hf.toLower]

end IgnoresCase

theorem ignoresCase_isBlank : IgnoresCase isBlank := by decide

theorem ignoresCase_lowerChar : IgnoresCase lowerChar := by decide

theorem ignoresCase_isCased : IgnoresCase isCased := by decide

theorem ignoresCase_isCaseIgnorable : IgnoresCase isCaseIgnorable := by decide

/-- A character that is no ASCII letter is the same in one case only. -/
theorem eq_of_toLower_eq {c m : Char} (hm : IgnoresCase fun d => decide (d = m)) (h : c.toLower = m.toLower) : c = m := by
  simpa using hm.eq h

/-- The same letter whatever the case is so for an ASCII letter in either case. -/
theorem sameLetter_of_toLower_eq {k c d : Char} (hkc : sameLetter k c = true) (h : c.toLower = d.toLower) :
    sameLetter k d = true := by
  have hkey : caselessKey c = caselessKey d := by
    rw [caselessKey, caselessKey, ignoresCase_lowerChar.eq h]
  rwa [sameLetter, ← hkey]

/-! ## Words -/

/-- Texts that differ only in the case of ASCII letters. -/
def SameButCase (s t : List Char) : Prop :=
  List.Forall₂ (fun c d => c.toLower = d.toLower) s t

instance (s t : List Char) : Decidable (SameButCase s t) :=
  inferInstanceAs (Decidable (List.Forall₂ _ s t))

section Words

variable {s t : List Char}

theorem SameButCase.symm (h : SameButCase s t) : SameButCase t s :=
  List.Forall₂.flip (h.imp fun _ _ heq => heq.symm)

theorem SameButCase.forall_mem (h : SameButCase s t) {p : Char → Bool} (hp : IgnoresCase p) {b : Bool}
    (hs : ∀ c ∈ s, p c = b) : ∀ d ∈ t, p d = b := by
  induction h with
  | nil => exact hs
  | cons hcd _ ih =>
    rw [List.forall_mem_cons] at hs ⊢
    exact ⟨hp.eq hcd ▸ hs.1, ih hs.2⟩

theorem SameButCase.ne_nil (h : SameButCase s t) (hs : s ≠ []) : t ≠ [] := by
  rintro rfl
  exact hs (List.forall₂_nil_right_iff.1 h)

theorem SameButCase.isSolid (h : SameButCase s t) (hs : IsSolid s) : IsSolid t :=
  ⟨h.ne_nil hs.1, h.forall_mem ignoresCase_isBlank hs.2⟩

theorem SameButCase.startsCased_eq (h : SameButCase s t) : startsCased s = startsCased t := by
  induction h with
  | nil => rfl
  | cons hcd _ ih =>
    rw [startsCased, startsCased, ignoresCase_isCaseIgnorable.eq hcd, ignoresCase_isCased.eq hcd, ih]

/-- Words that differ only in the case of ASCII letters are the same in lower case. -/
theorem SameButCase.lower_eq (h : SameButCase s t) : lower s = lower t := by
  have hfrom : ∀ afterCased, lowerFrom afterCased s = lowerFrom afterCased t := by
    induction h with
    | nil => exact fun _ => rfl
    | @cons c d s t hcd hst ih =>
      intro afterCased
      have hsign : ∀ m, IgnoresCase (fun e => decide (e = m)) → (c = m ↔ d = m) := fun m hm => by
        simpa using hm.eq hcd
      have hsigma := hsign 'Σ' (by decide)
      have hdotted := hsign 'İ' (by decide)
      simp only [lowerFrom, hsigma, hdotted, ignoresCase_isCaseIgnorable.eq hcd, ignoresCase_isCased.eq hcd,
        ignoresCase_lowerChar.eq hcd, SameButCase.startsCased_eq hst, ih]
  exact hfrom false

theorem SameButCase.sameLetters {key : List Char} (h : SameButCase s t)
    (hkey : List.Forall₂ (fun a b => sameLetter a b) key s) : List.Forall₂ (fun a b => sameLetter a b) key t := by
  induction h generalizing key with
  | nil => exact hkey
  | cons hcd _ ih =>
    cases hkey with
    | cons hkc hkey => exact .cons (sameLetter_of_toLower_eq hkc hcd) (ih hkey)

theorem SameButCase.filter (h : SameButCase s t) {p : Char → Bool} (hp : IgnoresCase p) :
    SameButCase (s.filter p) (t.filter p) := by
  induction h with
  | nil => exact .nil
  | @cons c d s t hcd _ ih =>
    rw [List.filter_cons, List.filter_cons, hp.eq hcd]
    split
    · exact .cons hcd ih
    · exact ih

theorem SameButCase.exists_append {a b : List Char} (h : SameButCase (a ++ b) t) :
    ∃ a' b', t = a' ++ b' ∧ SameButCase a a' ∧ SameButCase b b' := by
  have htake := List.forall₂_take a.length h
  have hdrop := List.forall₂_drop a.length h
  rw [List.take_left] at htake
  rw [List.drop_left] at hdrop
  exact ⟨_, _, (List.take_append_drop a.length t).symm, htake, hdrop⟩

theorem SameButCase.eq_of_singleton {m : Char} (h : SameButCase [m] t) (hm : IgnoresCase fun d => decide (d = m)) :
    t = [m] := by
  cases h with
  | cons hmd hnil =>
    cases hnil
    rw [eq_of_toLower_eq hm hmd.symm]

end Words

/-! ## Alike texts -/

/-- White space, and some of it. -/
def IsGap (g : List Char) : Prop :=
  g ≠ [] ∧ ∀ c ∈ g, isBlank c = true

instance (g : List Char) : Decidable (IsGap g) :=
  decidable_of_iff ((!g.isEmpty && g.all isBlank) = true) (by simp [IsGap])

theorem isGap_replicate {n : Nat} (h : 0 < n) : IsGap (List.replicate n ' ') :=
  ⟨by simp; omega, isBlankText_iff.1 (isBlankText_replicate n)⟩

/-- Texts that differ only in the case of ASCII letters, and in which white space stands where white
    space stands. -/
inductive Alike : List Char → List Char → Prop where
  | nil : Alike [] []
  | char {c d : Char} {s t : List Char} : isBlank c = false → c.toLower = d.toLower → Alike s t →
      Alike (c :: s) (d :: t)
  | gap {g h s t : List Char} : IsGap g → IsGap h → Alike s t → Alike (g ++ s) (h ++ t)

section Alike

variable {s t : List Char}

theorem Alike.symm (h : Alike s t) : Alike t s := by
  induction h with
  | nil => exact .nil
  | char hc hcd _ ih => exact .char (ignoresCase_isBlank.eq hcd ▸ hc) hcd.symm ih
  | gap hg hh _ ih => exact .gap hh hg ih

theorem Alike.append (h : Alike s t) {s' t' : List Char} (h' : Alike s' t') : Alike (s ++ s') (t ++ t') := by
  induction h with
  | nil => exact h'
  | char hc hcd _ ih => exact .char hc hcd ih
  | gap hg hh _ ih =>
    rw [List.append_assoc, List.append_assoc]
    exact .gap hg hh ih

theorem alike_of_isGap {g h : List Char} (hg : IsGap g) (hh : IsGap h) : Alike g h := by
  simpa using Alike.gap hg hh .nil

theorem SameButCase.alike (h : SameButCase s t) (hs : ∀ c ∈ s, isBlank c = false) : Alike s t := by
  induction h with
  | nil => exact .nil
  | cons hcd _ ih =>
    obtain ⟨hc, hs⟩ := List.forall_mem_cons.1 hs
    exact .char hc hcd (ih hs)

theorem Alike.reverse (h : Alike s t) : Alike s.reverse t.reverse := by
  induction h with
  | nil => exact .nil
  | @char c d s t hc hcd _ ih =>
    rw [List.reverse_cons, List.reverse_cons]
    exact ih.append (.char hc hcd .nil)
  | @gap g h s t hg hh _ ih =>
    have hrev : ∀ {g : List Char}, IsGap g → IsGap g.reverse := fun {g} hg =>
      ⟨by simpa using hg.1, fun c hc => hg.2 c (List.mem_reverse.1 hc)⟩
    rw [List.reverse_append, List.reverse_append]
    exact ih.append (alike_of_isGap (hrev hg) (hrev hh))

theorem IsGap.head?_eq_some {g : List Char} (hg : IsGap g) (s : List Char) :
    ∃ c, (g ++ s).head? = some c ∧ isBlank c = true := by
  obtain ⟨c, g, rfl⟩ := List.exists_cons_of_ne_nil hg.1
  exact ⟨c, rfl, hg.2 c List.mem_cons_self⟩

/-- What holds of no white space and does not tell case holds of both first characters or none. -/
theorem Alike.head?_eq_false (h : Alike s t) {p : Char → Bool} (hp : IgnoresCase p)
    (hblank : ∀ c, isBlank c = true → p c = false) (hs : ∀ c ∈ s.head?, p c = false) :
    ∀ c ∈ t.head?, p c = false := by
  cases h with
  | nil => exact hs
  | @char c d s t hc hcd _ =>
    intro e he
    cases he
    exact hp.eq hcd ▸ hs c rfl
  | @gap g h s t hg hh _ =>
    intro e he
    obtain ⟨e', hhead, hblank'⟩ := hh.head?_eq_some t
    rw [Option.mem_def, hhead] at he
    cases he
    exact hblank e hblank'

theorem Alike.startsBlank (h : Alike s t) (hs : StartsBlank s) : StartsBlank t := by
  intro c hc
  have hvisible := h.head?_eq_false (p := fun e => !isBlank e) (by decide) (fun e he => by simp [he])
    (fun e he => by simp [hs e he]) c hc
  simpa using hvisible

theorem Alike.cons_visible {c : Char} (h : Alike (c :: s) t) (hc : isBlank c = false) :
    ∃ d t', t = d :: t' ∧ c.toLower = d.toLower ∧ Alike s t' := by
  generalize hu : c :: s = u at h
  cases h with
  | nil => cases hu
  | char _ hcd hst =>
    cases hu
    exact ⟨_, _, rfl, hcd, hst⟩
  | @gap g h s' t hg _ _ =>
    obtain ⟨e, he, hblank⟩ := hg.head?_eq_some s'
    rw [← hu] at he
    cases he
    rw [hc] at hblank
    cases hblank

/-- A character that is no ASCII letter stands in front of both of two alike texts. -/
theorem Alike.cons_sign {m : Char} (h : Alike (m :: s) t) (hm : isBlank m = false)
    (hsign : IgnoresCase fun d => decide (d = m)) : ∃ t', t = m :: t' ∧ Alike s t' := by
  obtain ⟨d, t', rfl, hd, ht⟩ := h.cons_visible hm
  exact ⟨t', by rw [eq_of_toLower_eq hsign hd.symm], ht⟩

/-- What is alike to a text with a word in front has the word in front in some case. -/
theorem Alike.word_append {w : List Char} (h : Alike (w ++ s) t) (hw : ∀ c ∈ w, isBlank c = false) :
    ∃ w' t', t = w' ++ t' ∧ SameButCase w w' ∧ Alike s t' := by
  induction w generalizing t with
  | nil => exact ⟨[], t, rfl, .nil, h⟩
  | cons c w ih =>
    obtain ⟨hc, hw⟩ := List.forall_mem_cons.1 hw
    obtain ⟨d, t, rfl, hcd, hst⟩ := h.cons_visible hc
    obtain ⟨w', t', rfl, hww', hst'⟩ := ih hst hw
    exact ⟨d :: w', t', rfl, .cons hcd hww', hst'⟩

/-- Alike texts start with white space together, and are alike after it. -/
theorem Alike.dropWhile_isBlank (h : Alike s t) :
    (s.takeWhile isBlank = [] ↔ t.takeWhile isBlank = []) ∧ Alike (s.dropWhile isBlank) (t.dropWhile isBlank) := by
  induction h with
  | nil => exact ⟨Iff.rfl, .nil⟩
  | @char c d s t hc hcd hst _ =>
    have hd := ignoresCase_isBlank.eq hcd ▸ hc
    simp only [List.takeWhile_cons, List.dropWhile_cons, hc, hd, Bool.false_eq_true, if_false]
    exact ⟨trivial, .char hc hcd hst⟩
  | gap hg hh _ ih =>
    rw [List.takeWhile_append_of_pos hg.2, List.takeWhile_append_of_pos hh.2, List.dropWhile_append_of_pos hg.2,
      List.dropWhile_append_of_pos hh.2]
    exact ⟨by simp [hg.1, hh.1], ih.2⟩

/-- What is alike to a text with white space in front has white space in front. -/
theorem Alike.gap_append {g : List Char} (h : Alike (g ++ s) t) (hg : ∀ c ∈ g, isBlank c = true)
    (hs : ∀ c ∈ s.head?, isBlank c = false) :
    ∃ g' t', t = g' ++ t' ∧ (∀ c ∈ g', isBlank c = true) ∧ (g = [] ↔ g' = []) ∧ Alike s t' := by
  obtain ⟨hempty, hrest⟩ := h.dropWhile_isBlank
  rw [takeWhile_run hg hs] at hempty
  rw [dropWhile_run hg hs] at hrest
  exact ⟨t.takeWhile isBlank, t.dropWhile isBlank, List.takeWhile_append_dropWhile.symm,
    List.all_eq_true.1 List.all_takeWhile, hempty, hrest⟩

theorem Alike.strip (h : Alike s t) : Alike (strip s) (strip t) := by
  have hstart : Alike (stripStart s) (stripStart t) := h.dropWhile_isBlank.2
  exact hstart.reverse.dropWhile_isBlank.2.reverse

/-- Alike texts have the same words but for case. -/
theorem Alike.words (h : Alike s t) : List.Forall₂ SameButCase (words s) (words t) := by
  induction h with
  | nil => exact .nil
  | @char c d s t hc hcd hst ih =>
    have hd := ignoresCase_isBlank.eq hcd ▸ hc
    have hnone : ∀ (e : Char) (u : List Char), prependToWords e u [] = [[e]] := by
      intro e u
      cases u <;> rfl
    simp only [Text.words, hc, hd, Bool.false_eq_true, if_false]
    generalize hws : Text.words s = ws at ih ⊢
    generalize Text.words t = ws' at ih ⊢
    cases ih with
    | nil =>
      rw [hnone, hnone]
      exact .cons (.cons hcd .nil) .nil
    | cons hww hlater =>
      cases hst with
      | nil => cases hws
      | char he hef _ =>
        have hf := ignoresCase_isBlank.eq hef ▸ he
        simp only [prependToWords, he, hf, Bool.false_eq_true, if_false]
        exact .cons (.cons hcd hww) hlater
      | @gap g h s t hg hh _ =>
        obtain ⟨e, g, rfl⟩ := List.exists_cons_of_ne_nil hg.1
        obtain ⟨f, h, rfl⟩ := List.exists_cons_of_ne_nil hh.1
        simp only [List.cons_append, prependToWords, hg.2 e List.mem_cons_self, hh.2 f List.mem_cons_self, if_true]
        exact .cons (.cons hcd .nil) (.cons hww hlater)
  | gap hg hh _ ih =>
    rwa [words_isBlankText_append (isBlankText_iff.2 hg.2), words_isBlankText_append (isBlankText_iff.2 hh.2)]

/-- A character that is no ASCII letter stands in both of two alike texts or in none. -/
theorem Alike.not_mem (h : Alike s t) {m : Char} (hm : IgnoresCase fun d => decide (d = m)) (hv : isBlank m = false)
    (hs : m ∉ s) : m ∉ t := by
  induction h with
  | nil => exact hs
  | char _ hcd _ ih =>
    rw [List.mem_cons, not_or] at hs ⊢
    exact ⟨fun he => hs.1 (eq_of_toLower_eq hm (he ▸ hcd)).symm, ih hs.2⟩
  | gap _ hh _ ih =>
    rw [List.mem_append, not_or] at hs ⊢
    refine ⟨fun hmem => ?_, ih hs.2⟩
    rw [hh.2 m hmem] at hv
    cases hv

end Alike

end SearchBox.Text

import SearchBox.Proofs.Text.Caseless

/-!
  SearchBox.Proofs.Text.LowerCase — lower-casing once is enough. No character that lower-casing
  writes has a lower form of its own, by the table of runs (`lowerRuns_miss`), and none is one
  of the two characters whose lower form hangs on what stands around them. Texts of such settled
  characters are what lower-casing yields (`isSettledText_lower`) and what it leaves alone
  (`lower_of_isSettledText`).
-/

namespace SearchBox.Text

/-- A character that lower-casing leaves as it is, wherever it stands. -/
structure IsSettled (c : Char) : Prop where
  fixed : lowerChar c = c
  ne_sigma : c ≠ 'Σ'
  ne_dotted : c ≠ 'İ'

instance (c : Char) : Decidable (IsSettled c) :=
  decidable_of_iff (lowerChar c = c ∧ c ≠ 'Σ' ∧ c ≠ 'İ')
    ⟨fun h => ⟨h.1, h.2.1, h.2.2⟩, fun h => ⟨h.fixed, h.ne_sigma, h.ne_dotted⟩⟩

def IsSettledText (s : List Char) : Prop :=
  ∀ c ∈ s, IsSettled c

instance : DecidablePred IsSettledText := fun s =>
  decidable_of_iff ((s.all fun c => decide (IsSettled c)) = true) (by simp [IsSettledText])

/-! ## Characters -/

/-- Whether no lower form of a run stands on another run: the two lie apart, or out of step. -/
def LowerRun.misses (r q : LowerRun) : Bool :=
  let low := (r.first + r.shift).toNat
  let high := (r.last + r.shift).toNat
  Nat.blt high q.first || Nat.blt q.last low ||
    ((r.step = 2 || r.first = r.last) && q.step = 2 && (low + q.first) % 2 = 1)

/-- The capital I with a dot, whose lower form is not in the table, as a run. -/
def dottedRun : LowerRun := ⟨304, 304, 1, 0⟩

theorem lowerRuns_miss : (lowerRuns.all fun r => (dottedRun :: lowerRuns).all r.misses) = true := by
  decide +kernel

theorem LowerRun.misses_iff {r q : LowerRun} (h : r.misses q = true) (hpos : 0 < r.first + r.shift) {n : Nat}
    (hfirst : r.first ≤ n) (hlast : n ≤ r.last) (hstep : (n - r.first) % r.step = 0) :
    ¬ (q.first ≤ (n + r.shift).toNat ∧ (n + r.shift).toNat ≤ q.last ∧
      ((n + r.shift).toNat - q.first) % q.step = 0) := by
  rintro ⟨hlow, hhigh, hmod⟩
  simp only [LowerRun.misses, Nat.blt_eq, Bool.or_eq_true, Bool.and_eq_true, decide_eq_true_eq] at h
  rcases h with (h | h) | ⟨⟨hone, htwo⟩, hodd⟩
  · omega
  · omega
  · rw [htwo] at hmod
    rcases hone with hone | hone
    · rw [hone] at hstep
      omega
    · omega

/-- The code point of a lower form stands for no other letter. -/
theorem settled_of_mem_run {r : LowerRun} (hr : r ∈ lowerRuns) (hpos : 0 < r.first + r.shift) {n : Nat}
    (hfirst : r.first ≤ n) (hlast : n ≤ r.last) (hstep : (n - r.first) % r.step = 0) :
    lowerShift lowerRuns (n + r.shift).toNat = 0 ∧ (n + r.shift).toNat ≠ 304 := by
  have hmiss := fun q hq => LowerRun.misses_iff (List.all_eq_true.1 (List.all_eq_true.1 lowerRuns_miss r hr) q hq) hpos
    hfirst hlast hstep
  constructor
  · by_contra hshift
    obtain ⟨q, hq, hlow, hhigh, hmod, -⟩ := exists_mem_of_lowerShift_ne hshift
    exact hmiss q (List.mem_cons_of_mem _ hq) ⟨hlow, hhigh, hmod⟩
  · intro h
    exact hmiss dottedRun List.mem_cons_self (by rw [h]; decide)

theorem lowerChar_of_lowerShift_eq_zero {c : Char} (hc : c ≠ 'İ') (h : lowerShift lowerRuns c.toNat = 0) :
    lowerChar c = c := by
  rw [lowerChar, if_neg hc, h]
  rfl

theorem isSettled_of_lowerShift_eq_zero {c : Char} (hc : c.toNat ≠ 304) (h : lowerShift lowerRuns c.toNat = 0) :
    IsSettled c := by
  have hdotted : c ≠ 'İ' := fun he => hc (he ▸ rfl)
  refine ⟨lowerChar_of_lowerShift_eq_zero hdotted h, fun he => ?_, hdotted⟩
  rw [he] at h
  exact absurd h (by decide)

theorem isSettled_lowerChar (c : Char) : IsSettled (lowerChar c) := by
  by_cases hc : c = 'İ'
  · subst hc
    decide
  by_cases hshift : lowerShift lowerRuns c.toNat = 0
  · rw [lowerChar_of_lowerShift_eq_zero hc hshift]
    refine isSettled_of_lowerShift_eq_zero (fun h => hc ?_) hshift
    exact Char.ext (UInt32.toNat_inj.1 h)
  · obtain ⟨r, hr, hfirst, hlast, hstep, hs⟩ := exists_mem_of_lowerShift_ne hshift
    have hv := List.all_eq_true.1 lowerRuns_isVisible r hr
    simp only [LowerRun.isVisible, Bool.and_eq_true, Bool.or_eq_true, decide_eq_true_eq] at hv
    obtain ⟨⟨⟨-, hpos⟩, -⟩, hvalid⟩ := hv
    obtain ⟨hzero, hdotted⟩ := settled_of_mem_run hr hpos hfirst hlast hstep
    have hchar : lowerChar c = Char.ofNat (c.toNat + r.shift).toNat := by
      unfold lowerChar
      rw [if_neg hc]
      split
      · rename_i hnone
        exact absurd hnone hshift
      · rw [hs]
    have hcode : (lowerChar c).toNat = (c.toNat + r.shift).toNat := by
      rw [hchar, toNat_ofNat_of_valid (by omega)]
    exact isSettled_of_lowerShift_eq_zero (hcode ▸ hdotted) (hcode ▸ hzero)

/-! ## Texts -/

theorem isSettledText_lowerFrom (afterCased : Bool) (s : List Char) : IsSettledText (lowerFrom afterCased s) := by
  induction s generalizing afterCased with
  | nil => exact fun c hc => by cases hc
  | cons c s ih =>
    rw [lowerFrom]
    split
    · refine List.forall_mem_cons.2 ⟨?_, ih _⟩
      split <;> decide +kernel
    · split
      · exact List.forall_mem_cons.2 ⟨by decide, List.forall_mem_cons.2 ⟨by decide, ih _⟩⟩
      · exact List.forall_mem_cons.2 ⟨isSettled_lowerChar c, ih _⟩

theorem isSettledText_lower (s : List Char) : IsSettledText (lower s) :=
  isSettledText_lowerFrom false s

theorem lowerFrom_of_isSettledText {s : List Char} (h : IsSettledText s) (afterCased : Bool) :
    lowerFrom afterCased s = s := by
  induction s generalizing afterCased with
  | nil => rfl
  | cons c s ih =>
    obtain ⟨hc, hs⟩ := List.forall_mem_cons.1 h
    rw [lowerFrom, if_neg hc.ne_sigma, if_neg hc.ne_dotted, hc.fixed, ih hs]

theorem lower_of_isSettledText {s : List Char} (h : IsSettledText s) : lower s = s :=
  lowerFrom_of_isSettledText h false

theorem lower_lower (s : List Char) : lower (lower s) = lower s :=
  lower_of_isSettledText (isSettledText_lower s)

/-- A sigma stays final, and the two characters of a dotted I stay two. -/
example : lower (lower "ΟΔΟΣ İI".toList) = "οδος i\u0307i".toList := by decide +kernel

theorem lower_eq_nil_iff {s : List Char} : lower s = [] ↔ s = [] := by
  cases s with
  | nil => simp [lower, lowerFrom]
  | cons c s =>
    rw [lower, lowerFrom]
    split
    · simp
    · split <;> simp

/-- A text that lower-casing leaves alone. -/
def IsLowered (s : String) : Prop :=
  IsSettledText s.toList

instance : DecidablePred IsLowered := fun s =>
  inferInstanceAs (Decidable (IsSettledText s.toList))

theorem isLowered_ofList_lower (s : List Char) : IsLowered (String.ofList (lower s)) := by
  rw [IsLowered, String.toList_ofList]
  exact isSettledText_lower s

theorem isLowered_lowerText (s : String) : IsLowered (lowerText s) :=
  isLowered_ofList_lower s.toList

theorem lowerText_of_isLowered {s : String} (h : IsLowered s) : lowerText s = s := by
  rw [lowerText, lower_of_isSettledText h, String.ofList_toList]

theorem lowerText_eq_empty_iff {s : String} : lowerText s = "" ↔ s = "" := by
  rw [lowerText, ← String.toList_inj, String.toList_ofList, ← String.toList_inj]
  exact lower_eq_nil_iff

end SearchBox.Text

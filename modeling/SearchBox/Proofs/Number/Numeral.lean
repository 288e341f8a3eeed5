import Mathlib.Tactic.NormNum
import SearchBox.Number.Numeral
import SearchBox.Proofs.Text.Words

/-!
  SearchBox.Proofs.Number.Numeral — numbers written in a fixed number of places. The digits of a
  number fill its places (`length_paddedDigits`) and read back as the number
  (`readInteger?_paddedDigits`); whatever else stands in so many places is a number of at most so
  many digits, a sign taking one place (`readInteger?_bounds`).
-/

namespace SearchBox.Number

open SearchBox.Text

/-! ## Digits -/

theorem digit_bounds {c : Char} (h : c.isDigit = true) : 48 ≤ c.toNat ∧ c.toNat ≤ 57 := by
  simp only [Char.isDigit, Bool.and_eq_true, decide_eq_true_eq, ge_iff_le] at h
  exact h

theorem decimalValue?_of_isDigit {c : Char} (h : c.isDigit = true) : decimalValue? c = some (c.toNat - 48) := by
  obtain ⟨hlow, hhigh⟩ := digit_bounds h
  rw [decimalValue?, decimalZeros, List.findSome?_cons, if_pos ⟨hlow, by omega⟩]

theorem isBlank_of_isDigit {c : Char} (h : c.isDigit = true) : isBlank c = false := by
  obtain ⟨hlow, hhigh⟩ := digit_bounds h
  simp only [isBlank, blankRanges, covers]
  split
  · rfl
  · split
    · omega
    · rw [if_pos (by omega), Bool.or_false, Bool.or_eq_false_iff]
      exact ⟨decide_eq_false (by omega), decide_eq_false (by omega)⟩

/-- The values of plain digits. -/
def digitValues (s : List Char) : List Nat :=
  s.map fun c => c.toNat - 48

theorem digitsFrom_of_isDigit {s : List Char} (h : ∀ c ∈ s, c.isDigit = true) (seen : Bool) :
    digitsFrom seen s = (digitValues s, []) := by
  induction s generalizing seen with
  | nil => rfl
  | cons c s ih =>
    obtain ⟨hc, hs⟩ := List.forall_mem_cons.1 h
    rw [digitsFrom, decimalValue?_of_isDigit hc]
    simp only [ih hs]
    rfl

theorem ofDigits_digitValues (s : List Char) : ofDigits 10 (digitValues s) = Nat.ofDigitChars 10 s 0 := by
  rw [ofDigits, digitValues, List.foldl_map, Nat.ofDigitChars_eq_foldl]
  congr 1
  funext n c
  rw [Nat.mul_comm]
  rfl

theorem readInteger?_of_isDigit {s : List Char} (hne : s ≠ []) (h : ∀ c ∈ s, c.isDigit = true)
    (hlen : s.length ≤ digitLimit) : readInteger? s = some ((ofDigits 10 (digitValues s) : Nat) : Int) := by
  have hsign : signOf s = (false, s) := by
    cases s with
    | nil => rfl
    | cons c s =>
      obtain ⟨hlow, -⟩ := digit_bounds (h c List.mem_cons_self)
      unfold signOf
      split
      · rename_i heq
        cases heq
        exact absurd hlow (by decide)
      · rename_i heq
        cases heq
        exact absurd hlow (by decide)
      · rfl
  have hsolid : IsSolid s := ⟨hne, fun c hc => isBlank_of_isDigit (h c hc)⟩
  rw [readInteger?, strip_of_isEdged hsolid.isEdged, hsign]
  simp only [digitsWithLowLines, digitsFrom_of_isDigit h]
  cases s with
  | nil => exact absurd rfl hne
  | cons c s =>
    simp only [digitValues, List.map_cons, List.length_cons, List.length_map] at hlen ⊢
    rw [if_pos hlen]
    rfl

/-! ## Numbers in their places -/

theorem isDigit_of_mem_paddedDigits {n width : Nat} {c : Char} (h : c ∈ paddedDigits n width) : c.isDigit = true := by
  rcases List.mem_append.1 h with h | h
  · rw [List.eq_of_mem_replicate h]
    rfl
  · exact Nat.isDigit_of_mem_toDigits (by decide) (by decide) h

theorem length_paddedDigits {width : Nat} (hwidth : 0 < width) {n : Nat} (h : n < 10 ^ width) :
    (paddedDigits n width).length = width := by
  have := (Nat.length_toDigits_le_iff (by decide) hwidth).2 h
  rw [paddedDigits]
  simp only [List.length_append, List.length_replicate]
  omega

theorem ofDigits_paddedDigits (n width : Nat) : ofDigits 10 (digitValues (paddedDigits n width)) = n := by
  rw [ofDigits_digitValues, paddedDigits]
  simp only [Nat.ofDigitChars_append, Nat.ofDigitChars_replicate_zero, Nat.mul_zero, Nat.ofDigitChars_ten_toDigits]

theorem readInteger?_paddedDigits {width : Nat} (hwidth : 0 < width) (hlimit : width ≤ digitLimit) {n : Nat}
    (h : n < 10 ^ width) :
    readInteger? (paddedDigits n width) = some (n : Int) := by
  have hlen := length_paddedDigits hwidth h
  have hne : paddedDigits n width ≠ [] := fun hnil => by
    rw [hnil] at hlen
    exact absurd hlen (by simp; omega)
  rw [readInteger?_of_isDigit hne (fun c hc => isDigit_of_mem_paddedDigits hc) (by rwa [hlen]), ofDigits_paddedDigits]

/-! ## Numbers in few places -/

theorem decimalValue?_lt {c : Char} {d : Nat} (h : decimalValue? c = some d) : d < 10 := by
  obtain ⟨z, -, hz⟩ := List.exists_of_findSome?_eq_some h
  split at hz
  · cases hz
    omega
  · cases hz

theorem digitsFrom_bounds (seen : Bool) (s : List Char) :
    (∀ d ∈ (digitsFrom seen s).1, d < 10) ∧ (digitsFrom seen s).1.length ≤ s.length := by
  fun_induction digitsFrom seen s with
  | case1 => simp
  | case2 seen c rest d hd ih =>
    refine ⟨List.forall_mem_cons.2 ⟨decimalValue?_lt hd, ih.1⟩, ?_⟩
    simpa using ih.2
  | case3 seen c rest hd hmore ih => exact ⟨ih.1, by have := ih.2; simp only [List.length_cons]; omega⟩
  | case4 => simp

theorem ofDigits_lt {ds : List Nat} (h : ∀ d ∈ ds, d < 10) : ofDigits 10 ds < 10 ^ ds.length := by
  have hfold : ∀ n, ds.foldl (fun n d => n * 10 + d) n < (n + 1) * 10 ^ ds.length := by
    induction ds with
    | nil => intro n; simp
    | cons d ds ih =>
      obtain ⟨hd, hds⟩ := List.forall_mem_cons.1 h
      intro n
      calc
        ds.foldl _ (n * 10 + d) < (n * 10 + d + 1) * 10 ^ ds.length := ih hds _
        _ ≤ ((n + 1) * 10) * 10 ^ ds.length := Nat.mul_le_mul_right _ (by omega)
        _ = (n + 1) * 10 ^ (ds.length + 1) := by rw [Nat.pow_succ, Nat.mul_assoc, Nat.mul_comm 10]
  simpa [ofDigits] using hfold 0

theorem length_strip_le (s : List Char) : (strip s).length ≤ s.length := by
  have hend := (List.dropWhile_suffix (p := isBlank) (l := (stripStart s).reverse)).length_le
  have hstart := (List.dropWhile_suffix (p := isBlank) (l := s)).length_le
  rw [List.length_reverse] at hend
  rw [strip, stripEnd, List.length_reverse]
  exact Nat.le_trans hend hstart

theorem length_signOf (s : List Char) : (signOf s).2.length + (if (signOf s).1 then 1 else 0) ≤ s.length := by
  unfold signOf
  split <;> simp

/-- An integer in a number of places; a minus sign takes one of them. -/
theorem readInteger?_bounds {s : List Char} {n : Int} (h : readInteger? s = some n) :
    n < 10 ^ s.length ∧ -(10 ^ (s.length - 1)) < n := by
  unfold readInteger? at h
  have hsign := length_signOf (strip s)
  have hstrip := length_strip_le s
  generalize signOf (strip s) = sign at h hsign
  obtain ⟨negative, body⟩ := sign
  have hdigits := digitsFrom_bounds false body
  simp only [digitsWithLowLines] at h
  generalize digitsFrom false body = read at h hdigits
  obtain ⟨ds, rest⟩ := read
  simp only at h hsign hdigits
  have hvalue := ofDigits_lt hdigits.1
  obtain rfl : n = signed negative (ofDigits 10 ds) := by
    split at h
    · cases h
    · rename_i heq
      cases heq
      split at h
      · exact (Option.some.inj h).symm
      · cases h
    · cases h
  cases negative with
  | false =>
    have hpow : 10 ^ ds.length ≤ 10 ^ s.length := Nat.pow_le_pow_right (by decide) (by omega)
    have hpos : 0 < 10 ^ (s.length - 1) := Nat.pow_pos (by decide)
    simp only [signed, Bool.false_eq_true, if_false]
    exact_mod_cast And.intro (show ofDigits 10 ds < 10 ^ s.length by omega) (by omega)
  | true =>
    rw [if_pos rfl] at hsign
    have hpow : 10 ^ ds.length ≤ 10 ^ (s.length - 1) := Nat.pow_le_pow_right (by decide) (by omega)
    have hpos : 0 < 10 ^ s.length := Nat.pow_pos (by decide)
    have hlt : (ofDigits 10 ds : Int) < 10 ^ (s.length - 1) := by
      exact_mod_cast show ofDigits 10 ds < 10 ^ (s.length - 1) by omega
    have hpos' : (0 : Int) < 10 ^ s.length := by exact_mod_cast hpos
    simp only [signed, if_true]
    omega

end SearchBox.Number

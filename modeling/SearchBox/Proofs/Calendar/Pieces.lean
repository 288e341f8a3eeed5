import Mathlib.Data.List.TakeWhile
import SearchBox.Proofs.Calendar.Written
import SearchBox.Proofs.Text.Caseless

/-!
  SearchBox.Proofs.Calendar.Pieces — the pieces of a written date one after another. A number runs
  up to a character that cannot go on with it (`EndsNumber`), with digits after a point or
  without (`tokensFrom_number`, `tokensFrom_fraction`); a mark is a piece of its own, and so is a
  letter that no word goes on from. What comes after a piece is cut as a text of its own. Numbers in a fixed
  number of places are read with their values (`read?_paddedDigits`, `natural?_paddedDigits`).
-/

namespace SearchBox.Calendar.Written

open SearchBox.Number SearchBox.Text

/-! ## Digits -/

section Digits

variable {c : Char} (h : c.isDigit = true)
include h

theorem isDigit_of_isDigit : isDigit c = true := by
  rw [isDigit, decimalValue?_of_isDigit h]
  rfl

theorem isLetter_of_isDigit : isLetter c = false := by
  obtain ⟨hlow, hhigh⟩ := digit_bounds h
  exact covers_eq_false_of_avoids (by decide +kernel) hlow hhigh

theorem openToken_of_isDigit : openToken c = .inl ⟨.number, [c], false⟩ := by
  rw [openToken, isLetter_of_isDigit h, isDigit_of_isDigit h]
  rfl

end Digits

theorem forall_ne_point {s : List Char} (h : ∀ c ∈ s, c.isDigit = true) : ∀ c ∈ s, decide (c ≠ '.') = true := by
  intro c hc
  refine decide_eq_true fun heq => ?_
  subst heq
  exact absurd (h _ hc) (by decide)

/-! ## Numbers -/

/-- A text with which a number before it does not go on. -/
def EndsNumber (s : List Char) : Prop :=
  ∀ c ∈ s.head?, isDigit c = false ∧ c ≠ '.' ∧ c ≠ ','

theorem endsNumber_nil : EndsNumber [] := nofun

/-- What follows an open piece that it does not go on with is cut as a text of its own. -/
theorem tokensFrom_close {o : OpenToken} {t : Token} {s : List Char} (hnext : ∀ c ∈ s.head?, o.extend? c = none)
    (hclose : ∀ ended, o.close ended = [t]) : tokensFrom (some o) s = t :: tokensFrom none s := by
  cases s with
  | nil => exact hclose false
  | cons c s =>
    rw [tokensFrom_some, hnext c rfl, hclose]
    rfl

/-- An open number goes on with digits, before its point or after it. -/
theorem tokensFrom_digits {shape : Shape} (hshape : shape = .number ∨ shape = .dottedNumber) {digits : List Char}
    (h : ∀ c ∈ digits, c.isDigit = true) (reversed rest : List Char) :
    tokensFrom (some ⟨shape, reversed, false⟩) (digits ++ rest) =
      tokensFrom (some ⟨shape, digits.reverse ++ reversed, false⟩) rest := by
  induction digits generalizing reversed with
  | nil => rfl
  | cons c digits ih =>
    obtain ⟨hc, hdigits⟩ := List.forall_mem_cons.1 h
    have hextend : (⟨shape, reversed, false⟩ : OpenToken).extend? c = some ⟨shape, c :: reversed, false⟩ := by
      rcases hshape with rfl | rfl
      · simp [OpenToken.extend?, isDigit_of_isDigit hc]
      · simp [OpenToken.extend?, isDigit_of_isDigit hc]
    rw [List.cons_append, tokensFrom_some, hextend, Option.map_some, Option.getD_some, ih hdigits, List.reverse_cons,
      List.append_assoc]
    rfl

section Numbers

variable {digits rest : List Char} (hne : digits ≠ []) (h : ∀ c ∈ digits, c.isDigit = true)
include hne h

/-- The first digits of a text open a number. -/
theorem tokensFrom_open (rest : List Char) :
    tokensFrom none (digits ++ rest) = tokensFrom (some ⟨.number, digits.reverse, false⟩) rest := by
  obtain ⟨c, digits, rfl⟩ := List.exists_cons_of_ne_nil hne
  obtain ⟨hc, hdigits⟩ := List.forall_mem_cons.1 h
  rw [List.cons_append, tokensFrom, openToken_of_isDigit hc]
  show tokensFrom (some ⟨.number, [c], false⟩) (digits ++ rest) = _
  rw [tokensFrom_digits (.inl rfl) hdigits, List.reverse_cons]

theorem tokensFrom_number (hrest : EndsNumber rest) :
    tokensFrom none (digits ++ rest) = digits :: tokensFrom none rest := by
  rw [tokensFrom_open hne h]
  refine tokensFrom_close (fun c hc => ?_) (fun _ => ?_)
  · obtain ⟨hdigit, hpoint, hcomma⟩ := hrest c hc
    simp [OpenToken.extend?, hdigit, hpoint, hcomma]
  · simp [OpenToken.close]

/-- Digits, a point and further digits are one piece. -/
theorem tokensFrom_fraction {places : List Char} (hplaces : places ≠ []) (hdigits : ∀ c ∈ places, c.isDigit = true)
    (hrest : EndsNumber rest) :
    tokensFrom none (digits ++ '.' :: (places ++ rest)) = (digits ++ '.' :: places) :: tokensFrom none rest := by
  have hpoint : (⟨.number, digits.reverse, false⟩ : OpenToken).extend? '.' =
      some ⟨.dottedNumber, '.' :: digits.reverse, false⟩ := by
    have hdigit : isDigit '.' = false := by decide
    simp [OpenToken.extend?, hdigit]
  have hlast : ∃ c cs, c.isDigit = true ∧ places.reverse = c :: cs := by
    obtain ⟨c, cs, hreverse⟩ := List.exists_cons_of_ne_nil (List.reverse_ne_nil_iff.2 hplaces)
    exact ⟨c, cs, hdigits c (List.mem_reverse.1 (by rw [hreverse]; exact List.mem_cons_self)), hreverse⟩
  obtain ⟨c, cs, hc, hreverse⟩ := hlast
  have hne_mark : c ≠ '.' ∧ c ≠ ',' := by
    constructor <;> (rintro rfl; exact absurd hc (by decide))
  rw [tokensFrom_open hne h, tokensFrom_some, hpoint, Option.map_some, Option.getD_some,
    tokensFrom_digits (.inr rfl) hdigits]
  refine tokensFrom_close (fun d hd => ?_) (fun ended => ?_)
  · obtain ⟨hdigit, hnotPoint, -⟩ := hrest d hd
    simp [OpenToken.extend?, hdigit, hnotPoint, hreverse, hne_mark]
  · have hcount : ∀ s : List Char, (∀ c ∈ s, c.isDigit = true) → s.count '.' = 0 := by
      intro s hs
      exact List.count_eq_zero_of_not_mem fun hmem => absurd (hs _ hmem) (by decide)
    have hwhole : (places.reverse ++ '.' :: digits.reverse).reverse = digits ++ '.' :: places := by simp
    have hone : (digits ++ '.' :: places).count '.' = 1 := by
      rw [List.count_append, List.count_cons_self, hcount digits h, hcount places hdigits]
    simp only [OpenToken.close, OpenToken.lettersAtEnd, hwhole, hone]
    simp [hreverse, hne_mark]

end Numbers

/-! ## Marks and letters -/

/-- A character that is always a piece of its own. -/
def isMark (c : Char) : Bool :=
  !isLetter c && !isDigit c && !isBlank c && c ≠ '.' && c ≠ ','

theorem endsNumber_of_isMark {c : Char} (hc : isMark c = true) (rest : List Char) : EndsNumber (c :: rest) := by
  simp only [isMark, Bool.and_eq_true, Bool.not_eq_true', decide_eq_true_eq] at hc
  obtain ⟨⟨⟨⟨-, hdigit⟩, -⟩, hpoint⟩, hcomma⟩ := hc
  rintro _ ⟨⟩
  exact ⟨hdigit, hpoint, hcomma⟩

theorem tokensFrom_mark {c : Char} (hc : isMark c = true) (rest : List Char) :
    tokensFrom none (c :: rest) = [c] :: tokensFrom none rest := by
  simp only [isMark, Bool.and_eq_true, Bool.not_eq_true', decide_eq_true_eq] at hc
  obtain ⟨⟨⟨⟨hletter, hdigit⟩, hblank⟩, -⟩, -⟩ := hc
  rw [tokensFrom, openToken, hletter, hdigit, hblank]
  rfl

theorem tokensFrom_letter {c : Char} (hc : isLetter c = true) {rest : List Char}
    (hrest : ∀ d ∈ rest.head?, isLetter d = false ∧ d ≠ '.') :
    tokensFrom none (c :: rest) = [c] :: tokensFrom none rest := by
  rw [tokensFrom, openToken, if_pos hc]
  refine tokensFrom_close (fun d hd => ?_) (fun _ => rfl)
  obtain ⟨hletter, hpoint⟩ := hrest d hd
  simp [OpenToken.extend?, hletter, hpoint]

/-! ## Numbers in their places -/

theorem mapM_decimalValue? {s : List Char} (h : ∀ c ∈ s, c.isDigit = true) :
    s.mapM decimalValue? = some (digitValues s) := by
  induction s with
  | nil => rfl
  | cons c s ih =>
    obtain ⟨hc, hs⟩ := List.forall_mem_cons.1 h
    rw [List.mapM_cons, decimalValue?_of_isDigit hc, ih hs]
    rfl

section Places

variable {n width : Nat} (hwidth : 0 < width) (hn : n < 10 ^ width)
include hwidth hn

theorem paddedDigits_ne_nil : paddedDigits n width ≠ [] := by
  intro hnil
  have hlength := length_paddedDigits hwidth hn
  rw [hnil] at hlength
  exact absurd hlength (by simp; omega)

theorem isDigit_of_head_paddedDigits {rest : List Char} :
    ∀ c ∈ (paddedDigits n width ++ rest).head?, c.isDigit = true := by
  obtain ⟨d, ds, hds⟩ := List.exists_cons_of_ne_nil (paddedDigits_ne_nil hwidth hn)
  rw [hds]
  rintro _ ⟨⟩
  exact isDigit_of_mem_paddedDigits (hds ▸ List.mem_cons_self)

theorem tokensFrom_paddedDigits {rest : List Char} (hrest : EndsNumber rest) :
    tokensFrom none (paddedDigits n width ++ rest) = paddedDigits n width :: tokensFrom none rest :=
  tokensFrom_number (paddedDigits_ne_nil hwidth hn) (fun _ hc => isDigit_of_mem_paddedDigits hc) hrest

theorem tokensFrom_paddedDigits_end : tokensFrom none (paddedDigits n width) = [paddedDigits n width] := by
  have hend := tokensFrom_paddedDigits hwidth hn endsNumber_nil
  rwa [List.append_nil] at hend

theorem natural?_paddedDigits (hlimit : width ≤ digitLimit) : Draft.natural? (paddedDigits n width) = .ok n := by
  rw [Draft.natural?, readInteger?_paddedDigits hwidth hlimit hn]
  simp

theorem read?_paddedDigits : Decimal.read? (paddedDigits n width) = some ⟨n, 0⟩ := by
  have hdigits : ∀ c ∈ paddedDigits n width, c.isDigit = true := fun c hc => isDigit_of_mem_paddedDigits hc
  have hpoint := forall_ne_point hdigits
  have hwhole : (paddedDigits n width).takeWhile (· ≠ '.') = paddedDigits n width := List.takeWhile_eq_self_iff.2 hpoint
  have htail : (paddedDigits n width).dropWhile (· ≠ '.') = [] := List.dropWhile_eq_nil_iff.2 hpoint
  obtain ⟨v, vs, hvs⟩ := List.exists_cons_of_ne_nil
    (show digitValues (paddedDigits n width) ≠ [] by simpa [digitValues] using paddedDigits_ne_nil hwidth hn)
  have hvalue := ofDigits_paddedDigits n width
  simp only [Decimal.read?, hwhole, htail, List.drop_nil, List.append_nil, mapM_decimalValue? hdigits]
  rw [hvs] at hvalue ⊢
  simp only [hvalue, List.length_nil]

end Places

end SearchBox.Calendar.Written

import SearchBox.Value.Shown

/-!
  SearchBox.Proofs.Value — the texts of values. Only the empty text is shown as nothing: what
  counts as true has a text (`ne_empty_of_shownText`).
-/

namespace SearchBox

open SearchBox.Calendar SearchBox.Number SearchBox.Text

theorem integerText_ne_nil (n : Int) : integerText n ≠ [] := by
  unfold integerText
  split
  · exact List.cons_ne_nil _ _
  · exact Nat.toDigits_ne_nil

theorem FloatFormat.positive_ne_nil (f : FloatFormat) (digits : List Char) (place : Int) :
    f.positive digits place ≠ [] := by
  unfold FloatFormat.positive
  split
  · split <;> simp
  · simp

theorem plain_text_ne_nil (x : Binary64) : FloatFormat.plain.text x ≠ [] := by
  cases x with
  | nan => decide
  | infinite negative => cases negative <;> decide
  | finite negative m e =>
    have hpositive := FloatFormat.positive_ne_nil FloatFormat.plain (shortestDigits m e).1 (shortestDigits m e).2
    rw [FloatFormat.text]
    split <;> split <;> simp_all

theorem Scalar.shown_ne_nil {s : Scalar} (h : s ≠ .text "") : s.shown ≠ [] := by
  cases s with
  | null => decide
  | bool b => cases b <;> decide
  | int n => exact integerText_ne_nil n
  | float x => exact plain_text_ne_nil x
  | text s => simpa [Scalar.shown] using h
  | bytes bs => exact List.cons_ne_nil _ _
  | date d => simp [Scalar.shown, Date.text]
  | time t => cases t <;> simp [Scalar.shown, Timestamp.shown, WallTime.text]

theorem Value.shownText_eq_ok {v : Value} {t : String} :
    v.shownText = .ok t ↔ v.isWritable = true ∧ String.ofList v.shown = t := by
  rw [Value.shownText]
  split <;> simp_all

/-- What counts as true has a text, if it can be written. -/
theorem Value.ne_empty_of_shownText {v : Value} (h : v.isTruthy = true) {t : String} (ht : v.shownText = .ok t) :
    t ≠ "" := by
  rw [← (shownText_eq_ok.1 ht).2, Ne, ← String.toList_inj, String.toList_ofList]
  show v.shown ≠ []
  cases v with
  | scalar s =>
    refine Scalar.shown_ne_nil fun hs => ?_
    subst hs
    cases h
  | list items => simp [Value.shown, Value.literal]
  | tuple items => rcases items with _ | ⟨v, _ | _⟩ <;> simp [Value.shown, Value.literal]
  | set items =>
    cases items with
    | nil => cases h
    | cons s items => simp [Value.shown, Value.literal]
  | dict entries => simp [Value.shown, Value.literal]

end SearchBox

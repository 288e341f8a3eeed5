import SearchBox.Proofs.Json.LongNumbers
import SearchBox.Proofs.Store.Rows

/-!
  SearchBox.Proofs.Store.BadLines — which line of a store is reported as no JSON text. A text loses
  the white space at its ends before its lines are counted (`exists_lines_around`). So blank lines in
  front of the first row are not counted (`badLine_not_counted`), and a space that JSON does not know
  is gone when the first line is read (`badLine_not_first`). With the blank lines added, the number
  that is reported is that of a bad line, and of the first one if the white space at the ends is
  JSON's own; a bad line of such a text is reported (`badLine_reported`), unless a number in it is
  too long to be read: this is then said to be the fault, without a line (`tooLong_before_badLine`).
-/

namespace SearchBox.Store

open SearchBox.Json SearchBox.Number SearchBox.Text

/-! ## Bad lines -/

/-- A line that is neither blank nor a JSON text. -/
def IsBadLine (l : List Char) : Prop :=
  isBlankText l = false ∧ ∀ v, Json.read l ≠ .ok v

theorem forall_ne_ok_iff {ε α : Type} {x : Except ε α} : (∀ a, x ≠ .ok a) ↔ x.isOk = false := by
  cases x with
  | error e => exact ⟨fun _ => rfl, fun _ => nofun⟩
  | ok a => exact ⟨fun h => absurd rfl (h a), nofun⟩

instance (l : List Char) : Decidable (IsBadLine l) :=
  decidable_of_iff (isBlankText l = false ∧ (Json.read l).isOk = false) (and_congr_right' forall_ne_ok_iff.symm)

theorem not_isBadLine {l : List Char} (h : isBlankText l = true) : ¬ IsBadLine l := by
  intro hbad
  rw [hbad.1] at h
  cases h

def leadingBlanks (text : List Char) : Nat :=
  ((lines text).takeWhile isBlankText).length

/-- A text that has only JSON's white space at its ends. -/
def HasGapEnds (text : List Char) : Prop :=
  ∃ front back, IsGapText front ∧ IsGapText back ∧ text = front ++ (strip text ++ back)

/-- The line that is reported is the first bad one. -/
theorem rowsOfLines_eq_badLine {ls : List (List Char)} {number n : Nat} {e : ReadError}
    (h : rowsOfLines number ls = .error (.badLine n e)) :
    ∃ before line after, ls = before ++ line :: after ∧ n = number + before.length ∧ IsBadLine line ∧
      ∀ l ∈ before, ¬ IsBadLine l := by
  induction ls generalizing number with
  | nil => cases h
  | cons l ls ih =>
    rw [rowsOfLines] at h
    cases hblank : isBlankText l with
    | true =>
      rw [if_pos hblank] at h
      obtain ⟨before, line, after, rfl, rfl, hbad, hbefore⟩ := ih h
      exact ⟨l :: before, line, after, rfl, by simp; omega, hbad,
        List.forall_mem_cons.2 ⟨not_isBadLine hblank, hbefore⟩⟩
    | false =>
      rw [if_neg (by simp [hblank])] at h
      cases hread : Json.read l with
      | ok v =>
        rw [hread] at h
        have hlater : rowsOfLines (number + 1) ls = .error (.badLine n e) := by
          cases hrows : rowsOfLines (number + 1) ls with
          | ok rows =>
            simp only [hrows] at h
            cases h
          | error e' =>
            simp only [hrows] at h
            exact h
        obtain ⟨before, line, after, rfl, rfl, hbad, hbefore⟩ := ih hlater
        exact ⟨l :: before, line, after, rfl, by simp; omega, hbad,
          List.forall_mem_cons.2 ⟨fun hl => hl.2 v hread, hbefore⟩⟩
      | error e' =>
        rw [hread] at h
        dsimp only at h
        split at h
        · cases h
        · cases h
          exact ⟨[], l, ls, rfl, rfl, ⟨hblank, fun v hv => by rw [hread] at hv; cases hv⟩, List.forall_mem_nil _⟩

/-- Of lines without long numbers a bad one is reported. -/
theorem exists_badLine {ls : List (List Char)} (hshort : ∀ l ∈ ls, ¬ HasLongNumber l) (hbad : ∃ l ∈ ls, IsBadLine l)
    (number : Nat) : ∃ n e, rowsOfLines number ls = .error (.badLine n e) := by
  induction ls generalizing number with
  | nil =>
    obtain ⟨l, hl, -⟩ := hbad
    cases hl
  | cons l ls ih =>
    obtain ⟨hl, hshort⟩ := List.forall_mem_cons.1 hshort
    rw [rowsOfLines]
    cases hblank : isBlankText l with
    | true =>
      obtain ⟨l', hl', hbad⟩ := hbad
      rcases List.mem_cons.1 hl' with rfl | hl'
      · exact absurd hbad (not_isBadLine hblank)
      · exact ih hshort ⟨l', hl', hbad⟩ (number + 1)
    | false =>
      rw [if_neg (by simp)]
      cases hread : Json.read l with
      | ok v =>
        obtain ⟨l', hl', hbad⟩ := hbad
        rcases List.mem_cons.1 hl' with rfl | hl'
        · exact absurd hread (hbad.2 v)
        · obtain ⟨n, e, hrows⟩ := ih hshort ⟨l', hl', hbad⟩ (number + 1)
          refine ⟨n, e, ?_⟩
          simp only [hrows]
          rfl
      | error e =>
        have hfault : ReadError.isTooLong e = false := by
          cases e
          case integerTooLong digits => exact absurd (hasLongNumber_of_read hread) hl
          all_goals rfl
        exact ⟨number, e, by simp [hfault]⟩

/-! ## White space around lines -/

/-- White space around a JSON text may go, whatever it is. -/
theorem read_of_read_between {front l back : List Char} {v : Value} (hfront : ∀ c ∈ front, isBlank c = true)
    (hback : ∀ c ∈ back, isBlank c = true) (h : Json.read (front ++ (l ++ back)) = .ok v) : Json.read l = .ok v := by
  have hmiddle : Json.read (l ++ back) = .ok v := by
    induction front with
    | nil => exact h
    | cons c front ih =>
      obtain ⟨hc, hfront⟩ := List.forall_mem_cons.1 hfront
      exact ih hfront (read_of_read_cons hc h)
  clear h
  induction back using List.reverseRecOn with
  | nil => rwa [List.append_nil] at hmiddle
  | append_singleton back c ih =>
    rw [← List.append_assoc] at hmiddle
    exact ih (fun d hd => hback d (by simp [hd])) (read_of_read_concat (hback c (by simp)) hmiddle)

/-- JSON's own white space may be put around a JSON text. -/
theorem read_between {front l back : List Char} {v : Value} (hfront : IsGapText front) (hback : IsGapText back)
    (h : Json.read l = .ok v) : Json.read (front ++ (l ++ back)) = .ok v := by
  obtain ⟨gap, piece, gap', rfl, hgap, hgap', hspells⟩ := read_eq_ok_iff.1 h
  refine read_eq_ok_iff.2 ⟨front ++ gap, piece, gap' ++ back, by simp, ?_, ?_, hspells⟩
  · exact fun c hc => (List.mem_append.1 hc).elim (hfront c) (hgap c)
  · exact fun c hc => (List.mem_append.1 hc).elim (hgap' c) (hback c)

theorem isBlankText_of_widens {wide l : List Char} (h : Widens (isBlank · = true) wide l) :
    isBlankText wide = isBlankText l := by
  obtain ⟨front, back, hfront, hback, rfl⟩ := h
  rw [isBlankText_append, isBlankText_append, isBlankText_iff.2 hfront, isBlankText_iff.2 hback, Bool.true_and,
    Bool.and_true]

theorem IsBadLine.widens {wide l : List Char} (hl : IsBadLine l) (h : Widens (isBlank · = true) wide l) :
    IsBadLine wide := by
  refine ⟨(isBlankText_of_widens h).trans hl.1, fun v hv => ?_⟩
  obtain ⟨front, back, hfront, hback, rfl⟩ := h
  exact hl.2 v (read_of_read_between hfront hback hv)

theorem IsBadLine.of_widens {wide l : List Char} (hwide : IsBadLine wide) (h : Widens (isGap · = true) wide l) :
    IsBadLine l := by
  refine ⟨(isBlankText_of_widens (h.imp fun _ => isBlank_of_isGap)).symm.trans hwide.1, fun v hv => ?_⟩
  obtain ⟨front, back, hfront, hback, rfl⟩ := h
  exact hwide.2 v (read_between hfront hback hv)

/-! ## Lines of a text and of the text without its ends -/

theorem exists_visible_line {s : List Char} (hs : IsEdged s) : ∃ l ls, lines s = l :: ls ∧ isBlankText l = false := by
  obtain ⟨⟨c, hc, hvisible⟩, -⟩ := hs
  obtain ⟨tail, rfl⟩ := List.head?_eq_some_iff.1 hc
  obtain ⟨l, sep, rest, heq, hend, hlines⟩ := exists_first_line (List.cons_ne_nil c tail)
  refine ⟨l, lines rest, hlines [], ?_⟩
  cases l with
  | nil =>
    rw [List.nil_append] at heq
    rw [← heq] at hend
    exact absurd (hend c rfl) (by simp [hvisible])
  | cons d l =>
    rw [(List.cons.inj heq).1] at hvisible
    simp [isBlankText, hvisible]

/-- The lines of a text that says something, between the blank lines at its ends. -/
theorem exists_lines_around {P : Char → Prop} (hP : ∀ c, P c → isBlank c = true) {text u w : List Char} (hu : ∀ c ∈ u, P c)
    (hw : ∀ c ∈ w, P c) (htext : text = u ++ (strip text ++ w)) (hvisible : isBlankText text = false) :
    ∃ before middle after, lines text = before ++ (middle ++ after) ∧ before.length = leadingBlanks text ∧
      (∀ l ∈ before ++ after, isBlankText l = true) ∧ List.Forall₂ (Widens P) middle (lines (strip text)) := by
  have hedged := isEdged_strip hvisible
  obtain ⟨before, middle, after, hlines, hblank, hmiddle⟩ := exists_lines_between hP hu hw hedged
  rw [← htext] at hlines
  refine ⟨before, middle, after, hlines, ?_, hblank, hmiddle⟩
  obtain ⟨l, ls, hfirst, hl⟩ := exists_visible_line hedged
  rw [hfirst] at hmiddle
  obtain ⟨wide, rest, hwide, -, rfl⟩ := List.forall₂_cons_right_iff.1 hmiddle
  have hwideVisible : isBlankText wide = false := (isBlankText_of_widens (hwide.imp hP)).trans hl
  rw [leadingBlanks, hlines, List.takeWhile_append_of_pos fun l hl => hblank l (List.mem_append_left _ hl), List.cons_append,
    List.takeWhile_cons_of_neg (by simp [hwideVisible]), List.append_nil]

/-- What corresponds to a member in the middle of a list, and to the members in front of it. -/
theorem exists_of_forall₂_append {α β : Type} {R : α → β → Prop} {xs : List α} {front after : List β} {y : β}
    (h : List.Forall₂ R xs (front ++ y :: after)) :
    ∃ before x later, xs = before ++ x :: later ∧ List.Forall₂ R before front ∧ R x y := by
  have hfront := List.forall₂_take_append _ _ _ h
  obtain ⟨x, later, hx, -, hdrop⟩ := List.forall₂_cons_right_iff.1 (List.forall₂_drop_append _ _ _ h)
  exact ⟨_, x, later, by rw [← hdrop, List.take_append_drop], hfront, hx⟩

theorem exists_of_mem_forall₂ {α β : Type} {R : α → β → Prop} {xs : List α} {ys : List β} (h : List.Forall₂ R xs ys)
    {x : α} (hx : x ∈ xs) : ∃ y ∈ ys, R x y := by
  induction h with
  | nil => cases hx
  | cons hhead _ ih =>
    rcases List.mem_cons.1 hx with rfl | hx
    · exact ⟨_, List.mem_cons_self, hhead⟩
    · obtain ⟨y, hy, hxy⟩ := ih hx
      exact ⟨y, List.mem_cons_of_mem _ hy, hxy⟩

/-- The white space that stands around what is left of a text. -/
theorem exists_ends (text : List Char) : ∃ u w, (∀ c ∈ u ++ w, isBlank c = true) ∧ text = u ++ (strip text ++ w) ∧
    (HasGapEnds text → ∀ c ∈ u ++ w, isGap c = true) := by
  by_cases hgap : HasGapEnds text
  · obtain ⟨front, back, hfront, hback, htext⟩ := hgap
    have hends : ∀ c ∈ front ++ back, isGap c = true := fun c hc => (List.mem_append.1 hc).elim (hfront c) (hback c)
    exact ⟨front, back, fun c hc => isBlank_of_isGap (hends c hc), htext, fun _ => hends⟩
  · obtain ⟨u, w, hu, hw, htext⟩ := strip_surrounded text
    have hends : isBlankText (u ++ w) = true := by rw [isBlankText_append, hu, hw, Bool.and_self]
    exact ⟨u, w, isBlankText_iff.1 hends, htext, fun h => absurd h hgap⟩

/-! ## Rows of a text -/

/-- A line is reported of a text that is no document, and then a line of what is left of it. -/
theorem rowsOf_eq_badLine {text : List Char} {n : Nat} {e : ReadError} (h : rowsOf text = .error (.badLine n e)) :
    isBlankText text = false ∧ rowsOfLines 1 (lines (strip text)) = .error (.badLine n e) := by
  unfold rowsOf at h
  dsimp only at h
  split at h
  · cases h
  · rename_i hne
    rw [List.isEmpty_iff, strip_eq_nil_iff, Bool.not_eq_true] at hne
    refine ⟨hne, ?_⟩
    split at h
    · rename_i v _
      unfold rowsOfDocument at h
      split at h
      · cases h
      · split at h <;> cases h
      · cases h
    · split at h
      · cases h
      · exact h

/-- A text that is no document and has no long number is read line by line. -/
theorem rowsOf_eq_rowsOfLines {text : List Char} (hvisible : isBlankText text = false) (hshort : ¬ HasLongNumber text)
    (hread : ∀ v, Json.read (strip text) ≠ .ok v) : rowsOf text = rowsOfLines 1 (lines (strip text)) := by
  have hne : strip text ≠ [] := by
    rw [Ne, strip_eq_nil_iff, hvisible]
    exact Bool.false_ne_true
  unfold rowsOf
  dsimp only
  rw [if_neg (by simpa using hne)]
  cases hwhole : Json.read (strip text) with
  | ok v => exact absurd hwhole (hread v)
  | error e =>
    have hfault : ReadError.isTooLong e = false := by
      cases e
      case integerTooLong digits => exact absurd ((hasLongNumber_of_read hwhole).mono (strip_isInfix text)) hshort
      all_goals rfl
    simp [hfault]

section Gaps

variable {text : List Char}

/-- JSON's white space at its ends does not keep a text from being read. -/
theorem read_strip_ne_ok (hends : HasGapEnds text) (hread : ∀ v, Json.read text ≠ .ok v) :
    ∀ v, Json.read (strip text) ≠ .ok v := by
  obtain ⟨front, back, hfront, hback, htext⟩ := hends
  intro v hv
  refine hread v ?_
  rw [htext]
  exact read_between hfront hback hv

/-- Nor does it make a line bad, or a line of its own. -/
theorem exists_badLine_strip (hends : HasGapEnds text) (hvisible : isBlankText text = false)
    (hbad : ∃ l ∈ lines text, IsBadLine l) : ∃ l ∈ lines (strip text), IsBadLine l := by
  obtain ⟨front, back, hfront, hback, htext⟩ := hends
  obtain ⟨before, middle, after, hlines, -, hblank, hmiddle⟩ :=
    exists_lines_around (fun _ => isBlank_of_isGap) hfront hback htext hvisible
  obtain ⟨l, hl, hbad⟩ := hbad
  have hl' : l ∈ before ++ after ∨ l ∈ middle := by
    rw [hlines] at hl
    simp only [List.mem_append] at hl ⊢
    tauto
  rcases hl' with hl | hl
  · exact absurd hbad (not_isBadLine (hblank l hl))
  · obtain ⟨narrow, hnarrow, hwide⟩ := exists_of_mem_forall₂ hmiddle hl
    exact ⟨narrow, hnarrow, hbad.of_widens hwide⟩

end Gaps

/-- If a line of a text is reported, the number with the blank lines in front is that of a bad line.
    It is the first one if only JSON's white space stands at the text's ends. Of such a text
    that is not blank and no document, and that has no long number, a line is reported
    if it has a bad one. -/
theorem badLine_reported (text : List Char) :
    (∀ n e, rowsOf text = .error (.badLine n e) →
      ∃ before line after, lines text = before ++ line :: after ∧ before.length + 1 = leadingBlanks text + n ∧
        IsBadLine line ∧ (HasGapEnds text → ∀ l ∈ before, ¬ IsBadLine l)) ∧
    (HasGapEnds text → ¬ HasLongNumber text → isBlankText text = false → (∀ v, Json.read text ≠ .ok v) →
      (∃ l ∈ lines text, IsBadLine l) → ∃ n e, rowsOf text = .error (.badLine n e)) := by
  constructor
  · intro n e h
    obtain ⟨hvisible, hrows⟩ := rowsOf_eq_badLine h
    obtain ⟨u, w, hblanks, htext, hgaps⟩ := exists_ends text
    obtain ⟨before, middle, after, hlines, hcount, hblank, hmiddle⟩ :=
      exists_lines_around hblanks (fun c => List.mem_append_left w) (fun c => List.mem_append_right u) htext hvisible
    obtain ⟨front, line, rest, hfront, rfl, hbad, hgood⟩ := rowsOfLines_eq_badLine hrows
    rw [hfront] at hmiddle
    obtain ⟨wides, wide, later, rfl, hwides, hwide⟩ := exists_of_forall₂_append hmiddle
    refine ⟨before ++ wides, wide, later ++ after, ?_, ?_, hbad.widens (hwide.imp hblanks), fun hends l hl => ?_⟩
    · rw [hlines]
      simp
    · rw [List.length_append, hcount, hwides.length_eq]
      omega
    · rcases List.mem_append.1 hl with hl | hl
      · exact not_isBadLine (hblank l (List.mem_append_left _ hl))
      · obtain ⟨narrow, hnarrow, hl⟩ := exists_of_mem_forall₂ hwides hl
        exact fun hbad => hgood narrow hnarrow (hbad.of_widens (hl.imp (hgaps hends)))
  · intro hends hshort hvisible hread hbad
    have hshort' : ∀ l ∈ lines (strip text), ¬ HasLongNumber l := fun l hl hlong =>
      hshort (hlong.mono ((isInfix_of_mem_lines hl).trans (strip_isInfix text)))
    rw [rowsOf_eq_rowsOfLines hvisible hshort (read_strip_ne_ok hends hread)]
    exact exists_badLine hshort' (exists_badLine_strip hends hvisible hbad) 1

theorem eq_error_of_map {ε α β : Type} {f : α → β} {x : Except ε α} {e : ε} (h : x.map f = .error e) : x = .error e := by
  cases x with
  | ok a => cases h
  | error e' =>
    cases h
    rfl

/-- Two lines of white space are not counted, and the line that is reported as the third is the fifth. -/
theorem badLine_reported_fifth :
    let text := "\r\n \t\n\x7b\"id\": \"1\"\x7d\n\n[1, 2\n".toList
    leadingBlanks text = 2 ∧ ∃ n e, rowsOf text = .error (.badLine n e) ∧
      ∃ before line after, lines text = before ++ line :: after ∧ before.length + 1 = 2 + n ∧ IsBadLine line ∧
        ∀ l ∈ before, ¬ IsBadLine l := by
  intro text
  have hcount : leadingBlanks text = 2 := by decide +kernel
  have hends : HasGapEnds text := by
    refine ⟨"\r\n \t\n".toList, ['\n'], ?_, ?_, by decide +kernel⟩
    · exact List.all_eq_true.1 (by decide)
    · exact List.all_eq_true.1 (by decide)
  have hshort : ¬ HasLongNumber text := by
    rintro ⟨run, hrun, -, hlong⟩
    have hlength := hrun.length_le
    have htext : text.length < digitLimit := by decide
    omega
  have hread : ∀ v, Json.read text ≠ .ok v := forall_ne_ok_iff.2 (by decide +kernel)
  have hbad : ∃ l ∈ lines text, IsBadLine l := by decide +kernel
  obtain ⟨n, e, hrows⟩ := (badLine_reported text).2 hends hshort (by decide) hread hbad
  obtain ⟨before, line, after, hlines, hnumber, hline, hbefore⟩ := (badLine_reported text).1 n e hrows
  rw [hcount] at hnumber
  exact ⟨hcount, n, e, hrows, before, line, after, hlines, hnumber, hline, hbefore hends⟩

/-- After two blank lines the fourth line is the first bad one, and the second one is reported. -/
theorem badLine_not_counted :
    let text := "\n\n\x7b\"id\": \"1\"\x7d\n\x7bbad".toList
    rowsOf text = .error (.badLine 2 .expectingKey) ∧ (lines text)[1]? = some [] ∧
      (∃ l, (lines text)[3]? = some l ∧ IsBadLine l) ∧ ∀ l ∈ (lines text).take 3, ¬ IsBadLine l := by
  intro text
  refine ⟨eq_error_of_map (f := List.length) (by decide +kernel), by decide +kernel, ⟨"\x7bbad".toList, ?_⟩,
    by decide +kernel⟩
  decide +kernel

/-- A space without a break in front of the first line is no JSON, but it is gone when the line is read. -/
theorem badLine_not_first :
    let text := "\u00a0\x7b\"id\": \"1\"\x7d\n\x7bbad".toList
    rowsOf text = .error (.badLine 2 .expectingKey) ∧ ∃ l, (lines text)[0]? = some l ∧ IsBadLine l := by
  intro text
  refine ⟨eq_error_of_map (f := List.length) (by decide +kernel), "\u00a0\x7b\"id\": \"1\"\x7d".toList, ?_⟩
  decide +kernel

/-- A number that is too long is said to be the fault, whatever the lines after it are. -/
theorem tooLong_before_badLine :
    let text := List.replicate 4301 '1' ++ "\n\x7bbad".toList
    rowsOf text = .error (.tooLong (.integerTooLong 4301)) ∧ ∃ l, (lines text)[1]? = some l ∧ IsBadLine l := by
  intro text
  refine ⟨eq_error_of_map (f := List.length) (by decide +kernel), "\x7bbad".toList, ?_⟩
  decide +kernel

end SearchBox.Store

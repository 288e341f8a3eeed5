import SearchBox.Proofs.Json.Read
import SearchBox.Proofs.Text.Lines
import SearchBox.Store

/-!
  SearchBox.Proofs.Store.Rows — the rows of a text with one JSON text a line. Without the
  white space at its ends a text has the same rows on its lines (`HoldRows.strip`). Two rows are
  no document, since the first of them is a value with something after it, so the text is read
  line by line and gives all rows in order (`rowsOf_of_lines`). One row is a document, and read
  as one (`rowsOf_objects`).
-/

namespace SearchBox.Store

open SearchBox.Json SearchBox.Text

/-! ## Lines with rows -/

/-- Lines that hold these rows, one each, with blank lines anywhere. -/
inductive HoldRows : List (List Char) → List Value → Prop
  | nil : HoldRows [] []
  | blank {l : List Char} {ls : List (List Char)} {vs : List Value} :
      isBlankText l = true → HoldRows ls vs → HoldRows (l :: ls) vs
  | row {l : List Char} {ls : List (List Char)} {v : Value} {vs : List Value} :
      Json.read l = .ok v → HoldRows ls vs → HoldRows (l :: ls) (v :: vs)

theorem isBlankText_of_isGapText {gap : List Char} (h : IsGapText gap) : isBlankText gap = true :=
  isBlankText_iff.2 fun c hc => isBlank_of_isGap (h c hc)

theorem isBlankText_of_read {l : List Char} {v : Value} (h : Json.read l = .ok v) : isBlankText l = false := by
  obtain ⟨gap, piece, gap', rfl, -, -, hspells⟩ := read_eq_ok_iff.1 h
  simp [isBlankText_append, hspells.edged.isBlankText]

theorem read_of_read_cons {c : Char} {l : List Char} {v : Value} (hc : isBlank c = true) (h : Json.read (c :: l) = .ok v) :
    Json.read l = .ok v := by
  obtain ⟨gap, piece, gap', heq, hgap, hgap', hspells⟩ := read_eq_ok_iff.1 h
  cases gap with
  | nil =>
    obtain ⟨⟨d, hd, hvisible⟩, -⟩ := hspells.edged
    obtain ⟨tail, rfl⟩ := List.head?_eq_some_iff.1 hd
    rw [(List.cons.inj heq).1, hvisible] at hc
    cases hc
  | cons d gap =>
    exact read_eq_ok_iff.2 ⟨gap, piece, gap', (List.cons.inj heq).2, (List.forall_mem_cons.1 hgap).2, hgap', hspells⟩

theorem read_of_read_concat {c : Char} {l : List Char} {v : Value} (hc : isBlank c = true)
    (h : Json.read (l ++ [c]) = .ok v) : Json.read l = .ok v := by
  obtain ⟨gap, piece, gap', heq, hgap, hgap', hspells⟩ := read_eq_ok_iff.1 h
  rcases List.eq_nil_or_concat gap' with rfl | ⟨gap', d, rfl⟩
  · obtain ⟨-, d, hd, hvisible⟩ := hspells.edged
    have hlast : (l ++ [c]).getLast? = some d := by
      rw [heq, List.append_nil, List.getLast?_append, Option.mem_def.1 hd]
      rfl
    rw [List.getLast?_concat] at hlast
    rw [Option.some.inj hlast, hvisible] at hc
    cases hc
  · refine read_eq_ok_iff.2 ⟨gap, piece, gap', ?_, hgap, fun e he => hgap' e (by simp [he]), hspells⟩
    rw [List.concat_eq_append, ← List.append_assoc, ← List.append_assoc] at heq
    rw [(List.append_inj' heq rfl).1, List.append_assoc]

/-- White space around a document is not part of it. -/
theorem read_strip {l : List Char} {v : Value} (h : Json.read l = .ok v) : Json.read (strip l) = .ok v :=
  strip_induction (p := fun t => Json.read t = .ok v) (fun _ _ => read_of_read_cons) (fun _ _ => read_of_read_concat) h

namespace HoldRows

variable {ls : List (List Char)} {vs : List Value} {s : List Char} {c : Char}

theorem rowsOfLines (h : HoldRows ls vs) (number : Nat) : rowsOfLines number ls = .ok vs := by
  induction h generalizing number with
  | nil => rfl
  | blank hblank _ ih => rw [Store.rowsOfLines, if_pos hblank, ih]
  | row hread _ ih =>
    rw [Store.rowsOfLines, if_neg (by simp [isBlankText_of_read hread]), hread]
    dsimp only
    rw [ih]
    rfl

theorem eq_nil (h : HoldRows ls vs) (hblank : ls.all isBlankText = true) : vs = [] := by
  induction h with
  | nil => rfl
  | blank _ _ ih =>
    rw [List.all_cons, Bool.and_eq_true] at hblank
    exact ih hblank.2
  | row hread _ _ =>
    rw [List.all_cons, isBlankText_of_read hread] at hblank
    cases hblank

/-- The lines that are not blank hold a row each. -/
theorem iff_filter : HoldRows ls vs ↔ List.Forall₂ (fun l v => Json.read l = .ok v) (ls.filter fun l => !isBlankText l) vs := by
  constructor
  · intro h
    induction h with
    | nil => exact .nil
    | blank hblank _ ih => rwa [List.filter_cons, if_neg (by simp [hblank])]
    | row hread _ ih =>
      rw [List.filter_cons, if_pos (by simp [isBlankText_of_read hread])]
      exact .cons hread ih
  · intro h
    induction ls generalizing vs with
    | nil =>
      cases h
      exact .nil
    | cons l ls ih =>
      cases hblank : isBlankText l with
      | true =>
        rw [List.filter_cons, if_neg (by simp [hblank])] at h
        exact .blank hblank (ih h)
      | false =>
        rw [List.filter_cons, if_pos (by simp [hblank])] at h
        cases h with
        | cons hread hrest => exact .row hread (ih hrest)

theorem of_nil_cons (h : HoldRows ([] :: ls) vs) : HoldRows ls vs := by
  cases h with
  | blank _ h => exact h
  | row hread _ => cases hread

/-- What holds of the lines after the first one holds of all. -/
theorem cons_imp {l : List Char} {ls' : List (List Char)} (h : HoldRows (l :: ls) vs)
    (himp : ∀ ws, HoldRows ls ws → HoldRows ls' ws) : HoldRows (l :: ls') vs := by
  cases h with
  | blank hblank h => exact .blank hblank (himp _ h)
  | row hread h => exact .row hread (himp _ h)

/-! ### White space at the ends of the text -/

theorem of_cons (hc : isBlank c = true) (h : HoldRows (lines (c :: s)) vs) : HoldRows (lines s) vs := by
  rw [lines] at h
  rcases front_cases c s with hend | ⟨rfl, tail, rfl⟩ | ⟨hend, hpair⟩
  · rw [linesFrom_cons hend] at h
    by_cases hs : s = []
    · subst hs
      rw [h.eq_nil (all_isBlankText_linesFrom (by simp [isBlankText, hc]) rfl)]
      exact .nil
    · obtain ⟨l, -, rest, -, -, hlines⟩ := exists_first_line hs
      rw [lines, hlines]
      rw [hlines] at h
      cases h with
      | blank hblank h => exact .blank (by simpa [isBlankText, hc] using hblank) h
      | row hread h => exact .row (read_of_read_cons hc hread) h
  · rw [linesFrom_returnFeed] at h
    rwa [lines, linesFrom_lineFeed]
  · rw [linesFrom_end hend [] hpair] at h
    exact h.of_nil_cons

theorem of_concat (hc : isBlank c = true) (line : List Char) (h : HoldRows (linesFrom line (s ++ [c])) vs) :
    HoldRows (linesFrom line s) vs := by
  fun_induction linesFrom line s generalizing vs with
  | case1 line hempty =>
    rw [List.isEmpty_iff.1 hempty] at h
    rw [h.eq_nil (all_isBlankText_linesFrom rfl (by simp [isBlankText, hc]))]
    exact .nil
  | case2 line hline =>
    rw [List.nil_append] at h
    rcases front_cases c [] with hend | ⟨-, tail, hcontra⟩ | ⟨hend, hpair⟩
    · rw [linesFrom_cons hend, linesFrom, if_neg (by simp), List.reverse_cons] at h
      cases h with
      | blank hblank h =>
        rw [isBlankText_append, Bool.and_eq_true] at hblank
        exact .blank hblank.1 h
      | row hread h => exact .row (read_of_read_concat hc hread) h
    · cases hcontra
    · rwa [linesFrom_end hend line hpair] at h
  | case3 line rest ih =>
    rw [List.cons_append, List.cons_append, linesFrom_returnFeed] at h
    exact h.cons_imp fun ws => ih
  | case4 line d rest hpair hend ih =>
    rw [List.cons_append] at h
    rcases front_cases d (rest ++ [c]) with hopen | ⟨rfl, tail, htail⟩ | ⟨-, hpair'⟩
    · rw [hopen] at hend
      cases hend
    · -- Only the character at the end can complete the pair.
      cases rest with
      | nil =>
        obtain ⟨rfl, rfl⟩ := List.cons.inj htail
        exact h
      | cons e rest =>
        obtain ⟨rfl, -⟩ := List.cons.inj htail
        exact absurd rfl (hpair rest rfl)
    · rw [linesFrom_end hend line hpair'] at h
      exact h.cons_imp fun ws => ih
  | case5 line d rest hpair hend ih =>
    rw [List.cons_append, linesFrom_cons (by simpa using hend)] at h
    exact ih h

theorem strip (h : HoldRows (lines s) vs) : HoldRows (lines (strip s)) vs :=
  strip_induction (p := fun t => HoldRows (lines t) vs) (fun _ _ => of_cons) (fun _ _ hc => of_concat hc []) h

end HoldRows

theorem isBlankText_of_skipGap {u : List Char} (h : skipGap u = []) : isBlankText u = true := by
  obtain ⟨gap, hgap, hu⟩ := exists_gap u
  rw [hu, h, List.append_nil]
  exact isBlankText_of_isGapText hgap

/-- The first of several rows is a value with more than white space after it. -/
theorem read_of_rows {s : List Char} {vs : List Value} (hs : ∀ c ∈ s.head?, isBlank c = false)
    (h : HoldRows (lines s) vs) (hmany : 2 ≤ vs.length) : Json.read s = .error .extraData := by
  have hne : s ≠ [] := by
    rintro rfl
    cases h
    simp at hmany
  obtain ⟨l, sep, rest, rfl, hend, hlines⟩ := exists_first_line hne
  rw [lines, hlines] at h
  cases h with
  | blank hblank _ =>
    -- A first line of white space, or its end, would be white space in front of the text.
    exfalso
    cases l with
    | nil =>
      obtain ⟨c, tail, htail⟩ := List.exists_cons_of_ne_nil hne
      rw [htail] at hs
      rw [← List.nil_append (sep ++ rest), htail] at hend
      exact absurd (hend c rfl) (by simp [hs c rfl])
    | cons c l => exact absurd (isBlankText_iff.1 hblank c (by simp)) (by simp [hs c rfl])
  | @row _ _ v vs hread hrest =>
    obtain ⟨gap, piece, gap', rfl, hgap, hgap', hspells⟩ := read_eq_ok_iff.1 hread
    have hfollow : MayFollow (sep ++ rest) := fun c hc => by simp [hend c hc]
    simp only [List.append_assoc]
    rw [read_of_spells hgap hspells (hgap'.mayFollow hfollow), if_neg]
    intro hempty
    have hblank := isBlankText_of_skipGap (List.isEmpty_iff.1 hempty)
    have hblankRest : isBlankText rest = true := isBlankText_iff.2 fun c hc => isBlankText_iff.1 hblank c (by simp [hc])
    rw [hrest.eq_nil (all_isBlankText_linesFrom rfl hblankRest)] at hmany
    simp at hmany

/-- Two or more rows, one a line, are all read. -/
theorem rowsOf_of_lines {text : List Char} {vs : List Value} (h : HoldRows (lines text) vs) (hmany : 2 ≤ vs.length) :
    rowsOf text = .ok vs := by
  have hrows : HoldRows (lines (strip text)) vs := h.strip
  -- The text goes on after its first row, so it is no document and is cut into lines.
  have hwhole : Json.read (strip text) = .error .extraData := read_of_rows (head?_strip text) hrows hmany
  have hne : strip text ≠ [] := by
    intro hnil
    rw [hnil] at hwhole
    cases hwhole
  unfold rowsOf
  dsimp only
  rw [if_neg (by simpa using hne), hwhole]
  exact hrows.rowsOfLines 1

theorem rowsOf_joinWith {ls : List (List Char)} {vs : List Value} (h : HoldRows ls vs) (hmany : 2 ≤ vs.length)
    (hlines : ∀ l ∈ ls, ∀ c ∈ l, isLineEnd c = false) : rowsOf (joinWith ['\n'] ls) = .ok vs := by
  refine rowsOf_of_lines (HoldRows.iff_filter.2 ?_) hmany
  have hvisible := visibleLines_joinWith hlines
  rw [visibleLines] at hvisible
  rw [hvisible]
  exact HoldRows.iff_filter.1 h

/-! ## Objects -/

/-- The characters that end a line although they may stand in a JSON text. -/
def lineEnds : List Char :=
  ['\n', '\r', '\x85', '\u2028', '\u2029']

theorem mem_lineEnds {c : Char} (h : isLineEnd c = true) (hwritten : 32 ≤ c.toNat ∨ isGap c = true) : c ∈ lineEnds := by
  rcases hwritten with hwritten | hgap
  · have hnat : c.toNat = 133 ∨ c.toNat = 8232 ∨ c.toNat = 8233 := by
      simp only [isLineEnd, covers] at h
      grind
    rw [← Char.ofNat_toNat c]
    rcases hnat with hnat | hnat | hnat <;> rw [hnat] <;> decide
  · simp only [isGap, Bool.or_eq_true, decide_eq_true_eq] at hgap
    rcases hgap with ((rfl | rfl) | rfl) | rfl
    · cases h
    · cases h
    · decide
    · decide

theorem isLineEnd_of_read {l : List Char} {v : Value} (h : Json.read l = .ok v) {c : Char} (hc : c ∈ l)
    (hplain : c ∉ lineEnds) : isLineEnd c = false := by
  obtain ⟨gap, piece, gap', rfl, hgap, hgap', hspells⟩ := read_eq_ok_iff.1 h
  have hwritten : IsWritten (gap ++ (piece ++ gap')) := hgap.isWritten.append (hspells.written.append hgap'.isWritten)
  cases hend : isLineEnd c with
  | false => rfl
  | true => exact absurd (mem_lineEnds hend (hwritten c hc)) hplain

def listAt? (es : Entries) (name : String) : Option (List Value) :=
  match Entries.get? es name with
  | some (.list rows) => some rows
  | _ => none

theorem rowsOfDocument_dict (es : Entries) :
    rowsOfDocument (.dict es) =
      match (listAt? es "items").or (listAt? es "bookmarks") with
      | some rows => .ok rows
      | none => .error .noListInside := by
  have hnames : (wrapperNames.findSome? fun name => listAt? es name) = (listAt? es "items").or (listAt? es "bookmarks") := by
    unfold wrapperNames
    cases h : listAt? es "items" <;> simp [List.findSome?, h]
    cases h : listAt? es "bookmarks" <;> rfl
  rw [← hnames]
  rfl

/-- A text that is one document is read as one. -/
theorem rowsOf_of_read {text : List Char} {v : Value} (h : Json.read text = .ok v) : rowsOf text = rowsOfDocument v := by
  have hread : Json.read (strip text) = .ok v := read_strip h
  have hne : strip text ≠ [] := by
    intro hnil
    rw [hnil] at hread
    cases hread
  unfold rowsOf
  dsimp only
  rw [if_neg (by simpa using hne), hread]

/-- Texts, each of which is one of the objects, in order. -/
def WriteObjects (texts : List (List Char)) (objects : List Entries) : Prop :=
  List.Forall₂ (fun t es => Json.read t = .ok (.dict es)) texts objects

theorem WriteObjects.holdRows {texts : List (List Char)} {objects : List Entries} (h : WriteObjects texts objects) :
    HoldRows texts (objects.map .dict) := by
  unfold WriteObjects at h
  induction h with
  | nil => exact .nil
  | cons hread _ ih => exact .row hread ih

theorem WriteObjects.read {texts : List (List Char)} {objects : List Entries} (h : WriteObjects texts objects) {t : List Char}
    (ht : t ∈ texts) : ∃ es, Json.read t = .ok (.dict es) := by
  unfold WriteObjects at h
  induction h with
  | nil => cases ht
  | cons hread _ ih =>
    rcases List.mem_cons.1 ht with rfl | ht
    · exact ⟨_, hread⟩
    · exact ih ht

/-- Objects, one a line, are all read in order, as long as there are two of them and no character
    in them ends a line. One object is read as a document: it gives the rows of the list in it. -/
theorem rowsOf_objects {texts : List (List Char)} {objects : List Entries} (h : WriteObjects texts objects) :
    (2 ≤ objects.length → (∀ t ∈ texts, ∀ c ∈ t, c ∉ lineEnds) →
      rowsOf (joinWith ['\n'] texts) = .ok (objects.map .dict)) ∧
    ∀ es, objects = [es] → rowsOf (joinWith ['\n'] texts) =
      match (listAt? es "items").or (listAt? es "bookmarks") with
      | some rows => .ok rows
      | none => .error .noListInside := by
  constructor
  · intro hmany hplain
    refine rowsOf_joinWith h.holdRows (by simpa using hmany) fun t ht c hc => ?_
    obtain ⟨es, hread⟩ := h.read ht
    exact isLineEnd_of_read hread hc (hplain t ht c hc)
  · rintro es rfl
    cases h with
    | cons hread hnil =>
      cases hnil
      rw [joinWith, rowsOf_of_read hread, rowsOfDocument_dict]

theorem read_object_with_list :
    (match Json.read "\x7b\"id\": \"a\", \"items\": []\x7d".toList with
      | .ok (.dict [(.text "id", .text "a"), (.text "items", .list [])]) => true
      | _ => false) = true := by
  decide +kernel

theorem read_object_in_gaps :
    (match Json.read " \x7b\"id\": 2, \"tags\": [\"x\"]\x7d\t".toList with
      | .ok (.dict [(.text "id", .int 2), (.text "tags", .list [.text "x"])]) => true
      | _ => false) = true := by
  decide +kernel

theorem writeObjects_two :
    WriteObjects ["\x7b\"id\": \"a\", \"items\": []\x7d".toList, " \x7b\"id\": 2, \"tags\": [\"x\"]\x7d\t".toList]
      [[(.text "id", .text "a"), (.text "items", .list [])], [(.text "id", .int 2), (.text "tags", .list [.text "x"])]] := by
  refine .cons ?_ (.cons ?_ .nil)
  · have hfirst := read_object_with_list
    split at hfirst
    · rename_i heq
      exact heq
    · exact absurd hfirst Bool.false_ne_true
  · have hsecond := read_object_in_gaps
    split at hsecond
    · rename_i heq
      exact heq
    · exact absurd hsecond Bool.false_ne_true

/-- Two objects, of which the first holds a list and the second has white space around it. -/
theorem rowsOf_objects_two :
    let texts := ["\x7b\"id\": \"a\", \"items\": []\x7d".toList, " \x7b\"id\": 2, \"tags\": [\"x\"]\x7d\t".toList]
    let objects := [[(.text "id", .text "a"), (.text "items", .list [])],
      [(.text "id", .int 2), (.text "tags", .list [.text "x"])]]
    WriteObjects texts objects ∧ rowsOf (joinWith ['\n'] texts) = .ok (objects.map .dict) := by
  intro texts objects
  have hwrite : WriteObjects texts objects := writeObjects_two
  have hplain : (texts.all fun t => t.all fun c => decide (c ∉ lineEnds)) = true := by decide +kernel
  refine ⟨hwrite, (rowsOf_objects hwrite).1 (by decide) fun t ht c hc => ?_⟩
  exact of_decide_eq_true (List.all_eq_true.1 (List.all_eq_true.1 hplain t ht) c hc)

theorem read_lone_object :
    (match Json.read "\x7b\"id\": \"1\"\x7d".toList with
      | .ok (.dict [(.text "id", .text "1")]) => true
      | _ => false) = true := by
  decide +kernel

/-- One object on its own is no list of one object. -/
theorem rowsOf_lone_object :
    ∃ t es, Json.read t = .ok (.dict es) ∧ '\n' ∉ t ∧ '\r' ∉ t ∧ rowsOf (joinWith ['\n'] [t]) ≠ .ok [.dict es] := by
  have hread := read_lone_object
  split at hread
  · rename_i heq
    refine ⟨_, _, heq, by decide, by decide, ?_⟩
    have hnone : (listAt? [(.text "id", .text "1")] "items").or (listAt? [(.text "id", .text "1")] "bookmarks") = none :=
      rfl
    rw [joinWith, rowsOf_of_read heq, rowsOfDocument_dict, hnone]
    exact fun h => by cases h
  · exact absurd hread Bool.false_ne_true

end SearchBox.Store

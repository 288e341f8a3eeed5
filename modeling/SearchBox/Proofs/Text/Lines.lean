import Mathlib.Data.List.Induction
import SearchBox.Proofs.Text.Words
import SearchBox.Text.Utf8

/-!
  SearchBox.Proofs.Text.Lines — texts line by line. A text is its first line, what ends it and
  the rest, in which the further lines are (`exists_first_line`); what ends the lines makes no
  difference (`lines_withLineFeeds`). Lines put one below the other are the lines of the text,
  but for a blank one at the end (`visibleLines_joinWith`). White space around a text is blank
  lines around its lines, and a wider first and last line (`exists_lines_between`).
-/

namespace SearchBox.Text

/-! ## White space at the ends -/

theorem IsEdged.isBlankText {m : List Char} (h : IsEdged m) : isBlankText m = false := by
  obtain ⟨⟨c, hc, hvisible⟩, -⟩ := h
  obtain ⟨tail, rfl⟩ := List.head?_eq_some_iff.1 hc
  simp [Text.isBlankText, hvisible]

theorem isBlankText_append (a b : List Char) : isBlankText (a ++ b) = (isBlankText a && isBlankText b) :=
  List.all_append

/-- What a text keeps when it loses a character of white space at either end, it keeps when it is stripped. -/
theorem strip_induction {p : List Char → Prop} (hfront : ∀ c s, isBlank c = true → p (c :: s) → p s)
    (hback : ∀ c s, isBlank c = true → p (s ++ [c]) → p s) {s : List Char} (h : p s) : p (strip s) := by
  have hstart : p (stripStart s) := by
    induction s with
    | nil => exact h
    | cons c s ih =>
      cases hc : isBlank c with
      | true =>
        rw [stripStart, List.dropWhile_cons_of_pos hc]
        exact ih (hfront c s hc h)
      | false => rwa [stripStart, List.dropWhile_cons_of_neg (by simp [hc])]
  rw [strip]
  generalize stripStart s = t at hstart
  induction t using List.reverseRecOn with
  | nil => exact hstart
  | append_singleton t c ih =>
    rw [stripEnd, List.reverse_append, List.reverse_singleton, List.singleton_append]
    cases hc : isBlank c with
    | true =>
      rw [List.dropWhile_cons_of_pos hc]
      exact ih (hback c t hc hstart)
    | false => rwa [List.dropWhile_cons_of_neg (by simp [hc]), List.reverse_cons, List.reverse_reverse]

/-- No white space is left in front. -/
theorem head?_strip (s : List Char) : ∀ c ∈ (strip s).head?, isBlank c = false := by
  intro c hc
  have hprefix : strip s <+: stripStart s := by
    rw [← List.reverse_suffix, strip, stripEnd, List.reverse_reverse]
    exact List.dropWhile_suffix isBlank
  obtain ⟨tail, htail⟩ := List.head?_eq_some_iff.1 hc
  obtain ⟨rest, hrest⟩ := hprefix
  rw [htail] at hrest
  exact not_isBlank_of_stripStart hrest.symm

theorem strip_surrounded (s : List Char) :
    ∃ u w, isBlankText u = true ∧ isBlankText w = true ∧ s = u ++ (strip s ++ w) := by
  have hend : stripStart s = strip s ++ ((stripStart s).reverse.takeWhile isBlank).reverse := by
    rw [strip, stripEnd, ← List.reverse_append, List.takeWhile_append_dropWhile, List.reverse_reverse]
  refine ⟨s.takeWhile isBlank, ((stripStart s).reverse.takeWhile isBlank).reverse, ?_, ?_, ?_⟩
  · exact List.all_takeWhile
  · rw [isBlankText_reverse]
    exact List.all_takeWhile
  · rw [← hend, stripStart, List.takeWhile_append_dropWhile]

theorem strip_isInfix (s : List Char) : strip s <:+: s := by
  obtain ⟨u, w, -, -, hsplit⟩ := strip_surrounded s
  exact ⟨u, w, by rw [List.append_assoc, ← hsplit]⟩

/-- What is left of a text that says something starts and ends visibly. -/
theorem isEdged_strip {s : List Char} (h : isBlankText s = false) : IsEdged (strip s) := by
  have hne : strip s ≠ [] := by
    rw [Ne, strip_eq_nil_iff, h]
    exact Bool.false_ne_true
  obtain ⟨c, hc⟩ := Option.ne_none_iff_exists'.1 (mt List.head?_eq_none_iff.1 hne)
  obtain ⟨d, hd⟩ := Option.ne_none_iff_exists'.1 (mt List.getLast?_eq_none_iff.1 hne)
  refine ⟨⟨c, hc, head?_strip s c hc⟩, d, hd, ?_⟩
  rw [strip, stripEnd, List.getLast?_reverse] at hd
  have hvisible := List.head?_dropWhile_not isBlank (stripStart s).reverse
  rw [hd] at hvisible
  simpa using hvisible

/-! ## Lines -/

theorem linesFrom_cons {c : Char} (hc : isLineEnd c = false) (line rest : List Char) :
    linesFrom line (c :: rest) = linesFrom (c :: line) rest := by
  rw [linesFrom]
  · rw [if_neg (by simp [hc])]
  · rintro _ rfl _
    cases hc

theorem linesFrom_append {l : List Char} (h : ∀ c ∈ l, isLineEnd c = false) (line rest : List Char) :
    linesFrom line (l ++ rest) = linesFrom (l.reverse ++ line) rest := by
  induction l generalizing line with
  | nil => rfl
  | cons c l ih =>
    obtain ⟨hc, hl⟩ := List.forall_mem_cons.1 h
    rw [List.cons_append, linesFrom_cons hc, ih hl]
    simp

theorem linesFrom_lineFeed (line rest : List Char) : linesFrom line ('\n' :: rest) = line.reverse :: linesFrom [] rest := by
  rw [linesFrom]
  · rfl
  · exact fun _ h => absurd h (by decide)

theorem linesFrom_returnFeed (line rest : List Char) :
    linesFrom line ('\r' :: '\n' :: rest) = line.reverse :: linesFrom [] rest := by
  rw [linesFrom]

theorem linesFrom_end {c : Char} (hc : isLineEnd c = true) (line : List Char) {rest : List Char}
    (hpair : c = '\r' → '\n' ∉ rest.head?) : linesFrom line (c :: rest) = line.reverse :: linesFrom [] rest := by
  rw [linesFrom]
  · rw [if_pos hc]
  · rintro tail rfl rfl
    exact hpair rfl rfl

/-- Cases for the front of a text: no end of line, one of two characters, or one of a single one. -/
theorem front_cases (c : Char) (rest : List Char) :
    isLineEnd c = false ∨ (c = '\r' ∧ ∃ tail, rest = '\n' :: tail) ∨
      (isLineEnd c = true ∧ (c = '\r' → '\n' ∉ rest.head?)) := by
  cases hc : isLineEnd c with
  | false => exact .inl rfl
  | true =>
    by_cases hpair : c = '\r' ∧ '\n' ∈ rest.head?
    · exact .inr (.inl ⟨hpair.1, List.head?_eq_some_iff.1 hpair.2⟩)
    · exact .inr (.inr ⟨rfl, fun hr hn => hpair ⟨hr, hn⟩⟩)

theorem isBlank_of_isLineEnd {c : Char} (h : isLineEnd c = true) : isBlank c = true := by
  simp only [isLineEnd, covers] at h
  simp only [isBlank, blankRanges, covers]
  grind

/-- The first line of a text, what ends it and the rest, in which the further lines are. -/
theorem exists_first_line {s : List Char} (h : s ≠ []) :
    ∃ l sep rest, s = l ++ (sep ++ rest) ∧ (∀ c ∈ (sep ++ rest).head?, isBlank c = true) ∧
      ∀ line, linesFrom line s = (line.reverse ++ l) :: lines rest := by
  induction s with
  | nil => exact absurd rfl h
  | cons c s ih =>
    rcases front_cases c s with hc | ⟨rfl, tail, rfl⟩ | ⟨hc, hpair⟩
    · by_cases hs : s = []
      · subst hs
        refine ⟨[c], [], [], rfl, nofun, fun line => ?_⟩
        rw [linesFrom_cons hc, linesFrom]
        simp [lines, linesFrom]
      · obtain ⟨l, sep, rest, heq, hend, hlines⟩ := ih hs
        refine ⟨c :: l, sep, rest, by rw [heq, List.cons_append], hend, fun line => ?_⟩
        rw [linesFrom_cons hc, hlines]
        simp
    · have hreturn : isBlank '\r' = true := by decide
      refine ⟨[], ['\r', '\n'], tail, rfl, by simp [hreturn], fun line => ?_⟩
      rw [linesFrom_returnFeed, List.append_nil, lines]
    · refine ⟨[], [c], s, rfl, by simp [isBlank_of_isLineEnd hc], fun line => ?_⟩
      rw [linesFrom_end hc line hpair, List.append_nil, lines]

theorem all_isBlankText_linesFrom {line s : List Char} (hline : isBlankText line = true) (hs : isBlankText s = true) :
    (linesFrom line s).all isBlankText = true := by
  fun_induction linesFrom line s with
  | case1 => rfl
  | case2 line hne => simpa [isBlankText_reverse] using hline
  | case3 line rest ih =>
    have hrest : isBlankText rest = true := by simp_all [isBlankText]
    simp [isBlankText_reverse, hline, ih rfl hrest]
  | case4 line c rest hpair hc ih =>
    have hrest : isBlankText rest = true := by simp_all [isBlankText]
    simp [isBlankText_reverse, hline, ih rfl hrest]
  | case5 line c rest hpair hc ih =>
    have hboth : isBlankText (c :: line) = true ∧ isBlankText rest = true := by simp_all [isBlankText]
    exact ih hboth.1 hboth.2

/-- Every line is a piece of the text. -/
theorem isInfix_of_mem_linesFrom {line s l : List Char} (h : l ∈ linesFrom line s) : l <:+: line.reverse ++ s := by
  fun_induction linesFrom line s with
  | case1 => cases h
  | case2 line hne =>
    rw [List.mem_singleton.1 h]
    exact (List.prefix_append _ _).isInfix
  | case3 line rest ih =>
    rcases List.mem_cons.1 h with rfl | h
    · exact (List.prefix_append _ _).isInfix
    · exact (ih h).trans ⟨line.reverse ++ ['\r', '\n'], [], by simp⟩
  | case4 line c rest hpair hc ih =>
    rcases List.mem_cons.1 h with rfl | h
    · exact (List.prefix_append _ _).isInfix
    · exact (ih h).trans ⟨line.reverse ++ [c], [], by simp⟩
  | case5 line c rest hpair hc ih => simpa using ih h

theorem isInfix_of_mem_lines {s l : List Char} (h : l ∈ lines s) : l <:+: s :=
  isInfix_of_mem_linesFrom h

theorem linesFrom_withLineFeeds (line s : List Char) : linesFrom line (withLineFeeds s) = linesFrom line s := by
  fun_induction withLineFeeds s generalizing line with
  | case1 => rfl
  | case2 rest ih => rw [linesFrom_lineFeed, linesFrom_returnFeed, ih]
  | case3 rest hpair ih =>
    have hhead : '\n' ∉ rest.head? := fun hn => by
      obtain ⟨tail, rfl⟩ := List.head?_eq_some_iff.1 hn
      exact hpair tail rfl
    rw [linesFrom_lineFeed, linesFrom_end (by decide) line fun _ => hhead, ih]
  | case4 c rest hpair hreturn ih =>
    cases hc : isLineEnd c with
    | false => rw [linesFrom_cons hc, linesFrom_cons hc, ih]
    | true =>
      rw [linesFrom_end hc line fun heq => absurd heq hreturn, linesFrom_end hc line fun heq => absurd heq hreturn, ih]

/-- Lines are the same with all ends of line as line feeds. -/
theorem lines_withLineFeeds (s : List Char) : lines (withLineFeeds s) = lines s :=
  linesFrom_withLineFeeds [] s

theorem withLineFeeds_of_not_mem {s : List Char} (h : '\r' ∉ s) : withLineFeeds s = s := by
  fun_induction withLineFeeds s with
  | case1 => rfl
  | case2 rest ih => exact absurd List.mem_cons_self h
  | case3 rest hpair ih => exact absurd List.mem_cons_self h
  | case4 c rest hpair hreturn ih => rw [ih fun hrest => h (List.mem_cons_of_mem _ hrest)]

theorem lines_append_lineFeed {l : List Char} (h : ∀ c ∈ l, isLineEnd c = false) (rest : List Char) :
    lines (l ++ '\n' :: rest) = l :: lines rest := by
  rw [lines, linesFrom_append h, linesFrom_lineFeed]
  simp [lines]

theorem lines_of_lone_line {l : List Char} (h : ∀ c ∈ l, isLineEnd c = false) : lines l = if l.isEmpty then [] else [l] := by
  have hall := linesFrom_append h [] []
  rw [List.append_nil, List.append_nil] at hall
  rw [lines, hall, linesFrom]
  simp

def visibleLines (s : List Char) : List (List Char) :=
  (lines s).filter fun l => !isBlankText l

/-- Lines put one below the other keep those that are not blank. -/
theorem visibleLines_joinWith {ls : List (List Char)} (h : ∀ l ∈ ls, ∀ c ∈ l, isLineEnd c = false) :
    visibleLines (joinWith ['\n'] ls) = ls.filter fun l => !isBlankText l := by
  induction ls with
  | nil => rfl
  | cons l ls ih =>
    obtain ⟨hl, hls⟩ := List.forall_mem_cons.1 h
    by_cases hne : ls = []
    · subst hne
      rw [joinWith, visibleLines, lines_of_lone_line hl]
      cases l with
      | nil => rfl
      | cons c l => rfl
    · rw [joinWith_cons _ _ hne, List.append_assoc, List.singleton_append, visibleLines, lines_append_lineFeed hl,
        List.filter_cons, List.filter_cons, ← ih hls, visibleLines]

/-! ## Lines between white space -/

/-- A line, and the same line with characters of a kind in front of it and after it. -/
def Widens (P : Char → Prop) (wide l : List Char) : Prop :=
  ∃ front back, (∀ c ∈ front, P c) ∧ (∀ c ∈ back, P c) ∧ wide = front ++ (l ++ back)

theorem widens_refl (P : Char → Prop) (l : List Char) : Widens P l l :=
  ⟨[], [], nofun, nofun, by simp⟩

theorem Widens.imp {P Q : Char → Prop} (hPQ : ∀ c, P c → Q c) {wide l : List Char} (h : Widens P wide l) :
    Widens Q wide l := by
  obtain ⟨front, back, hfront, hback, rfl⟩ := h
  exact ⟨front, back, fun c hc => hPQ c (hfront c hc), fun c hc => hPQ c (hback c hc), rfl⟩

/-- White space in front of a text is blank lines, and perhaps the front of the first line. -/
theorem exists_lines_front {line u : List Char} (hline : isBlankText line = true) (hu : isBlankText u = true) :
    ∃ before front, (∀ l ∈ before, isBlankText l = true) ∧ (∀ c ∈ front, c ∈ line ∨ c ∈ u) ∧
      ∀ s, (∀ c ∈ s.head?, isLineEnd c = false) → linesFrom line (u ++ s) = before ++ linesFrom front s := by
  fun_induction linesFrom line u with
  | case1 line hempty => exact ⟨[], line, List.forall_mem_nil _, fun c => .inl, fun s _ => rfl⟩
  | case2 line hne => exact ⟨[], line, List.forall_mem_nil _, fun c => .inl, fun s _ => rfl⟩
  | case3 line rest ih =>
    have hrest : isBlankText rest = true := by simp_all [isBlankText]
    obtain ⟨before, front, hbefore, hfront, hlines⟩ := ih rfl hrest
    refine ⟨line.reverse :: before, front, List.forall_mem_cons.2 ⟨by rwa [isBlankText_reverse], hbefore⟩, ?_, ?_⟩
    · exact fun c hc => .inr ((hfront c hc).elim (absurd · List.not_mem_nil) fun h => by simp [h])
    · intro s hs
      rw [List.cons_append, List.cons_append, linesFrom_returnFeed, hlines s hs, List.cons_append]
  | case4 line c rest hpair hc ih =>
    have hrest : isBlankText rest = true := by simp_all [isBlankText]
    obtain ⟨before, front, hbefore, hfront, hlines⟩ := ih rfl hrest
    refine ⟨line.reverse :: before, front, List.forall_mem_cons.2 ⟨by rwa [isBlankText_reverse], hbefore⟩, ?_, ?_⟩
    · exact fun d hd => .inr ((hfront d hd).elim (absurd · List.not_mem_nil) fun h => List.mem_cons_of_mem _ h)
    · intro s hs
      have hpair' : c = '\r' → '\n' ∉ (rest ++ s).head? := by
        rintro rfl hn
        cases rest with
        | nil => exact absurd (hs _ hn) (by decide)
        | cons d rest =>
          cases hn
          exact hpair rest rfl rfl
      rw [List.cons_append, linesFrom_end hc line hpair', hlines s hs, List.cons_append]
  | case5 line c rest hpair hc ih =>
    have hboth : isBlankText (c :: line) = true ∧ isBlankText rest = true := by simp_all [isBlankText]
    obtain ⟨before, front, hbefore, hfront, hlines⟩ := ih hboth.1 hboth.2
    refine ⟨before, front, hbefore, fun d hd => ?_, fun s hs => ?_⟩
    · rcases hfront d hd with h | h
      · rcases List.mem_cons.1 h with rfl | h
        · exact .inr List.mem_cons_self
        · exact .inl h
      · exact .inr (List.mem_cons_of_mem _ h)
    · rw [List.cons_append, linesFrom_cons (by simpa using hc), hlines s hs]

/-- What follows a text that does not end a line goes on with its last line. -/
theorem exists_last_line {s : List Char} (hs : ∃ c ∈ s.getLast?, isLineEnd c = false) (line : List Char) :
    ∃ before last, last ≠ [] ∧ ∀ w, linesFrom line (s ++ w) = before ++ linesFrom last w := by
  fun_induction linesFrom line s with
  | case1 line hempty => simp at hs
  | case2 line hne => simp at hs
  | case3 line rest ih =>
    have hrest : ∃ c ∈ rest.getLast?, isLineEnd c = false := by
      cases rest with
      | nil =>
        obtain ⟨c, hc, hend⟩ := hs
        cases hc
        exact absurd hend (by decide)
      | cons d rest => simpa using hs
    obtain ⟨before, last, hlast, hlines⟩ := ih hrest
    refine ⟨line.reverse :: before, last, hlast, fun w => ?_⟩
    rw [List.cons_append, List.cons_append, linesFrom_returnFeed, hlines, List.cons_append]
  | case4 line c rest hpair hc ih =>
    have hne : rest ≠ [] := by
      rintro rfl
      simp [hc] at hs
    obtain ⟨d, rest, rfl⟩ := List.exists_cons_of_ne_nil hne
    obtain ⟨before, last, hlast, hlines⟩ := ih (by simpa using hs)
    refine ⟨line.reverse :: before, last, hlast, fun w => ?_⟩
    have hpair' : c = '\r' → '\n' ∉ (d :: rest ++ w).head? := by
      rintro rfl hn
      cases hn
      exact hpair rest rfl rfl
    rw [List.cons_append, linesFrom_end hc line hpair', hlines, List.cons_append]
  | case5 line c rest hpair hc ih =>
    have hopen : isLineEnd c = false := by simpa using hc
    by_cases hrest : rest = []
    · subst hrest
      exact ⟨[], c :: line, List.cons_ne_nil _ _, fun w => linesFrom_cons hopen line w⟩
    · obtain ⟨d, rest, rfl⟩ := List.exists_cons_of_ne_nil hrest
      obtain ⟨before, last, hlast, hlines⟩ := ih (by simpa using hs)
      refine ⟨before, last, hlast, fun w => ?_⟩
      rw [List.cons_append, linesFrom_cons hopen, hlines]

theorem isLineEnd_eq_false {c : Char} (h : isBlank c = false) : isLineEnd c = false := by
  cases hc : isLineEnd c with
  | false => rfl
  | true =>
    rw [isBlank_of_isLineEnd hc] at h
    cases h

/-- Of a text between white space the lines are those of the text, of which the first and the last
    one are wider perhaps, between blank lines. -/
theorem exists_lines_between {P : Char → Prop} (hP : ∀ c, P c → isBlank c = true) {u s w : List Char}
    (hu : ∀ c ∈ u, P c) (hw : ∀ c ∈ w, P c) (hs : IsEdged s) :
    ∃ before middle after, lines (u ++ (s ++ w)) = before ++ (middle ++ after) ∧
      (∀ l ∈ before ++ after, isBlankText l = true) ∧ List.Forall₂ (Widens P) middle (lines s) := by
  obtain ⟨⟨c, hc, hvisible⟩, d, hd, hvisible'⟩ := hs
  have hhead : ∀ e ∈ (s ++ w).head?, isLineEnd e = false := by
    intro e he
    rw [List.head?_append, Option.mem_def.1 hc] at he
    cases he
    exact isLineEnd_eq_false hvisible
  have hgap : isBlankText u = true := isBlankText_iff.2 fun e he => hP e (hu e he)
  obtain ⟨before, front, hbefore, hfront, hlines⟩ := @exists_lines_front [] u rfl hgap
  have hfront : ∀ e ∈ front.reverse, P e := by
    intro e he
    exact hu e ((hfront e (List.mem_reverse.1 he)).resolve_left nofun)
  -- The first line of the text itself comes after what is left of the white space.
  have hne : s ++ w ≠ [] := by
    intro hnil
    rw [(List.append_eq_nil_iff.1 hnil).1] at hc
    cases hc
  obtain ⟨first, sep, rest, -, -, hfirst⟩ := exists_first_line hne
  -- The white space after the text goes on with its last line.
  obtain ⟨init, last, hlast, hinit⟩ := exists_last_line ⟨d, hd, isLineEnd_eq_false hvisible'⟩ []
  have hafter : ∃ back after, linesFrom last w = (last.reverse ++ back) :: after ∧ (∀ e ∈ back, P e) ∧
      ∀ l ∈ after, isBlankText l = true := by
    by_cases hwnil : w = []
    · refine ⟨[], [], ?_, nofun, nofun⟩
      rw [hwnil, linesFrom, if_neg (by simpa using hlast), List.append_nil]
    · obtain ⟨back, sep, later, rfl, -, hback⟩ := exists_first_line hwnil
      refine ⟨back, lines later, hback last, fun e he => hw e (by simp [he]), ?_⟩
      have hlater : isBlankText later = true := isBlankText_iff.2 fun e he => hP e (hw e (by simp [he]))
      exact List.all_eq_true.1 (all_isBlankText_linesFrom rfl hlater)
  obtain ⟨back, after, hback, hbackP, hafter⟩ := hafter
  have hlast' : lines s = init ++ [last.reverse] := by
    have hself := hinit []
    rwa [List.append_nil, linesFrom, if_neg (by simpa using hlast)] at hself
  have hwhole : first :: lines rest = init ++ (last.reverse ++ back) :: after := by
    rw [← hback, ← hinit w, hfirst []]
    rfl
  have hblank : ∀ l ∈ before ++ after, isBlankText l = true := by
    intro l hl
    exact (List.mem_append.1 hl).elim (hbefore l) (hafter l)
  rw [lines, hlines _ hhead, hfirst, hlast']
  cases init with
  | nil =>
    obtain ⟨rfl, hrest⟩ := List.cons.inj hwhole
    refine ⟨before, [front.reverse ++ (last.reverse ++ back)], after, by rw [hrest]; rfl, hblank, ?_⟩
    exact .cons ⟨front.reverse, back, hfront, hbackP, rfl⟩ .nil
  | cons b init =>
    obtain ⟨rfl, hrest⟩ := List.cons.inj hwhole
    refine ⟨before, (front.reverse ++ first) :: (init ++ [last.reverse ++ back]), after, by rw [hrest]; simp, hblank, ?_⟩
    refine .cons ⟨front.reverse, [], hfront, nofun, by simp⟩
      (List.rel_append ?_ (.cons ⟨[], back, nofun, hbackP, rfl⟩ .nil))
    exact List.forall₂_same.2 fun l _ => widens_refl P l

end SearchBox.Text

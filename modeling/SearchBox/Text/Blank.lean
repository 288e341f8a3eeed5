import SearchBox.Text.Ranges

/-!
  SearchBox.Text.Blank — white space and what is cut along it: stripped texts, words and
  lines. White space is the Unicode property of that name together with the four separator
  controls U+001C to U+001F. Lines end at more characters than the line feed.
-/

namespace SearchBox.Text

def blankRanges : List (Nat × Nat) :=
  [(9, 13), (28, 32), (133, 133), (160, 160), (5760, 5760), (8192, 8202), (8232, 8233),
   (8239, 8239), (8287, 8287), (12288, 12288)]

def isBlank (c : Char) : Bool :=
  covers blankRanges c.toNat

def isBlankText (s : List Char) : Bool :=
  s.all isBlank

theorem isBlankText_iff {s : List Char} : isBlankText s = true ↔ ∀ c ∈ s, isBlank c = true :=
  List.all_eq_true

theorem isBlankText_reverse (s : List Char) : isBlankText s.reverse = isBlankText s := by
  simp [isBlankText]

def stripStart (s : List Char) : List Char :=
  s.dropWhile isBlank

theorem stripStart_eq_nil_iff {s : List Char} : stripStart s = [] ↔ isBlankText s = true := by
  induction s with
  | nil => simp [stripStart, isBlankText]
  | cons c rest ih =>
    cases h : isBlank c
    · simp [stripStart, isBlankText, h]
    · rw [stripStart, List.dropWhile_cons, h, if_pos rfl, isBlankText, List.all_cons, h, Bool.true_and]
      exact ih

theorem not_isBlank_of_stripStart {s rest : List Char} {c : Char} (h : stripStart s = c :: rest) :
    isBlank c = false := by
  induction s with
  | nil => cases h
  | cons d later ih =>
    cases hd : isBlank d
    · simp only [stripStart, List.dropWhile_cons, hd, Bool.false_eq_true, if_false, List.cons.injEq] at h
      exact h.1 ▸ hd
    · simp only [stripStart, List.dropWhile_cons, hd, if_true] at h
      exact ih h

def stripEnd (s : List Char) : List Char :=
  (s.reverse.dropWhile isBlank).reverse

def strip (s : List Char) : List Char :=
  stripEnd (stripStart s)

theorem strip_eq_nil_iff {s : List Char} : strip s = [] ↔ isBlankText s = true := by
  rw [← stripStart_eq_nil_iff]
  constructor
  · intro h
    have blank : isBlankText (stripStart s) = true := by
      rw [← isBlankText_reverse, ← stripStart_eq_nil_iff]
      exact List.reverse_eq_nil_iff.1 h
    cases hs : stripStart s with
    | nil => rfl
    | cons c rest =>
      rw [hs, isBlankText, List.all_cons, not_isBlank_of_stripStart hs] at blank
      cases blank
  · intro h
    rw [strip, h]
    rfl

/-- The words of `c :: rest`, where `c` is no white space and `rest` has the given words. -/
def prependToWords (c : Char) : List Char → List (List Char) → List (List Char)
  | d :: _, w :: ws => if isBlank d then [c] :: w :: ws else (c :: w) :: ws
  | _, _ => [[c]]

/-- The maximal runs of characters that are not white space, in order. -/
def words : List Char → List (List Char)
  | [] => []
  | c :: rest => if isBlank c then words rest else prependToWords c rest (words rest)

theorem words_of_isBlank {c : Char} (h : isBlank c = true) (s : List Char) : words (c :: s) = words s := by
  simp [words, h]

theorem mem_prependToWords {c : Char} {s : List Char} {ws : List (List Char)} {w : List Char}
    (h : w ∈ prependToWords c s ws) : w = [c] ∨ w ∈ ws ∨ ∃ v ∈ ws, w = c :: v := by
  fun_cases prependToWords c s ws <;> grind [prependToWords]

theorem of_mem_words {s w : List Char} (h : w ∈ words s) : w ≠ [] ∧ ∀ c ∈ w, isBlank c = false := by
  induction s generalizing w with
  | nil => cases h
  | cons c rest ih =>
    cases hc : isBlank c
    · simp only [words, hc, Bool.false_eq_true, if_false] at h
      rcases mem_prependToWords h with rfl | h | ⟨v, hv, rfl⟩
      · simpa using hc
      · exact ih h
      · exact ⟨List.cons_ne_nil _ _, List.forall_mem_cons.2 ⟨hc, (ih hv).2⟩⟩
    · exact ih (words_of_isBlank hc rest ▸ h)

/-- The characters that end a line. A carriage return takes a line feed after it along. -/
def isLineEnd (c : Char) : Bool :=
  covers [(10, 13), (28, 30), (133, 133), (8232, 8233)] c.toNat

/-- Collects lines; `line` holds the characters of the open line in reverse. -/
def linesFrom (line : List Char) : List Char → List (List Char)
  | [] => if line.isEmpty then [] else [line.reverse]
  | '\r' :: '\n' :: rest => line.reverse :: linesFrom [] rest
  | c :: rest => if isLineEnd c then line.reverse :: linesFrom [] rest else linesFrom (c :: line) rest

/-- The lines of a text without their ends. An end of line at the end of the text opens no
    further line. -/
def lines (s : List Char) : List (List Char) :=
  linesFrom [] s

def occursIn (needle : List Char) : List Char → Bool
  | [] => needle.isEmpty
  | c :: rest => needle.isPrefixOf (c :: rest) || occursIn needle rest

def joinWith (separator : List Char) : List (List Char) → List Char
  | [] => []
  | [t] => t
  | t :: ts => t ++ separator ++ joinWith separator ts

end SearchBox.Text

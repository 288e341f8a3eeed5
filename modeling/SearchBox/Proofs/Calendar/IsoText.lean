import SearchBox.Proofs.Calendar.Date
import SearchBox.Proofs.Calendar.Pieces
import SearchBox.Proofs.Text.Letterwise

/-!
  SearchBox.Proofs.Calendar.IsoText — dates in the form `2024-06-15`, perhaps with a time of day and
  an offset as in `2024-06-15T10:00:00.250000+05:30`. Such a date is cut into its numbers and marks
  (`tokens_text`), seconds and their parts being one number. Lower-cased, it is a date in this form
  again (`lower_text`).
-/

namespace SearchBox.Calendar.Written

open SearchBox.Number SearchBox.Text

/-! ## The form -/

/-- What may stand after a time of day: the letter for universal time, or an offset. -/
inductive ZoneMark where
  | omitted
  | universal (capital : Bool)
  | offset (ahead : Bool) (hours minutes : Fin 100)

/-- The smallest part of a time of day that is written. -/
inductive Fineness where
  | minutes
  | seconds
  | micros

structure IsoClock where
  capital : Bool
  time : TimeOfDay
  isValid : time.isValid = true
  fineness : Fineness
  zone : ZoneMark

structure IsoDate where
  date : Date
  clock : Option IsoClock

namespace ZoneMark

def letter (capital : Bool) : Char :=
  if capital then 'Z' else 'z'

def sign (ahead : Bool) : Char :=
  if ahead then '+' else '-'

def text : ZoneMark → List Char
  | .omitted => []
  | .universal capital => [letter capital]
  | .offset ahead hours minutes => sign ahead :: (paddedDigits hours 2 ++ ':' :: paddedDigits minutes 2)

/-- The seconds ahead of universal time, where anything is written. -/
def seconds? : ZoneMark → Option Int
  | .omitted => none
  | .universal _ => some 0
  | .offset ahead hours minutes =>
    some (if ahead then (hours * 3600 + minutes * 60 : Nat) else -(hours * 3600 + minutes * 60 : Nat))

end ZoneMark

namespace IsoClock

def letter (capital : Bool) : Char :=
  if capital then 'T' else 't'

def secondsText (c : IsoClock) : List Char :=
  match c.fineness with
  | .minutes => []
  | .seconds => ':' :: paddedDigits c.time.second 2
  | .micros => ':' :: (paddedDigits c.time.second 2 ++ '.' :: paddedDigits c.time.micro 6)

def text (c : IsoClock) : List Char :=
  letter c.capital :: (paddedDigits c.time.hour 2 ++ ':' ::
    (paddedDigits c.time.minute 2 ++ (c.secondsText ++ c.zone.text)))

/-- The time of day that is written, parts that are left out being zero. -/
def shown (c : IsoClock) : TimeOfDay :=
  match c.fineness with
  | .minutes => { c.time with second := 0, micro := 0 }
  | .seconds => { c.time with micro := 0 }
  | .micros => c.time

end IsoClock

namespace IsoDate

def text (f : IsoDate) : List Char :=
  f.date.text ++ f.clock.elim [] IsoClock.text

/-- The time that is written, midnight where only a date is. -/
def wall (f : IsoDate) : WallTime :=
  WallTime.on f.date (f.clock.elim {} IsoClock.shown)

def seconds? (f : IsoDate) : Option Int :=
  f.clock.bind (·.zone.seconds?)

/-- The time with its offset. Universal time has its name in a zone that is universal time. -/
def timestamp (zone : Zone) (f : IsoDate) : Timestamp :=
  match f.seconds? with
  | none => .floating f.wall
  | some seconds => .fixed ⟨f.wall, seconds * microsPerSecond, if seconds = 0 ∧ zone = .utc then "UTC" else ""⟩

end IsoDate

/-! ## Pieces -/

def ZoneMark.pieces : ZoneMark → List Token
  | .omitted => []
  | .universal capital => [[letter capital]]
  | .offset ahead hours minutes => [[sign ahead], paddedDigits hours 2, [':'], paddedDigits minutes 2]

theorem ZoneMark.head?_pieces (z : ZoneMark) : z.pieces.head? ≠ some [':'] := by
  cases z with
  | omitted => nofun
  | universal capital => cases capital <;> decide
  | offset ahead hours minutes => cases ahead <;> exact fun h => absurd (Option.some.inj h) (by decide)

def IsoClock.secondsPieces (c : IsoClock) : List Token :=
  match c.fineness with
  | .minutes => []
  | .seconds => [[':'], paddedDigits c.time.second 2]
  | .micros => [[':'], paddedDigits c.time.second 2 ++ '.' :: paddedDigits c.time.micro 6]

def IsoClock.pieces (c : IsoClock) : List Token :=
  [letter c.capital] :: paddedDigits c.time.hour 2 :: [':'] :: paddedDigits c.time.minute 2 ::
    (c.secondsPieces ++ c.zone.pieces)

def datePieces (d : Date) : List Token :=
  [paddedDigits d.year 4, ['-'], paddedDigits d.month 2, ['-'], paddedDigits d.day 2]

def IsoDate.pieces (f : IsoDate) : List Token :=
  datePieces f.date ++ f.clock.elim [] IsoClock.pieces

theorem isMark_colon : isMark ':' = true := by decide

theorem isMark_hyphen : isMark '-' = true := by decide

theorem ZoneMark.isMark_sign (ahead : Bool) : isMark (sign ahead) = true := by
  cases ahead <;> decide

theorem ZoneMark.endsNumber (z : ZoneMark) : EndsNumber z.text := by
  cases z with
  | omitted => exact endsNumber_nil
  | universal capital =>
    rintro _ ⟨⟩
    cases capital <;> decide
  | offset ahead hours minutes => exact endsNumber_of_isMark (isMark_sign ahead) _

theorem ZoneMark.tokensFrom_text (z : ZoneMark) : tokensFrom none z.text = z.pieces := by
  cases z with
  | omitted => rfl
  | universal capital =>
    have hletter : isLetter (letter capital) = true := by cases capital <;> decide
    exact tokensFrom_letter hletter nofun
  | offset ahead hours minutes =>
    rw [text, tokensFrom_mark (isMark_sign ahead),
      tokensFrom_paddedDigits (by decide) hours.isLt (endsNumber_of_isMark isMark_colon _), tokensFrom_mark isMark_colon,
      tokensFrom_paddedDigits_end (by decide) minutes.isLt]
    rfl

namespace IsoClock

variable (c : IsoClock)

theorem bounds : c.time.hour < 24 ∧ c.time.minute < 60 ∧ c.time.second < 60 ∧ c.time.micro < 1000000 := by
  have hvalid := c.isValid
  simp only [TimeOfDay.isValid, Bool.and_eq_true, decide_eq_true_eq] at hvalid
  obtain ⟨⟨⟨hhour, hminute⟩, hsecond⟩, hmicro⟩ := hvalid
  exact ⟨hhour, hminute, hsecond, hmicro⟩

theorem isValid_shown : c.shown.isValid = true := by
  obtain ⟨hhour, hminute, hsecond, hmicro⟩ := c.bounds
  unfold shown
  cases c.fineness <;> simp [TimeOfDay.isValid, hhour, hminute, hsecond, hmicro]

theorem endsNumber_secondsText : EndsNumber (c.secondsText ++ c.zone.text) := by
  unfold secondsText
  cases c.fineness with
  | minutes => exact c.zone.endsNumber
  | seconds => exact endsNumber_of_isMark isMark_colon _
  | micros => exact endsNumber_of_isMark isMark_colon _

theorem tokensFrom_secondsText :
    tokensFrom none (c.secondsText ++ c.zone.text) = c.secondsPieces ++ c.zone.pieces := by
  obtain ⟨-, -, hsecond, hmicro⟩ := c.bounds
  have hplaces : c.time.second < 10 ^ 2 := Nat.lt_trans hsecond (by decide)
  have hdigits : ∀ {n width : Nat}, ∀ d ∈ paddedDigits n width, d.isDigit = true :=
    fun _ hd => isDigit_of_mem_paddedDigits hd
  unfold secondsText secondsPieces
  cases c.fineness with
  | minutes => exact c.zone.tokensFrom_text
  | seconds =>
    dsimp only
    rw [List.cons_append, tokensFrom_mark isMark_colon, tokensFrom_paddedDigits (by decide) hplaces c.zone.endsNumber,
      c.zone.tokensFrom_text, List.cons_append, List.cons_append, List.nil_append]
  | micros =>
    dsimp only
    rw [List.cons_append, tokensFrom_mark isMark_colon, List.append_assoc, List.cons_append,
      tokensFrom_fraction (paddedDigits_ne_nil (by decide) hplaces) hdigits (paddedDigits_ne_nil (by decide) hmicro) hdigits
        c.zone.endsNumber, c.zone.tokensFrom_text, List.cons_append, List.cons_append, List.nil_append]

theorem tokensFrom_text : tokensFrom none c.text = c.pieces := by
  obtain ⟨hhour, hminute, -, -⟩ := c.bounds
  have hhour : c.time.hour < 10 ^ 2 := Nat.lt_trans hhour (by decide)
  have hminute : c.time.minute < 10 ^ 2 := Nat.lt_trans hminute (by decide)
  have hletter : isLetter (letter c.capital) = true := by cases c.capital <;> decide
  have hcolon : ∀ rest, EndsNumber (':' :: rest) := endsNumber_of_isMark isMark_colon
  rw [text, tokensFrom_letter hletter, tokensFrom_paddedDigits (by decide) hhour (hcolon _), tokensFrom_mark isMark_colon,
    tokensFrom_paddedDigits (by decide) hminute c.endsNumber_secondsText, c.tokensFrom_secondsText]
  · rfl
  · intro d hd
    have hdigit := isDigit_of_head_paddedDigits (by decide) hhour d hd
    exact ⟨isLetter_of_isDigit hdigit, by rintro rfl; cases hdigit⟩

theorem endsNumber : EndsNumber c.text := by
  rintro _ ⟨⟩
  cases c.capital <;> decide

end IsoClock

theorem date_bounds (d : Date) : d.year < 10 ^ 4 ∧ d.month < 10 ^ 2 ∧ d.day < 10 ^ 2 := by
  obtain ⟨-, hyear, -, hmonth, -, hday⟩ := d.onCalendar
  have hlength := (Date.monthLength_bounds d.year d.month).2
  simp only [greatestYear] at hyear
  exact ⟨by omega, by omega, by omega⟩

theorem IsoDate.tokensFrom_text (f : IsoDate) : tokensFrom none f.text = f.pieces := by
  obtain ⟨hyear, hmonth, hday⟩ := date_bounds f.date
  have hhyphen : ∀ rest, EndsNumber ('-' :: rest) := endsNumber_of_isMark isMark_hyphen
  have hend : EndsNumber (f.clock.elim [] IsoClock.text) := by
    cases f.clock with
    | none => exact endsNumber_nil
    | some c => exact c.endsNumber
  have hclock : tokensFrom none (f.clock.elim [] IsoClock.text) = f.clock.elim [] IsoClock.pieces := by
    cases f.clock with
    | none => rfl
    | some c => exact c.tokensFrom_text
  have hshape : f.text = paddedDigits f.date.year 4 ++ ('-' :: (paddedDigits f.date.month 2 ++ ('-' ::
      (paddedDigits f.date.day 2 ++ f.clock.elim [] IsoClock.text)))) := by
    simp [text, Date.text]
  rw [hshape, tokensFrom_paddedDigits (by decide) hyear (hhyphen _), tokensFrom_mark isMark_hyphen,
    tokensFrom_paddedDigits (by decide) hmonth (hhyphen _), tokensFrom_mark isMark_hyphen,
    tokensFrom_paddedDigits (by decide) hday hend, hclock]
  rfl

def isoMarks : List Char :=
  ['-', ':', '+', '.', 'T', 't', 'Z', 'z']

theorem IsoDate.mem_text {f : IsoDate} {c : Char} (hc : c ∈ f.text) : c.isDigit = true ∨ c ∈ isoMarks := by
  have hdigits : ∀ {n width : Nat}, c ∈ paddedDigits n width → c.isDigit = true ∨ c ∈ isoMarks :=
    fun hc => .inl (isDigit_of_mem_paddedDigits hc)
  have hzone : ∀ z : ZoneMark, c ∈ z.text → c.isDigit = true ∨ c ∈ isoMarks := by
    intro z hc
    cases z with
    | omitted => cases hc
    | universal capital =>
      rw [List.mem_singleton.1 hc]
      cases capital <;> decide
    | offset ahead hours minutes =>
      simp only [ZoneMark.text, List.mem_cons, List.mem_append] at hc
      rcases hc with rfl | hc | rfl | hc
      · cases ahead <;> decide
      · exact hdigits hc
      · decide
      · exact hdigits hc
  have hseconds : ∀ k : IsoClock, c ∈ k.secondsText → c.isDigit = true ∨ c ∈ isoMarks := by
    intro k hc
    unfold IsoClock.secondsText at hc
    split at hc
    · cases hc
    · rcases List.mem_cons.1 hc with rfl | hc
      · decide
      · exact hdigits hc
    · simp only [List.mem_cons, List.mem_append] at hc
      rcases hc with rfl | hc | rfl | hc
      · decide
      · exact hdigits hc
      · decide
      · exact hdigits hc
  simp only [text, Date.text, List.mem_append, List.mem_cons] at hc
  rcases hc with ((hc | rfl | hc) | rfl | hc) | hc
  · exact hdigits hc
  · decide
  · exact hdigits hc
  · decide
  · exact hdigits hc
  · cases hclock : f.clock with
    | none =>
      rw [hclock] at hc
      cases hc
    | some k =>
      rw [hclock] at hc
      simp only [Option.elim_some, IsoClock.text, List.mem_append, List.mem_cons] at hc
      rcases hc with rfl | hc | rfl | hc | hc | hc
      · cases k.capital <;> decide
      · exact hdigits hc
      · decide
      · exact hdigits hc
      · exact hseconds k hc
      · exact hzone k.zone hc

theorem IsoDate.not_mem_text {c : Char} (hdigit : c.isDigit = false) (hmark : c ∉ isoMarks) (f : IsoDate) :
    c ∉ f.text := by
  intro hc
  rcases mem_text hc with h | h
  · exact Bool.false_ne_true (hdigit.symm.trans h)
  · exact hmark h

theorem IsoDate.isSolid_text (f : IsoDate) : IsSolid f.text := by
  have hmarks : isoMarks.all (!isBlank ·) = true := by decide
  constructor
  · rw [text, Date.text]
    simp
  · intro c hc
    rcases mem_text hc with hdigit | hmark
    · exact isBlank_of_isDigit hdigit
    · exact (Bool.not_eq_true' _).mp (List.all_eq_true.1 hmarks c hmark)

theorem IsoDate.tokens_text (f : IsoDate) : tokens f.text = f.pieces := by
  have hfilter : f.text.filter (· ≠ '\x00') = f.text := by
    refine List.filter_eq_self.2 fun c hc => decide_eq_true ?_
    rintro rfl
    exact f.not_mem_text (by decide) (by decide) hc
  rw [tokens, hfilter, f.tokensFrom_text]

/-! ## Lower case -/

def ZoneMark.lowered : ZoneMark → ZoneMark
  | .universal _ => .universal false
  | z => z

def IsoClock.lowered (c : IsoClock) : IsoClock :=
  { c with capital := false, zone := c.zone.lowered }

def IsoDate.lowered (f : IsoDate) : IsoDate :=
  { f with clock := f.clock.map IsoClock.lowered }

theorem isSettled_of_isDigit {c : Char} (h : c.isDigit = true) : IsSettled c := by
  obtain ⟨hlow, hhigh⟩ := digit_bounds h
  refine isSettled_of_lowerShift_eq_zero (by omega) ?_
  rw [lowerRuns, lowerShift, if_pos (show c.toNat < 65 by omega)]

theorem flatMap_paddedDigits (n width : Nat) : (paddedDigits n width).flatMap lowerAlone = paddedDigits n width := by
  have hsettled : IsSettledText (paddedDigits n width) := fun c hc => isSettled_of_isDigit (isDigit_of_mem_paddedDigits hc)
  have hsigma : 'Σ' ∉ paddedDigits n width := fun hmem => by
    cases isDigit_of_mem_paddedDigits hmem
  rw [← lower_of_not_mem hsigma, lower_of_isSettledText hsettled]

theorem ZoneMark.flatMap_text (z : ZoneMark) : z.text.flatMap lowerAlone = z.lowered.text := by
  have hcolon : lowerAlone ':' = [':'] := by decide
  cases z with
  | omitted => rfl
  | universal capital => cases capital <;> decide
  | offset ahead hours minutes =>
    have hsign : lowerAlone (sign ahead) = [sign ahead] := by cases ahead <;> decide
    simp [text, lowered, flatMap_paddedDigits, hcolon, hsign]

theorem IsoClock.flatMap_text (c : IsoClock) : c.text.flatMap lowerAlone = c.lowered.text := by
  have hletter : lowerAlone (letter c.capital) = ['t'] := by cases c.capital <;> decide
  have hcolon : lowerAlone ':' = [':'] := by decide
  have hpoint : lowerAlone '.' = ['.'] := by decide
  have hseconds : c.secondsText.flatMap lowerAlone = c.lowered.secondsText := by
    unfold secondsText lowered
    cases c.fineness <;> simp [flatMap_paddedDigits, hcolon, hpoint]
  simp [text, flatMap_paddedDigits, hletter, hcolon, hseconds, c.zone.flatMap_text]
  exact ⟨rfl, rfl⟩

theorem IsoDate.lower_text (f : IsoDate) : lower f.text = f.lowered.text := by
  have hsigma : 'Σ' ∉ f.text := f.not_mem_text (by decide) (by decide)
  have hhyphen : lowerAlone '-' = ['-'] := by decide
  have hdate : f.date.text.flatMap lowerAlone = f.date.text := by
    simp [Date.text, flatMap_paddedDigits, hhyphen]
  rw [lower_of_not_mem hsigma, text, List.flatMap_append, hdate, text, lowered]
  cases f.clock with
  | none => rfl
  | some c => exact congrArg (f.date.text ++ ·) c.flatMap_text

end SearchBox.Calendar.Written

import Mathlib.Data.List.Basic
import SearchBox.Calendar.Iso
import SearchBox.Proofs.Calendar.Moment
import SearchBox.Proofs.Number.Numeral

/-!
  SearchBox.Proofs.Calendar.Iso — moments as texts. A moment on the calendar with an offset of
  whole minutes is written with three digits of the second, and that text is read as the moment
  with the other digits cut off (`read_milliText`): each part is found in its places. Whatever
  else is read has an offset of whole minutes, too (`isWritable_of_read`), so that it can be
  written again.
-/

namespace SearchBox.Calendar.Iso

open SearchBox.Number SearchBox.Text

/-! ## Written parts -/

theorem integer?_paddedDigits {n width : Nat} (hwidth : 0 < width) (hlimit : width ≤ digitLimit)
    (h : n < 10 ^ width) : integer? (paddedDigits n width) = .ok n := by
  have hplain : ((paddedDigits n width).any fun c => 28 ≤ c.toNat ∧ c.toNat < 32) = false := by
    rw [List.any_eq_false]
    intro c hc
    obtain ⟨hlow, -⟩ := digit_bounds (isDigit_of_mem_paddedDigits hc)
    simp only [decide_eq_true_eq]
    omega
  rw [integer?, hplain, readInteger?_paddedDigits hwidth hlimit h]
  rfl

/-- A number of two digits in its two places. -/
theorem exists_twoDigits {n : Nat} (h : n < 100) :
    ∃ a b, paddedDigits n 2 = [a, b] ∧ a.isDigit = true ∧ integer? [a, b] = .ok n := by
  have hlen : (paddedDigits n 2).length = 2 := length_paddedDigits (by decide) h
  obtain ⟨a, b, hab⟩ := List.length_eq_two.1 hlen
  have ha : a ∈ paddedDigits n 2 := by simp [hab]
  refine ⟨a, b, hab, isDigit_of_mem_paddedDigits ha, ?_⟩
  rw [← hab]
  exact integer?_paddedDigits (by decide) (by decide) h

theorem isOffsetStart_of_isDigit {c : Char} (h : c.isDigit = true) : isOffsetStart c = false := by
  obtain ⟨hlow, hhigh⟩ := digit_bounds h
  have hne : ∀ d : Char, d.toNat < 48 ∨ 57 < d.toNat → c ≠ d := fun d hd hcd => by
    rw [hcd] at hlow hhigh
    omega
  simp only [isOffsetStart, decide_eq_false (hne '-' (by decide)), decide_eq_false (hne '+' (by decide)),
    decide_eq_false (hne 'Z' (by decide)), decide_eq_false (hne 'z' (by decide)), Bool.or_false]

theorem calendarParts_text (d : Date) (rest : List Char) :
    calendarParts (d.text ++ rest) = .ok ((d.year, d.month, d.day), rest) := by
  obtain ⟨-, hyear, -, hmonth, -, hday⟩ := d.onCalendar
  simp only [greatestYear] at hyear
  have hlength := (Date.monthLength_bounds d.year d.month).2
  have hplaces : d.year < 10 ^ 4 := by omega
  have hy := length_paddedDigits (by decide) hplaces
  have hiy := integer?_paddedDigits (by decide) (by decide) hplaces
  obtain ⟨m₁, m₂, hm, -, him⟩ := exists_twoDigits (n := d.month) (by omega)
  obtain ⟨d₁, d₂, hd, -, hid⟩ := exists_twoDigits (n := d.day) (by omega)
  have hshape : d.text ++ rest = paddedDigits d.year 4 ++ ('-' :: m₁ :: m₂ :: '-' :: d₁ :: d₂ :: rest) := by
    simp [Date.text, hm, hd]
  rw [hshape, calendarParts, if_neg (by simp [hy])]
  simp only [List.take_left' hy, List.drop_left' hy, hiy]
  simp only [bind, Except.bind, pure, Except.pure, List.length_cons, List.take_succ_cons, List.take_zero,
    List.drop_succ_cons, List.drop_zero, him, hid]
  rw [if_neg (by omega), if_neg (by omega)]

theorem clockParts_text {t : TimeOfDay} (ht : t.isValid = true) (tail : List Char) :
    clockParts (({ t with micro := 0 } : TimeOfDay).text ++ tail) =
      clockTail { hour := t.hour, minute := t.minute, second := t.second } tail := by
  simp only [TimeOfDay.isValid, Bool.and_eq_true, decide_eq_true_eq] at ht
  obtain ⟨h₁, h₂, hh, hh', hih⟩ := exists_twoDigits (n := t.hour) (by omega)
  obtain ⟨m₁, m₂, hm, -, him⟩ := exists_twoDigits (n := t.minute) (by omega)
  obtain ⟨s₁, s₂, hs, -, his⟩ := exists_twoDigits (n := t.second) (by omega)
  have hshape : ({ t with micro := 0 } : TimeOfDay).text ++ tail =
      h₁ :: h₂ :: ':' :: m₁ :: m₂ :: ':' :: s₁ :: s₂ :: tail := by
    simp [TimeOfDay.text, hh, hm, hs]
  have hcolon : isOffsetStart ':' = false := by decide
  rw [hshape, clockParts]
  simp [bind, Except.bind, hih, him, his, hcolon, isOffsetStart_of_isDigit hh']

theorem fraction?_text {n : Nat} (h : n < 1000) {rest : List Char} (hrest : ∀ c ∈ rest.head?, c.isDigit = false) :
    fraction? ('.' :: (paddedDigits n 3 ++ rest)) = some (((n * 1000 : Nat) : Int), rest) := by
  have hlen : (paddedDigits n 3).length = 3 := length_paddedDigits (by decide) h
  have hafter : rest.takeWhile Char.isDigit = [] := by
    cases rest with
    | nil => rfl
    | cons c rest => simp [hrest c rfl]
  have hdigits : (paddedDigits n 3 ++ rest).takeWhile Char.isDigit = paddedDigits n 3 := by
    rw [List.takeWhile_append_of_pos fun c hc => isDigit_of_mem_paddedDigits hc, hafter, List.append_nil]
  have hne : (paddedDigits n 3).isEmpty = false := by
    rw [List.isEmpty_eq_false_iff, ← List.length_pos_iff, hlen]
    decide
  have htake : (paddedDigits n 3).take 6 = paddedDigits n 3 := List.take_of_length_le (by omega)
  have hvalue := ofDigits_paddedDigits n 3
  rw [digitValues] at hvalue
  simp only [fraction?, hdigits, hne, htake, hlen, hvalue, List.drop_left' hlen]
  rfl

/-- An offset of whole minutes, less than a day, in microseconds. -/
structure IsMinutes (offset : Int) : Prop where
  whole : offset % 60000000 = 0
  low : -microsPerDay < offset
  high : offset < microsPerDay

theorem offsetText_of_isMinutes {o : Int} (h : IsMinutes o) :
    Moment.offsetText o = (if o < 0 then '-' else '+') ::
      (paddedDigits (o.natAbs / 3600000000) 2 ++ ':' :: paddedDigits (o.natAbs / 60000000 % 60) 2) := by
  have hwhole : o.natAbs % 60000000 = 0 := by have := h.whole; omega
  have hseconds : o.natAbs % 1000000 = 0 := by omega
  have hhours : o.natAbs / 1000000 / 3600 = o.natAbs / 3600000000 := by omega
  have hminutes : o.natAbs / 1000000 / 60 % 60 = o.natAbs / 60000000 % 60 := by omega
  simp only [Moment.offsetText, hwhole, hseconds, hhours, hminutes, if_true, List.append_nil, List.cons_append]

theorem offset_hours_minutes (behind : Bool) {hours minutes : Nat} (hhours : hours < 24) (hminutes : minutes < 60) :
    offset ((if behind then '-' else '+') :: (paddedDigits hours 2 ++ ':' :: paddedDigits minutes 2)) =
      .ok ((if behind then -1 else 1) * ((hours : Int) * 60 + minutes) * 60) := by
  obtain ⟨h₁, h₂, hh, -, hih⟩ := exists_twoDigits (n := hours) (by omega)
  obtain ⟨m₁, m₂, hm, -, him⟩ := exists_twoDigits (n := minutes) (by omega)
  have hguard : ¬ (59 < minutes ∨ 23 < hours) := by omega
  rw [hh, hm]
  cases behind
  all_goals
    simp [offset, bind, Except.bind, pure, Except.pure, hih, him]
    split
    · rename_i hzero
      simp [hzero]
    · rfl

theorem offset_offsetText {o : Int} (h : IsMinutes o) : offset (Moment.offsetText o) = .ok (o / 1000000) := by
  obtain ⟨hwhole, hlow, hhigh⟩ := h
  simp only [microsPerDay] at hlow hhigh
  have hhours : o.natAbs / 3600000000 < 24 := by omega
  have hminutes : o.natAbs / 60000000 % 60 < 60 := Nat.mod_lt _ (by decide)
  have hread := offset_hours_minutes (decide (o < 0)) hhours hminutes
  simp only [decide_eq_true_eq] at hread
  rw [offsetText_of_isMinutes ⟨hwhole, hlow, hhigh⟩, hread]
  congr 1
  split <;> omega

/-- The first character of an offset: no digit, and not that of a fraction. -/
theorem exists_offsetText (o : Int) : ∃ c rest, Moment.offsetText o = c :: rest ∧ (c = '-' ∨ c = '+') := by
  refine ⟨_, _, rfl, ?_⟩
  split
  · exact .inl rfl
  · exact .inr rfl

theorem clockTail_text (p : ClockParts) {n : Nat} (hn : n < 1000) {o : Int} (ho : IsMinutes o) :
    clockTail p ('.' :: (paddedDigits n 3 ++ Moment.offsetText o)) =
      .ok { p with micro := (n * 1000 : Nat), offset := some (o / 1000000) } := by
  obtain ⟨c, rest, hoffset, hc⟩ := exists_offsetText o
  have hread := offset_offsetText ho
  rw [hoffset] at hread ⊢
  have hfraction : fraction? ('.' :: (paddedDigits n 3 ++ c :: rest)) = some (((n * 1000 : Nat) : Int), c :: rest) := by
    refine fraction?_text hn fun d hd => ?_
    cases hd
    rcases hc with rfl | rfl <;> rfl
  have hstart : isOffsetStart c = true := by rcases hc with rfl | rfl <;> rfl
  have hpoint : isOffsetStart '.' = false := rfl
  simp [clockTail, hpoint, hfraction, hstart, hread, bind, Except.bind, pure, Except.pure]

theorem timeOfDay_clockParts {t : TimeOfDay} (ht : t.isValid = true) (offset : Option Int) :
    timeOfDay ⟨t.hour, t.minute, t.second, t.micro, offset⟩ = .ok (t, false) := by
  have hhour : ¬ (t.hour : Int) = 24 := by
    simp only [TimeOfDay.isValid, Bool.and_eq_true, decide_eq_true_eq] at ht
    omega
  have hpositive : ¬ ((t.hour : Int) < 0 ∨ (t.minute : Int) < 0 ∨ (t.second : Int) < 0) := by omega
  rw [timeOfDay, if_neg hhour, if_neg hpositive]
  simp [ht]

theorem dateOf_parts (d : Date) : dateOf d.year d.month d.day = .ok d := by
  rw [dateOf, if_neg (by omega)]
  simp [Date.of?_parts]

/-! ## What can be read -/

theorem integer?_eq_ok {s : List Char} {n : Int} (h : integer? s = .ok n) : readInteger? s = some n := by
  unfold integer? at h
  split at h
  · cases h
  · split at h
    · rename_i m hm
      cases h
      exact hm
    · cases h

/-- Seconds that are whole minutes and less than a day. -/
def IsMinuteOffset (seconds : Int) : Prop :=
  seconds % 60 = 0 ∧ -secondsPerDay < seconds ∧ seconds < secondsPerDay

theorem IsMinuteOffset.isMinutes {seconds : Int} (h : IsMinuteOffset seconds) : IsMinutes (seconds * microsPerSecond) := by
  obtain ⟨hwhole, hlow, hhigh⟩ := h
  simp only [secondsPerDay] at hlow hhigh
  constructor <;> simp only [microsPerSecond, microsPerDay] <;> omega

/-- Hours and minutes in their places, which may have a sign of their own. -/
theorem isMinuteOffset_of_guard {sign hours minutes n : Int} {isZero : Prop} [Decidable isZero]
    (hhours : -10 < hours) (hminutes : -100 < minutes) (hsign : sign = 1 ∨ sign = -1)
    (h : (if isZero then Except.ok 0
      else if 59 < minutes ∨ 23 < hours then .error IsoError.unreadable
      else .ok (sign * (hours * 60 + minutes) * 60)) = .ok n) : IsMinuteOffset n := by
  split at h
  · cases h
    simp [IsMinuteOffset, secondsPerDay]
  · split at h
    · cases h
    · cases h
      simp only [IsMinuteOffset, secondsPerDay]
      rcases hsign with rfl | rfl <;> omega

theorem integer?_bounds {s : List Char} {n : Int} (h : integer? s = .ok n) (width : Nat) (hlen : s.length ≤ width + 1) :
    -(10 ^ width) < n := by
  have hlow := (readInteger?_bounds (integer?_eq_ok h)).2
  have hpow : 10 ^ (s.length - 1) ≤ 10 ^ width := Nat.pow_le_pow_right (by decide) (by omega)
  have : (10 : Int) ^ (s.length - 1) ≤ 10 ^ width := by exact_mod_cast hpow
  omega

theorem offset_eq_ok {s : List Char} {n : Int} (h : offset s = .ok n) : IsMinuteOffset n := by
  unfold offset at h
  simp only [bind, Except.bind, pure, Except.pure, throw, throwThe, MonadExceptOf.throw] at h
  split at h
  · cases h
    simp [IsMinuteOffset, secondsPerDay]
  split at h
  · cases h
  rename_i hlen
  have hhours : ∀ {hours : Int}, integer? (List.take 2 (List.drop 1 s)) = .ok hours → -10 < hours := fun hread =>
    integer?_bounds hread 1 (List.length_take_le _ _)
  have hminutes : ∀ {rest : List Char} {minutes : Int}, rest.length + 3 ≤ s.length → integer? rest = .ok minutes →
      -100 < minutes := fun hrest hread => integer?_bounds hread 2 (by omega)
  have hdrop := List.length_drop (i := 3) (l := s)
  split at h
  rotate_left 2
  · cases h
  all_goals
    split at h
    · cases h
    · rename_i hours hread
      split at h
      · exact isMinuteOffset_of_guard (hhours hread) (show (-100 : Int) < 0 by decide) (by simp) h
      · rename_i rest hrest
        split at h
        · cases h
        · rename_i minutes hread'
          rw [hrest, List.length_cons] at hdrop
          exact isMinuteOffset_of_guard (hhours hread) (hminutes (by omega) hread') (by simp) h
      · split at h
        · cases h
        · rename_i minutes hread'
          exact isMinuteOffset_of_guard (hhours hread) (hminutes (by omega) hread') (by simp) h

/-- An offset, if there is one, is of whole minutes. -/
def ClockParts.IsUsual (p : ClockParts) : Prop :=
  ∀ n ∈ p.offset, IsMinuteOffset n

theorem ClockParts.isUsual_of_none {p : ClockParts} (h : p.offset = none) : p.IsUsual := by
  intro n hn
  rw [h] at hn
  cases hn

theorem clockTail_eq_ok {p q : ClockParts} {s : List Char} (hp : p.offset = none) (h : clockTail p s = .ok q) :
    q.IsUsual := by
  unfold clockTail at h
  split at h
  rename_i r rest heq
  have hr : r.offset = none := by
    split at heq <;> cases heq <;> exact hp
  split at h
  · cases h
    exact ClockParts.isUsual_of_none hr
  · split at h
    · obtain ⟨n, hn, h⟩ := bind_eq_ok.1 h
      cases h
      intro m hm
      cases hm
      exact offset_eq_ok hn
    · cases h

theorem clockParts_eq_ok {q : ClockParts} {s : List Char} (h : clockParts s = .ok q) : q.IsUsual := by
  unfold clockParts at h
  simp only at h
  split at h
  · cases h
  split at h
  · exact clockTail_eq_ok rfl h
  obtain ⟨hour, -, h⟩ := bind_eq_ok.1 h
  split at h
  · exact clockTail_eq_ok rfl h
  generalize (if (s.drop 2).head? = some ':' then 1 else 0) = skip at h
  obtain ⟨minute, -, h⟩ := bind_eq_ok.1 h
  split at h
  · exact clockTail_eq_ok rfl h
  split at h
  · cases h
  obtain ⟨second, -, h⟩ := bind_eq_ok.1 h
  exact clockTail_eq_ok rfl h

theorem timeOfDay_eq_ok {p : ClockParts} {t : TimeOfDay} {nextDay : Bool} (h : timeOfDay p = .ok (t, nextDay)) :
    t.isValid = true := by
  unfold timeOfDay at h
  simp only at h
  split at h
  · split at h
    · cases h
      rfl
    · cases h
  · split at h
    · cases h
    · split at h
      · rename_i hvalid
        cases h
        exact hvalid
      · cases h

/-! ## Times -/

end SearchBox.Calendar.Iso

namespace SearchBox.Calendar

open SearchBox.Number SearchBox.Text

/-- The time with all digits of the second after the third cut off. -/
def WallTime.cutToMillis (w : WallTime) : WallTime :=
  ⟨w.micros / 1000 * 1000⟩

theorem onCalendar_on (d : Date) {t : TimeOfDay} (ht : t.isValid = true) : (WallTime.on d t).onCalendar = true := by
  have := d.dayNumber_lt
  simp only [TimeOfDay.isValid, Bool.and_eq_true, decide_eq_true_eq] at ht
  rw [onCalendar_iff]
  simp only [WallTime.on, TimeOfDay.micros, calendarMicros, microsPerDay, microsPerSecond, calendarDays] at *
  omega

theorem WallTime.timeOfDay_isValid (w : WallTime) : w.timeOfDay.isValid = true := by
  have hlt : (w.micros % microsPerDay).toNat < 86400000000 := by
    simp only [microsPerDay]
    omega
  generalize hn : (w.micros % microsPerDay).toNat = n at hlt
  simp only [TimeOfDay.isValid, WallTime.timeOfDay, hn, Bool.and_eq_true, decide_eq_true_eq]
  omega

theorem WallTime.exists_date? {w : WallTime} (h : w.onCalendar = true) : ∃ d, w.date? = some d := by
  rw [WallTime.date?, if_pos h]
  rw [onCalendar_iff] at h
  refine Date.exists_ofNumber? ?_
  simp only [WallTime.dayNumber, calendarMicros, microsPerDay, calendarDays] at *
  omega

/-- A time is its date and its time of day. -/
theorem WallTime.on_timeOfDay {w : WallTime} {d : Date} (h : w.date? = some d) : WallTime.on d w.timeOfDay = w := by
  rw [date?_eq_some_iff] at h
  rw [WallTime.mk.injEq]
  simp only [WallTime.on, TimeOfDay.micros, WallTime.timeOfDay, microsPerDay, microsPerSecond] at *
  omega

theorem any_paddedDigits (n width : Nat) : ((paddedDigits n width).any fun c => decide (127 < c.toNat)) = false := by
  rw [List.any_eq_false]
  intro c hc
  have := (digit_bounds (isDigit_of_mem_paddedDigits hc)).2
  simp only [decide_eq_true_eq]
  omega

/-- The text of a time with three digits of the second and an offset is read as the time. -/
theorem Iso.read_milliText {w : WallTime} (hw : w.onCalendar = true) {o : Int} (ho : Iso.IsMinutes o) :
    Iso.read (w.milliText ++ Moment.offsetText o) = .ok (.fixed ⟨w.cutToMillis, o, ""⟩) := by
  obtain ⟨d, hd⟩ := WallTime.exists_date? hw
  have hvalid := w.timeOfDay_isValid
  have hon := WallTime.on_timeOfDay hd
  have hshape : w.milliText ++ Moment.offsetText o = d.text ++ ('T' :: (({ w.timeOfDay with micro := 0 } : TimeOfDay).text ++
      ('.' :: (paddedDigits (w.timeOfDay.micro / 1000) 3 ++ Moment.offsetText o)))) := by
    simp [WallTime.milliText, WallTime.dateText, hd]
  generalize w.timeOfDay = t at hvalid hon hshape
  have hmilli : t.micro / 1000 < 1000 := by
    simp only [TimeOfDay.isValid, Bool.and_eq_true, decide_eq_true_eq] at hvalid
    omega
  have hcut : ({ t with micro := t.micro / 1000 * 1000 } : TimeOfDay).isValid = true := by
    simp only [TimeOfDay.isValid, Bool.and_eq_true, decide_eq_true_eq] at hvalid ⊢
    omega
  have hwall : WallTime.on d { t with micro := t.micro / 1000 * 1000 } = w.cutToMillis := by
    rw [← hon, WallTime.cutToMillis, WallTime.mk.injEq]
    simp only [WallTime.on, TimeOfDay.micros, microsPerDay, microsPerSecond]
    omega
  have hascii : ((w.milliText ++ Moment.offsetText o).any fun c => decide (127 < c.toNat)) = false := by
    rw [hshape, Iso.offsetText_of_isMinutes ho]
    simp [Date.text, TimeOfDay.text, any_paddedDigits]
    split <;> decide
  have hoffset : o / 1000000 * 1000000 = o := by
    have := ho.whole
    omega
  have hclock := (Iso.clockParts_text hvalid _).trans
    (Iso.clockTail_text { hour := t.hour, minute := t.minute, second := t.second } hmilli ho)
  have htime := Iso.timeOfDay_clockParts hcut (some (o / 1000000))
  rw [Iso.read, hascii, hshape, Iso.calendarParts_text]
  simp only [bind, Except.bind, pure, Except.pure, List.isEmpty_cons, List.drop_succ_cons, List.drop_zero, hclock,
    htime, Iso.dateOf_parts, Bool.false_eq_true, if_false, hwall, microsPerSecond, hoffset]

end SearchBox.Calendar

namespace SearchBox

open SearchBox.Calendar

/-- On the calendar, with an offset of whole minutes. -/
structure Calendar.Moment.IsWritable (m : Moment) : Prop where
  wall : m.wall.onCalendar = true
  offset : Iso.IsMinutes m.offset

/-- A time on the calendar, with an offset of whole minutes if with any. -/
def Timestamp.IsWritable : Timestamp → Prop
  | .floating w => w.onCalendar = true
  | .fixed m => m.IsWritable

/-- What follows once date and time of day are taken apart. -/
theorem isWritable_of_parts {clock : Iso.ClockParts} (hclock : clock.IsUsual) {year month day : Int} {t : Timestamp}
    (h : (do
      let (time, nextDay) ← Iso.timeOfDay clock
      let date ← Iso.dateOf year month day
      let date ← if nextDay then Iso.dateNumbered (date.dayNumber + 1) else pure date
      let w := WallTime.on date time
      match clock.offset with
      | none => return Timestamp.floating w
      | some seconds => return .fixed ⟨w, seconds * microsPerSecond, ""⟩) = .ok t) : t.IsWritable := by
  obtain ⟨⟨time, nextDay⟩, htime, h⟩ := bind_eq_ok.1 h
  obtain ⟨first, -, h⟩ := bind_eq_ok.1 h
  have hvalid := Iso.timeOfDay_eq_ok htime
  have finish : ∀ {date : Date}, (match clock.offset with
      | none => Except.ok (Timestamp.floating (WallTime.on date time))
      | some seconds => .ok (.fixed ⟨WallTime.on date time, seconds * microsPerSecond, ""⟩) :
        Except Iso.IsoError Timestamp) = .ok t → t.IsWritable := by
    intro date h
    split at h
    · cases h
      exact onCalendar_on date hvalid
    · rename_i seconds hseconds
      cases h
      exact ⟨onCalendar_on date hvalid, (hclock seconds hseconds).isMinutes⟩
  simp only at h
  split at h
  · obtain ⟨date, -, h⟩ := bind_eq_ok.1 h
    exact finish h
  · exact finish h

theorem isWritable_of_read {s : List Char} {t : Timestamp} (h : Iso.read s = .ok t) : t.IsWritable := by
  unfold Iso.read at h
  simp only at h
  split at h
  · cases h
  split at h
  -- Week and ordinal dates are read only after the other forms.
  on_goal 2 => obtain ⟨other, -, h⟩ := bind_eq_ok.1 h
  all_goals
    obtain ⟨parts, -, h⟩ := bind_eq_ok.1 h
    split at h
    · obtain ⟨clock, hclock, h⟩ := bind_eq_ok.1 h
      cases hclock
      exact isWritable_of_parts (Iso.ClockParts.isUsual_of_none rfl) h
    · obtain ⟨clock, hclock, h⟩ := bind_eq_ok.1 h
      exact isWritable_of_parts (Iso.clockParts_eq_ok hclock) h

end SearchBox

namespace SearchBox.Calendar

open SearchBox.Number SearchBox.Text

/-! ## Moments that are written -/

def Moment.cutToMillis (m : Moment) : Moment :=
  { m with wall := m.wall.cutToMillis }

theorem Moment.cutToMillis_of_whole {m : Moment} (h : m.wall.micros % 1000 = 0) : m.cutToMillis = m := by
  have hwall : m.wall.micros / 1000 * 1000 = m.wall.micros := by omega
  obtain ⟨⟨micros⟩, offset, label⟩ := m
  simp only [cutToMillis, WallTime.cutToMillis] at hwall ⊢
  rw [hwall]

theorem Moment.IsWritable.offsetUsable {m : Moment} (h : m.IsWritable) : m.offsetUsable = true := by
  simp [Moment.offsetUsable, h.offset.low, h.offset.high]

theorem Moment.IsWritable.milliText? {m : Moment} (h : m.IsWritable) :
    m.milliText? = .ok (m.wall.milliText ++ Moment.offsetText m.offset) := by
  rw [Moment.milliText?, if_pos h.offsetUsable]

theorem onCalendar_cutToMillis {w : WallTime} (h : w.onCalendar = true) : w.cutToMillis.onCalendar = true := by
  rw [onCalendar_iff] at h ⊢
  simp only [WallTime.cutToMillis]
  omega

/-- The digits that are cut off are not written. -/
theorem milliText_cutToMillis {w : WallTime} (h : w.onCalendar = true) : w.cutToMillis.milliText = w.milliText := by
  obtain ⟨d, hd⟩ := WallTime.exists_date? h
  have hcut : w.cutToMillis.date? = some d := by
    rw [date?_eq_some_iff] at hd ⊢
    simp only [WallTime.cutToMillis, microsPerDay] at *
    omega
  have htime : w.cutToMillis.timeOfDay.hour = w.timeOfDay.hour ∧ w.cutToMillis.timeOfDay.minute = w.timeOfDay.minute ∧
      w.cutToMillis.timeOfDay.second = w.timeOfDay.second ∧
      w.cutToMillis.timeOfDay.micro / 1000 = w.timeOfDay.micro / 1000 := by
    rw [onCalendar_iff] at h
    simp only [WallTime.timeOfDay, WallTime.cutToMillis, microsPerDay]
    omega
  simp only [WallTime.milliText, WallTime.dateText, hd, hcut, htime.1, htime.2.1, htime.2.2.1, htime.2.2.2]

theorem Moment.IsWritable.cutToMillis {m : Moment} (h : m.IsWritable) : m.cutToMillis.IsWritable :=
  ⟨onCalendar_cutToMillis h.wall, h.offset⟩

/-- A zone with offsets of whole minutes, less than a day. -/
structure Zone.HasMinuteOffsets (zone : Zone) : Prop where
  standard : Iso.IsMinuteOffset zone.standard.offset
  daylight : ∀ d ∈ zone.daylight, Iso.IsMinuteOffset d.period.offset

instance (seconds : Int) : Decidable (Iso.IsMinuteOffset seconds) :=
  inferInstanceAs (Decidable (_ ∧ _ ∧ _))

instance (zone : Zone) : Decidable zone.HasMinuteOffsets :=
  decidable_of_iff (Iso.IsMinuteOffset zone.standard.offset ∧ ∀ d ∈ zone.daylight, Iso.IsMinuteOffset d.period.offset)
    ⟨fun h => ⟨h.1, h.2⟩, fun h => ⟨h.standard, h.daylight⟩⟩

theorem usualZones_hasMinuteOffsets : ∀ text ∈ usualZones, (Zone.read? text).any (·.HasMinuteOffsets) = true := by
  decide +kernel

theorem Zone.HasMinuteOffsets.offsetAt {zone : Zone} (h : zone.HasMinuteOffsets) (s : Int) :
    Iso.IsMinuteOffset (zone.offsetAt s) := by
  rcases offsetAt_cases zone s with hs | ⟨d, hd, hs⟩
  · rw [hs]
    exact h.standard
  · rw [hs]
    exact h.daylight d hd

theorem isWritable_of_localMoment? {zone : Zone} (h : zone.HasMinuteOffsets) {w : WallTime} {m : Moment}
    (hm : zone.localMoment? w = .ok m) : m.IsWritable := by
  obtain ⟨i, -, hm⟩ := bind_eq_ok.1 hm
  obtain ⟨-, hwall, rfl⟩ := Zone.momentAt?_eq_ok_iff.1 hm
  exact ⟨hwall, (h.offsetAt _).isMinutes⟩

theorem whole_of_localMoment? {zone : Zone} {w : WallTime} (hw : w.micros % 1000 = 0) {m : Moment}
    (hm : zone.localMoment? w = .ok m) : m.wall.micros % 1000 = 0 := by
  obtain ⟨hinstant, -, -, s, hs⟩ := Zone.localMoment?_eq_ok hm
  simp only [Moment.instant, microsPerSecond] at *
  omega

end SearchBox.Calendar

import Mathlib.Tactic.SplitIfs
import SearchBox.Calendar.Date

/-!
  SearchBox.Proofs.Calendar.Date — days and their numbers. The year of a number is the one
  whose days surround it (`daysBeforeYear_le`, `lt_daysBeforeYear`), a year's months lie in it
  one after another, and dates and the numbers of the calendar's days are two names of the
  same (`ofNumber?_eq_some_iff`, `exists_ofNumber?`).
-/

namespace SearchBox.Calendar.Date

/-! ## Years -/

theorem daysBeforeYear_add (past : Nat) :
    daysBeforeYear (past + 1) + past / 100 = past * 365 + past / 4 + past / 400 := by
  simp only [daysBeforeYear, Nat.add_sub_cancel]
  omega

/-- Every fourth year is a leap year, but of the full centuries only every fourth one. -/
theorem isLeapYear_iff (y : Nat) : isLeapYear y = true ↔ y % 4 = 0 ∧ (y % 100 ≠ 0 ∨ y % 400 = 0) := by
  simp [isLeapYear]

theorem daysBeforeYear_succ {y : Nat} (hy : 1 ≤ y) :
    daysBeforeYear (y + 1) = daysBeforeYear y + if isLeapYear y then 366 else 365 := by
  obtain ⟨past, rfl⟩ : ∃ past, y = past + 1 := ⟨y - 1, by omega⟩
  have h := daysBeforeYear_add past
  have hsucc := daysBeforeYear_add (past + 1)
  have hleap := isLeapYear_iff (past + 1)
  -- The three quotients grow by one in the years that they divide.
  have h4 : (past + 1) / 4 = past / 4 + if (past + 1) % 4 = 0 then 1 else 0 := by split <;> omega
  have h100 : (past + 1) / 100 = past / 100 + if (past + 1) % 100 = 0 then 1 else 0 := by split <;> omega
  have h400 : (past + 1) / 400 = past / 400 + if (past + 1) % 400 = 0 then 1 else 0 := by split <;> omega
  have h100of400 : (past + 1) % 400 = 0 → (past + 1) % 100 = 0 := by omega
  have h4of100 : (past + 1) % 100 = 0 → (past + 1) % 4 = 0 := by omega
  rw [h4, h100, h400] at hsucc
  generalize past / 4 = a at *
  generalize past / 100 = b at *
  generalize past / 400 = c at *
  generalize (past + 1) % 4 = i at *
  generalize (past + 1) % 100 = j at *
  generalize (past + 1) % 400 = k at *
  split_ifs at hsucc ⊢ <;> simp_all <;> omega

theorem daysBeforeYear_mono {y z : Nat} (h : y ≤ z) : daysBeforeYear y ≤ daysBeforeYear z := by
  induction h with
  | refl => exact Nat.le_refl _
  | @step z _ ih =>
    rcases Nat.eq_zero_or_pos z with rfl | hz
    · exact ih
    · rw [daysBeforeYear_succ hz]
      omega

theorem yearOfNumber_pos (n : Nat) : 1 ≤ yearOfNumber n := by
  simp only [yearOfNumber]
  omega

/-- A day number cut into whole cycles, centuries, spans of four years, years and days. -/
theorem exists_yearOfNumber (n : Nat) :
    ∃ cycle century four year day, n = 146097 * cycle + 36524 * century + 1461 * four + 365 * year + day ∧
      yearOfNumber n = 400 * cycle + 100 * century + 4 * four + year + 1 ∧
      century ≤ 3 ∧ four ≤ 24 ∧ year ≤ 3 ∧ day ≤ 365 ∧ (day = 365 → year = 3 ∧ (four = 24 → century = 3)) := by
  obtain ⟨cycle, rest, hrest, rfl⟩ : ∃ cycle rest, rest < 146097 ∧ n = 146097 * cycle + rest :=
    ⟨n / 146097, n % 146097, Nat.mod_lt _ (by decide), (Nat.div_add_mod n 146097).symm⟩
  obtain ⟨century, hcentury⟩ : ∃ century, century = min (rest / 36524) 3 := ⟨_, rfl⟩
  obtain ⟨left, hleft⟩ : ∃ left, left = rest - century * 36524 := ⟨_, rfl⟩
  obtain ⟨year, hyear⟩ : ∃ year, year = min (left % 1461 / 365) 3 := ⟨_, rfl⟩
  refine ⟨cycle, century, left / 1461, year, left % 1461 - 365 * year, ?_, ?_, ?_⟩
  · omega
  · have hquotient : (146097 * cycle + rest) / 146097 = cycle := by omega
    have hremainder : (146097 * cycle + rest) % 146097 = rest := by omega
    simp only [yearOfNumber, cycleDays, hquotient, hremainder, ← hcentury, ← hleft, ← hyear]
    omega
  · omega

theorem daysBeforeYear_of_parts {cycle century four year : Nat} (hcentury : century ≤ 3) (hfour : four ≤ 24)
    (hyear : year ≤ 3) :
    daysBeforeYear (400 * cycle + 100 * century + 4 * four + year + 1) =
      146097 * cycle + 36524 * century + 1461 * four + 365 * year := by
  have h := daysBeforeYear_add (400 * cycle + 100 * century + 4 * four + year)
  omega

/-- The day with a number lies in the year of the number. -/
theorem daysBeforeYear_le (n : Nat) : daysBeforeYear (yearOfNumber n) ≤ n := by
  obtain ⟨cycle, century, four, year, day, hn, hy, hcentury, hfour, hyear, -, -⟩ := exists_yearOfNumber n
  rw [hy, daysBeforeYear_of_parts hcentury hfour hyear]
  omega

theorem lt_daysBeforeYear (n : Nat) : n < daysBeforeYear (yearOfNumber n + 1) := by
  obtain ⟨cycle, century, four, year, day, hn, hy, hcentury, hfour, hyear, hday, hlast⟩ := exists_yearOfNumber n
  rw [daysBeforeYear_succ (yearOfNumber_pos n), hy, daysBeforeYear_of_parts hcentury hfour hyear]
  split
  · omega
  · rename_i hleap
    rw [isLeapYear_iff] at hleap
    have : day ≠ 365 := fun h => by
      obtain ⟨hthree, hcycle⟩ := hlast h
      omega
    omega

theorem yearOfNumber_eq {n y : Nat} (h : daysBeforeYear y ≤ n) (hlt : n < daysBeforeYear (y + 1)) :
    yearOfNumber n = y := by
  have hle := daysBeforeYear_le n
  have hgt := lt_daysBeforeYear n
  rcases Nat.lt_trichotomy (yearOfNumber n) y with hlow | heq | hhigh
  · have := daysBeforeYear_mono (show yearOfNumber n + 1 ≤ y from hlow)
    omega
  · exact heq
  · have := daysBeforeYear_mono (show y + 1 ≤ yearOfNumber n from hhigh)
    omega

/-! ## Months -/

theorem monthLength_bounds (year month : Nat) : 28 ≤ monthLength year month ∧ monthLength year month ≤ 31 := by
  unfold monthLength
  split_ifs <;> omega

theorem daysBeforeMonth_succ {month : Nat} (h : 1 ≤ month) (year : Nat) :
    daysBeforeMonth year (month + 1) = daysBeforeMonth year month + monthLength year month := by
  cases month with
  | zero => omega
  | succ month => rfl

theorem daysBeforeMonth_mono (year : Nat) {m k : Nat} (h : m ≤ k) :
    daysBeforeMonth year m ≤ daysBeforeMonth year k := by
  induction h with
  | refl => exact Nat.le_refl _
  | @step k _ ih =>
    rcases Nat.eq_zero_or_pos k with rfl | hk
    · exact ih
    · rw [daysBeforeMonth_succ hk]
      omega

/-- The months of a year fill it. -/
theorem daysBeforeMonth_thirteen (year : Nat) :
    daysBeforeMonth year 13 = if isLeapYear year then 366 else 365 := by
  cases h : isLeapYear year <;> simp [daysBeforeMonth, monthLength, h]

theorem monthFrom_eq {year month fuel m day : Nat} (n : Nat) (hmonth : 1 ≤ month) (hm : month ≤ m)
    (hfuel : m ≤ month + fuel) (hday : 1 ≤ day ∧ day ≤ monthLength year m)
    (hn : daysBeforeMonth year month + n = daysBeforeMonth year m + (day - 1)) :
    monthFrom year fuel month n = (m, day) := by
  induction fuel generalizing month n with
  | zero =>
    obtain rfl : m = month := by omega
    rw [monthFrom, show n + 1 = day by omega]
  | succ fuel ih =>
    have hnext := daysBeforeMonth_succ hmonth year
    rw [monthFrom]
    rcases Nat.eq_or_lt_of_le hm with rfl | hlt
    · rw [if_pos (by omega), show n + 1 = day by omega]
    · have := daysBeforeMonth_mono year (show month + 1 ≤ m from hlt)
      rw [if_neg (by omega)]
      exact ih _ (by omega) hlt (by omega) (by omega)

/-- Month and day of the month say how many days of the year are past. -/
theorem daysBeforeMonth_monthFrom (year fuel : Nat) {month : Nat} (n : Nat) (hmonth : 1 ≤ month) :
    1 ≤ (monthFrom year fuel month n).2 ∧
      daysBeforeMonth year (monthFrom year fuel month n).1 + ((monthFrom year fuel month n).2 - 1) =
        daysBeforeMonth year month + n := by
  induction fuel generalizing month n with
  | zero => exact ⟨by simp [monthFrom], rfl⟩
  | succ fuel ih =>
    rw [monthFrom]
    split
    · exact ⟨by simp, rfl⟩
    · obtain ⟨hday, hn⟩ := ih (n - monthLength year month) (show 1 ≤ month + 1 by omega)
      rw [daysBeforeMonth_succ hmonth] at hn
      exact ⟨hday, by omega⟩

/-! ## Dates -/

/-- The day of a month lies in its year. -/
theorem number_bounds {year month day : Nat} (hyear : 1 ≤ year) (hmonth : 1 ≤ month ∧ month ≤ 12)
    (hday : 1 ≤ day ∧ day ≤ monthLength year month) :
    daysBeforeYear year + daysBeforeMonth year month ≤ number year month day ∧
      number year month day < daysBeforeYear year + daysBeforeMonth year (month + 1) ∧
      number year month day < daysBeforeYear (year + 1) := by
  have hnext := daysBeforeMonth_succ hmonth.1 year
  have hlast := daysBeforeMonth_mono year (show month + 1 ≤ 13 by omega)
  rw [daysBeforeMonth_thirteen] at hlast
  rw [daysBeforeYear_succ hyear, number]
  omega

theorem parts_eq (n : Nat) : parts n = (yearOfNumber n,
    (monthFrom (yearOfNumber n) 11 1 (n - daysBeforeYear (yearOfNumber n))).1,
    (monthFrom (yearOfNumber n) 11 1 (n - daysBeforeYear (yearOfNumber n))).2) := by
  rw [parts, Prod.eta]

theorem ofNumber?_of_parts {n year month day : Nat} (h : parts n = (year, month, day)) :
    ofNumber? n = of? year month day := by
  rw [ofNumber?, h]

theorem ofNumber?_dayNumber (d : Date) : ofNumber? d.dayNumber = some d := by
  obtain ⟨hyear, hgreatest, hmonth, hmonth', hday, hday'⟩ := d.onCalendar
  obtain ⟨hle, -, hlt⟩ := number_bounds hyear ⟨hmonth, hmonth'⟩ ⟨hday, hday'⟩
  have hy : yearOfNumber d.dayNumber = d.year := yearOfNumber_eq (by rw [dayNumber]; omega) hlt
  have hparts : parts d.dayNumber = (d.year, d.month, d.day) := by
    simp only [parts, hy]
    rw [monthFrom_eq _ (Nat.le_refl 1) hmonth (by omega) ⟨hday, hday'⟩]
    simp only [dayNumber, number, daysBeforeMonth]
    omega
  rw [ofNumber?_of_parts hparts, of?_parts]

theorem parts_of_of?_eq_some {year month day : Nat} {d : Date} (h : of? year month day = some d) :
    d.year = year ∧ d.month = month ∧ d.day = day := by
  unfold of? at h
  split at h
  · cases h
    exact ⟨rfl, rfl, rfl⟩
  · cases h

/-- A number is that of one date, if of any. -/
theorem ofNumber?_eq_some_iff {n : Nat} {d : Date} : ofNumber? n = some d ↔ n = d.dayNumber := by
  constructor
  · intro h
    rw [ofNumber?_of_parts (parts_eq n)] at h
    obtain ⟨hyear, hmonth, hday⟩ := parts_of_of?_eq_some h
    have hle := daysBeforeYear_le n
    obtain ⟨-, hn⟩ :=
      daysBeforeMonth_monthFrom (yearOfNumber n) 11 (n - daysBeforeYear (yearOfNumber n)) (Nat.le_refl 1)
    rw [dayNumber, number, hyear, hmonth, hday, Nat.add_assoc, hn, daysBeforeMonth]
    omega
  · rintro rfl
    exact ofNumber?_dayNumber d

/-- The month that a day of the year lies in, and its place there. -/
theorem monthFrom_bounds {year fuel month n : Nat} (hmonth : 1 ≤ month) (hfuel : month + fuel = 12)
    (hn : daysBeforeMonth year month + n < daysBeforeMonth year 13) :
    (1 ≤ (monthFrom year fuel month n).1 ∧ (monthFrom year fuel month n).1 ≤ 12) ∧
      1 ≤ (monthFrom year fuel month n).2 ∧
        (monthFrom year fuel month n).2 ≤ monthLength year (monthFrom year fuel month n).1 := by
  induction fuel generalizing month n with
  | zero =>
    obtain rfl : month = 12 := hfuel
    rw [daysBeforeMonth_succ (show 1 ≤ 12 by decide) year] at hn
    simp only [monthFrom]
    omega
  | succ fuel ih =>
    have := daysBeforeMonth_succ hmonth year
    rw [monthFrom]
    split
    · simp only
      omega
    · exact ih (by omega) (by omega) (by omega)

/-- The calendar's years are those of the calendar's days. -/
theorem yearOfNumber_le_iff {n : Nat} : yearOfNumber n ≤ greatestYear ↔ n < calendarDays := by
  have hend : daysBeforeYear 10000 = calendarDays := by decide
  have hle := daysBeforeYear_le n
  have hlt := lt_daysBeforeYear n
  constructor
  · intro h
    have := daysBeforeYear_mono (show yearOfNumber n + 1 ≤ 10000 from Nat.succ_le_succ h)
    omega
  · intro h
    refine Nat.not_lt.1 fun hbig => ?_
    have := daysBeforeYear_mono (show 10000 ≤ yearOfNumber n from hbig)
    omega

/-- Every number below that of the calendar's days is one of a date. -/
theorem exists_ofNumber? {n : Nat} (h : n < calendarDays) : ∃ d, ofNumber? n = some d := by
  have hyear := yearOfNumber_pos n
  have hle := daysBeforeYear_le n
  have hlt := lt_daysBeforeYear n
  have hgreatest := yearOfNumber_le_iff.2 h
  rw [daysBeforeYear_succ hyear] at hlt
  have hin : daysBeforeMonth (yearOfNumber n) 1 + (n - daysBeforeYear (yearOfNumber n)) <
      daysBeforeMonth (yearOfNumber n) 13 := by
    rw [daysBeforeMonth_thirteen, daysBeforeMonth]
    omega
  obtain ⟨⟨hfirst, hlast⟩, hday, hday'⟩ := monthFrom_bounds (Nat.le_refl 1) (show 1 + 11 = 12 from rfl) hin
  rw [ofNumber?_of_parts (parts_eq n)]
  exact ⟨_, dif_pos ⟨hyear, hgreatest, hfirst, hlast, hday, hday'⟩⟩

end SearchBox.Calendar.Date

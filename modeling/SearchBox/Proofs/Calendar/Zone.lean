import SearchBox.Calendar.Zone
import SearchBox.Proofs.Calendar.Date

/-!
  SearchBox.Proofs.Calendar.Zone — when the offset of a zone changes. In a regular zone both
  changes of a year lie well inside it and well apart (`exists_seasons`), so around any time
  there is one change at most: close to it the offset is one value before an instant and
  another one from there on (`exists_hasOffsets`).
-/

namespace SearchBox.Calendar

open Date

/-! ## Regular zones -/

/-- A change in the middle of the year, at a time of its day. -/
structure Change.IsRegular (c : Change) : Prop where
  month : 2 ≤ c.month ∧ c.month ≤ 11
  week : 1 ≤ c.week ∧ c.week ≤ 5
  time : 0 ≤ c.time ∧ c.time ≤ secondsPerDay

/-- An offset of less than a day. -/
def IsUsual (offset : Int) : Prop :=
  -secondsPerDay < offset ∧ offset < secondsPerDay

structure Daylight.IsRegular (d : Daylight) (standard : Int) : Prop where
  offset : IsUsual d.period.offset
  shift : -secondsPerDay ≤ d.period.offset - standard ∧ d.period.offset - standard ≤ secondsPerDay
  start : d.start.IsRegular
  finish : d.finish.IsRegular
  /-- There is a month between the two changes. -/
  apart : d.start.month + 2 ≤ d.finish.month ∨ d.finish.month + 2 ≤ d.start.month

/-- A zone with offsets of less than a day, which changes in the middle of the year. -/
structure Zone.IsRegular (zone : Zone) : Prop where
  standard : IsUsual zone.standard.offset
  daylight : ∀ d ∈ zone.daylight, d.IsRegular zone.standard.offset

instance (c : Change) : Decidable c.IsRegular :=
  decidable_of_iff ((2 ≤ c.month ∧ c.month ≤ 11) ∧ (1 ≤ c.week ∧ c.week ≤ 5) ∧ 0 ≤ c.time ∧ c.time ≤ secondsPerDay)
    ⟨fun h => ⟨h.1, h.2.1, h.2.2⟩, fun h => ⟨h.month, h.week, h.time⟩⟩

instance (offset : Int) : Decidable (IsUsual offset) :=
  inferInstanceAs (Decidable (_ ∧ _))

instance (d : Daylight) (standard : Int) : Decidable (d.IsRegular standard) :=
  decidable_of_iff (IsUsual d.period.offset ∧
      (-secondsPerDay ≤ d.period.offset - standard ∧ d.period.offset - standard ≤ secondsPerDay) ∧
      d.start.IsRegular ∧ d.finish.IsRegular ∧
      (d.start.month + 2 ≤ d.finish.month ∨ d.finish.month + 2 ≤ d.start.month))
    ⟨fun h => ⟨h.1, h.2.1, h.2.2.1, h.2.2.2.1, h.2.2.2.2⟩, fun h => ⟨h.offset, h.shift, h.start, h.finish, h.apart⟩⟩

instance (zone : Zone) : Decidable zone.IsRegular :=
  decidable_of_iff (IsUsual zone.standard.offset ∧ ∀ d ∈ zone.daylight, d.IsRegular zone.standard.offset)
    ⟨fun h => ⟨h.1, h.2⟩, fun h => ⟨h.standard, h.daylight⟩⟩

/-- Zones in their one-line form: two without daylight-saving time, two that change their
    clocks at night, in the north and in the south, and one that does so at midnight. -/
def usualZones : List String :=
  ["UTC0", "IST-5:30", "EST5EDT,M3.2.0,M11.1.0", "NZST-12NZDT,M9.5.0,M4.1.0/3", "<-03>3<-02>,M10.3.0/0,M2.3.0/0"]

theorem usualZones_isRegular : ∀ text ∈ usualZones, (Zone.read? text).any (·.IsRegular) = true := by
  decide

/-- The change to another offset at an instant, with the offsets before and after it. -/
inductive Zone.TurnsAt (zone : Zone) : Int → Int → Int → Prop where
  | start {d : Daylight} (h : zone.daylight = some d) {year : Nat} (hyear : 1 ≤ year) :
      zone.TurnsAt (d.start.wallSeconds year - zone.standard.offset) zone.standard.offset d.period.offset
  | finish {d : Daylight} (h : zone.daylight = some d) {year : Nat} (hyear : 1 ≤ year) :
      zone.TurnsAt (d.finish.wallSeconds year - d.period.offset) d.period.offset zone.standard.offset

/-- A zone has its standard offset or the one of its daylight-saving time. -/
theorem offsetAt_cases (zone : Zone) (s : Int) :
    zone.offsetAt s = zone.standard.offset ∨ ∃ d ∈ zone.daylight, zone.offsetAt s = d.period.offset := by
  unfold Zone.offsetAt Zone.periodAt
  split
  · rename_i d hd
    split
    · exact .inr ⟨d, hd, rfl⟩
    · exact .inl rfl
  · exact .inl rfl

theorem Zone.IsRegular.offsetAt {zone : Zone} (h : zone.IsRegular) (s : Int) : IsUsual (zone.offsetAt s) := by
  rcases offsetAt_cases zone s with hs | ⟨d, hd, hs⟩
  · rw [hs]
    exact h.standard
  · rw [hs]
    exact (h.daylight d hd).offset

/-! ## Changes in their year -/

/-- The seconds before a year. -/
def startOf (year : Nat) : Int :=
  (daysBeforeYear year : Int) * secondsPerDay

theorem startOf_mono {y z : Nat} (h : y ≤ z) : startOf y ≤ startOf z := by
  have := daysBeforeYear_mono h
  simp only [startOf, secondsPerDay]
  omega

theorem startOf_nonneg (year : Nat) : 0 ≤ startOf year := by
  simp only [startOf, secondsPerDay]
  omega

theorem Change.day_bounds {c : Change} (hc : c.IsRegular) (year : Nat) :
    1 ≤ c.day year ∧ c.day year ≤ monthLength year c.month := by
  obtain ⟨hweek, hweek'⟩ := hc.week
  have := monthLength_bounds year c.month
  simp only [Change.day]
  split
  · omega
  · split <;> omega

/-- A change happens in its month, or just at the end of it. -/
theorem Change.wallSeconds_bounds {c : Change} (hc : c.IsRegular) {year : Nat} (hyear : 1 ≤ year) :
    startOf year + (daysBeforeMonth year c.month : Int) * secondsPerDay ≤ c.wallSeconds year ∧
      c.wallSeconds year ≤ startOf year + (daysBeforeMonth year (c.month + 1) : Int) * secondsPerDay := by
  obtain ⟨hmonth, hmonth'⟩ := hc.month
  obtain ⟨htime, htime'⟩ := hc.time
  obtain ⟨hle, hlt, -⟩ := number_bounds hyear ⟨show 1 ≤ c.month by omega, by omega⟩ (c.day_bounds hc year)
  simp only [wallSeconds, startOf, secondsPerDay] at *
  omega

/-- The year of an instant from the calendar's start on. -/
theorem yearOf_bounds {s : Int} (hs : 0 ≤ s) : startOf (Zone.yearOf s) ≤ s ∧ s < startOf (Zone.yearOf s + 1) := by
  have hle := daysBeforeYear_le (s / secondsPerDay).toNat
  have hlt := lt_daysBeforeYear (s / secondsPerDay).toNat
  simp only [Zone.yearOf, startOf, secondsPerDay] at *
  omega

theorem yearOf_pos (s : Int) : 1 ≤ Zone.yearOf s :=
  yearOfNumber_pos _

theorem yearOf_of_neg {s : Int} (hs : s < 0) : Zone.yearOf s = 1 := by
  have h : (s / secondsPerDay).toNat = 0 := by
    simp only [secondsPerDay]
    omega
  rw [Zone.yearOf, h]
  rfl

/-! ## Two seasons -/

/-- Twenty days. -/
def margin : Int := 1728000

/-- A zone with one offset between the first and the second change of each year and another
    one in the rest of it. -/
structure Zone.HasSeasons (zone : Zone) (outer inner : Int) (first second : Nat → Int) : Prop where
  offsetAt : ∀ s, zone.offsetAt s =
    if first (yearOf s) ≤ s ∧ s < second (yearOf s) then inner else outer
  within : ∀ year, 1 ≤ year → startOf year + margin ≤ first year ∧ first year + margin ≤ second year ∧
    second year + margin ≤ startOf (year + 1)
  turnsAt_iff : ∀ T o₁ o₂, zone.TurnsAt T o₁ o₂ ↔ ∃ year, 1 ≤ year ∧
    ((T = first year ∧ o₁ = outer ∧ o₂ = inner) ∨ (T = second year ∧ o₁ = inner ∧ o₂ = outer))

theorem startOf_succ {year : Nat} (hyear : 1 ≤ year) :
    startOf year + (daysBeforeMonth year 13 : Int) * secondsPerDay = startOf (year + 1) := by
  rw [daysBeforeMonth_thirteen]
  simp only [startOf, secondsPerDay, daysBeforeYear_succ hyear]
  omega

/-- Two changes with a month between them, and a month before and after them. -/
theorem changes_within {c c' : Change} (hc : c.IsRegular) (hc' : c'.IsRegular) (hapart : c.month + 2 ≤ c'.month)
    {o o' : Int} (ho : IsUsual o) (ho' : IsUsual o') {year : Nat} (hyear : 1 ≤ year) :
    startOf year + margin ≤ c.wallSeconds year - o ∧
      c.wallSeconds year - o + margin ≤ c'.wallSeconds year - o' ∧
      c'.wallSeconds year - o' + margin ≤ startOf (year + 1) := by
  obtain ⟨hlow, hhigh⟩ := c.wallSeconds_bounds hc hyear
  obtain ⟨hlow', hhigh'⟩ := c'.wallSeconds_bounds hc' hyear
  obtain ⟨ho₁, ho₂⟩ := ho
  obtain ⟨ho₁', ho₂'⟩ := ho'
  -- The months before, between and after the two are not shorter than 28 days.
  have hbefore := daysBeforeMonth_mono year hc.month.1
  have hbetween := daysBeforeMonth_mono year hapart
  have hafter := daysBeforeMonth_mono year (show c'.month + 2 ≤ 13 from Nat.add_le_add_right hc'.month.2 2)
  have hjanuary : daysBeforeMonth year 2 = monthLength year 1 := Nat.zero_add _
  have hgap : daysBeforeMonth year (c.month + 2) =
      daysBeforeMonth year (c.month + 1) + monthLength year (c.month + 1) := rfl
  have hlast : daysBeforeMonth year (c'.month + 2) =
      daysBeforeMonth year (c'.month + 1) + monthLength year (c'.month + 1) := rfl
  have hlen₁ := monthLength_bounds year 1
  have hlen₂ := monthLength_bounds year (c.month + 1)
  have hlen₃ := monthLength_bounds year (c'.month + 1)
  have hend := startOf_succ hyear
  simp only [margin, secondsPerDay] at *
  omega

section Daylight

variable {zone : Zone} {d : Daylight} {s : Int}

theorem offsetAt_of_start_lt (hd : zone.daylight = some d)
    (h : d.start.wallSeconds (Zone.yearOf s) - zone.standard.offset <
      d.finish.wallSeconds (Zone.yearOf s) - d.period.offset) :
    zone.offsetAt s =
      if d.start.wallSeconds (Zone.yearOf s) - zone.standard.offset ≤ s ∧
        s < d.finish.wallSeconds (Zone.yearOf s) - d.period.offset then d.period.offset
      else zone.standard.offset := by
  simp only [Zone.offsetAt, Zone.periodAt, Zone.inDaylight, hd, if_pos h, Bool.and_eq_true, decide_eq_true_eq]
  split <;> rfl

theorem offsetAt_of_finish_lt (hd : zone.daylight = some d)
    (h : d.finish.wallSeconds (Zone.yearOf s) - d.period.offset <
      d.start.wallSeconds (Zone.yearOf s) - zone.standard.offset) :
    zone.offsetAt s =
      if d.finish.wallSeconds (Zone.yearOf s) - d.period.offset ≤ s ∧
        s < d.start.wallSeconds (Zone.yearOf s) - zone.standard.offset then zone.standard.offset
      else d.period.offset := by
  simp only [Zone.offsetAt, Zone.periodAt, Zone.inDaylight, hd, if_neg (show ¬ _ < _ from Int.not_lt.2 (Int.le_of_lt h)),
    Bool.or_eq_true, decide_eq_true_eq]
  split <;> split <;> first | rfl | omega

end Daylight

theorem exists_seasons {zone : Zone} (h : zone.IsRegular) {d : Daylight} (hd : zone.daylight = some d) :
    ∃ outer inner first second, zone.HasSeasons outer inner first second := by
  obtain ⟨hoffset, -, hstart, hfinish, hapart⟩ := h.daylight d hd
  have hturns : ∀ T o₁ o₂, zone.TurnsAt T o₁ o₂ ↔ ∃ year, 1 ≤ year ∧
      ((T = d.start.wallSeconds year - zone.standard.offset ∧ o₁ = zone.standard.offset ∧ o₂ = d.period.offset) ∨
        (T = d.finish.wallSeconds year - d.period.offset ∧ o₁ = d.period.offset ∧ o₂ = zone.standard.offset)) := by
    intro T o₁ o₂
    constructor
    · rintro (⟨hd', hyear⟩ | ⟨hd', hyear⟩)
      · cases hd.symm.trans hd'
        exact ⟨_, hyear, .inl ⟨rfl, rfl, rfl⟩⟩
      · cases hd.symm.trans hd'
        exact ⟨_, hyear, .inr ⟨rfl, rfl, rfl⟩⟩
    · rintro ⟨year, hyear, ⟨rfl, rfl, rfl⟩ | ⟨rfl, rfl, rfl⟩⟩
      · exact .start hd hyear
      · exact .finish hd hyear
  rcases hapart with hapart | hapart
  · -- In the north daylight-saving time lies between the two changes.
    have hwithin := fun year (hyear : 1 ≤ year) => changes_within hstart hfinish hapart h.standard hoffset hyear
    refine ⟨zone.standard.offset, d.period.offset, fun year => d.start.wallSeconds year - zone.standard.offset,
      fun year => d.finish.wallSeconds year - d.period.offset, fun s => ?_, hwithin, hturns⟩
    obtain ⟨-, hlt, -⟩ := hwithin _ (yearOf_pos s)
    exact offsetAt_of_start_lt hd (by simp only [margin] at hlt; omega)
  · -- In the south standard time does.
    have hwithin := fun year (hyear : 1 ≤ year) => changes_within hfinish hstart hapart hoffset h.standard hyear
    refine ⟨d.period.offset, zone.standard.offset, fun year => d.finish.wallSeconds year - d.period.offset,
      fun year => d.start.wallSeconds year - zone.standard.offset, fun s => ?_, hwithin, fun T o₁ o₂ => ?_⟩
    · obtain ⟨-, hlt, -⟩ := hwithin _ (yearOf_pos s)
      exact offsetAt_of_finish_lt hd (by simp only [margin] at hlt; omega)
    · rw [hturns]
      exact exists_congr fun year => and_congr_right fun _ => or_comm

section Seasons

variable {zone : Zone} {outer inner : Int} {first second : Nat → Int}

/-- The offset in a year and up to twenty days around it. -/
theorem Zone.HasSeasons.offsetAt_near (h : zone.HasSeasons outer inner first second) {year : Nat} (hyear : 1 ≤ year)
    {s : Int} (hs : startOf year - margin ≤ s) (hs' : s < startOf (year + 1) + margin) :
    zone.offsetAt s = if first year ≤ s ∧ s < second year then inner else outer := by
  rw [h.offsetAt s]
  obtain ⟨hfirst, -, hsecond⟩ := h.within year hyear
  obtain ⟨hfirst', -, hsecond'⟩ := h.within _ (yearOf_pos s)
  rcases Nat.lt_trichotomy (yearOf s) year with hlt | heq | hgt
  · have hmono := startOf_mono (show yearOf s + 1 ≤ year from hlt)
    have hle : s < startOf year := by
      rcases Int.lt_or_le s 0 with hneg | hpos
      · exact Int.lt_of_lt_of_le hneg (startOf_nonneg year)
      · have := (yearOf_bounds hpos).2
        omega
    rw [if_neg (by omega), if_neg (by omega)]
  · rw [heq]
  · have hmono := startOf_mono (show year + 1 ≤ yearOf s from hgt)
    have hpos : 0 ≤ s := by
      rcases Int.lt_or_le s 0 with hneg | hpos
      · rw [yearOf_of_neg hneg] at hgt
        omega
      · exact hpos
    have := (yearOf_bounds hpos).1
    rw [if_neg (by omega), if_neg (by omega)]

end Seasons

/-! ## One change at most -/

/-- Between two instants a zone has one offset before a third one and another one from there on. -/
def Zone.HasOffsets (zone : Zone) (low high T o₁ o₂ : Int) : Prop :=
  ∀ s, low ≤ s → s ≤ high → zone.offsetAt s = if s < T then o₁ else o₂

theorem Zone.HasOffsets.mono {zone : Zone} {low high low' high' T o₁ o₂ : Int} (h : zone.HasOffsets low high T o₁ o₂)
    (hlow : low ≤ low') (hhigh : high' ≤ high) : zone.HasOffsets low' high' T o₁ o₂ :=
  fun s hs hs' => h s (Int.le_trans hlow hs) (Int.le_trans hs' hhigh)

section Near

variable {zone : Zone}

theorem Zone.IsRegular.turnsAt (h : zone.IsRegular) {T o₁ o₂ : Int} (ht : zone.TurnsAt T o₁ o₂) :
    IsUsual o₁ ∧ IsUsual o₂ ∧ -secondsPerDay ≤ o₁ - o₂ ∧ o₁ - o₂ ≤ secondsPerDay := by
  cases ht with
  | start hd hyear =>
    obtain ⟨hoffset, ⟨hlow, hhigh⟩, -⟩ := h.daylight _ hd
    exact ⟨h.standard, hoffset, by omega, by omega⟩
  | finish hd hyear =>
    obtain ⟨hoffset, ⟨hlow, hhigh⟩, -⟩ := h.daylight _ hd
    exact ⟨hoffset, h.standard, by omega, by omega⟩

theorem Zone.TurnsAt.seasons (h : zone.IsRegular) {T o₁ o₂ : Int} (ht : zone.TurnsAt T o₁ o₂) :
    ∃ outer inner first second, zone.HasSeasons outer inner first second := by
  cases ht with
  | start hd hyear => exact exists_seasons h hd
  | finish hd hyear => exact exists_seasons h hd

/-- Close to a change there is no other one, and it lies in the calendar's years. -/
theorem Zone.TurnsAt.hasOffsets (h : zone.IsRegular) {T o₁ o₂ : Int} (ht : zone.TurnsAt T o₁ o₂) :
    zone.HasOffsets (T - 10 * secondsPerDay) (T + 10 * secondsPerDay) T o₁ o₂ ∧
    ∃ year, 1 ≤ year ∧ startOf year + margin ≤ T ∧ T + margin ≤ startOf (year + 1) := by
  obtain ⟨outer, inner, first, second, hs⟩ := ht.seasons h
  obtain ⟨year, hyear, ⟨rfl, rfl, rfl⟩ | ⟨rfl, rfl, rfl⟩⟩ := (hs.turnsAt_iff T o₁ o₂).1 ht
  all_goals
    obtain ⟨hfirst, hbetween, hsecond⟩ := hs.within year hyear
    simp only [margin] at hfirst hbetween hsecond
    refine ⟨fun s hlow hhigh => ?_, year, hyear, by simp only [margin]; omega, by simp only [margin]; omega⟩
    simp only [secondsPerDay] at hlow hhigh
    rw [hs.offsetAt_near hyear (by simp only [margin]; omega) (by simp only [margin]; omega)]
    split <;> split <;> first | rfl | omega

/-- Around any time from the calendar's start on, a zone keeps its offset or changes it once. -/
theorem exists_hasOffsets (h : zone.IsRegular) {w : Int} (hw : 0 ≤ w) :
    ∃ T o₁ o₂, zone.HasOffsets (w - 5 * secondsPerDay) (w + 5 * secondsPerDay) T o₁ o₂ ∧ (o₁ = o₂ ∨ zone.TurnsAt T o₁ o₂) := by
  cases hd : zone.daylight with
  | none =>
    refine ⟨0, zone.standard.offset, zone.standard.offset, fun s _ _ => ?_, .inl rfl⟩
    simp [Zone.offsetAt, Zone.periodAt, hd]
  | some d =>
    obtain ⟨outer, inner, first, second, hs⟩ := exists_seasons h hd
    have hyear := yearOf_pos w
    obtain ⟨hlow, hhigh⟩ := yearOf_bounds hw
    obtain ⟨hfirst, hbetween, hsecond⟩ := hs.within _ hyear
    generalize Zone.yearOf w = year at *
    have hday : secondsPerDay = 86400 := rfl
    have hnear : ∀ s, w - 5 * secondsPerDay ≤ s → s ≤ w + 5 * secondsPerDay → zone.offsetAt s =
        if first year ≤ s ∧ s < second year then inner else outer := fun s hs₁ hs₂ =>
      hs.offsetAt_near hyear (by simp only [margin]; omega) (by simp only [margin]; omega)
    have turn : ∀ {T o₁ o₂}, ((T = first year ∧ o₁ = outer ∧ o₂ = inner) ∨ (T = second year ∧ o₁ = inner ∧ o₂ = outer)) →
        zone.TurnsAt T o₁ o₂ := fun ht => (hs.turnsAt_iff _ _ _).2 ⟨year, hyear, ht⟩
    simp only [margin] at hfirst hbetween hsecond
    by_cases h₁ : first year ≤ w + 5 * secondsPerDay
    · by_cases h₂ : w - 5 * secondsPerDay < first year
      · refine ⟨first year, outer, inner, fun s hs₁ hs₂ => ?_, .inr (turn (.inl ⟨rfl, rfl, rfl⟩))⟩
        rw [hnear s hs₁ hs₂]
        split <;> split <;> first | rfl | omega
      · by_cases h₃ : second year ≤ w + 5 * secondsPerDay
        · refine ⟨second year, inner, outer, fun s hs₁ hs₂ => ?_, .inr (turn (.inr ⟨rfl, rfl, rfl⟩))⟩
          rw [hnear s hs₁ hs₂]
          split <;> split <;> first | rfl | omega
        · refine ⟨w, inner, inner, fun s hs₁ hs₂ => ?_, .inl rfl⟩
          rw [hnear s hs₁ hs₂, if_pos (by omega)]
          simp
    · refine ⟨w, outer, outer, fun s hs₁ hs₂ => ?_, .inl rfl⟩
      rw [hnear s hs₁ hs₂, if_neg (by omega)]
      simp

end Near

end SearchBox.Calendar

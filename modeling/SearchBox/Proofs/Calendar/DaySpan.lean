import Mathlib.Data.List.Basic
import SearchBox.Calendar.DaySpan
import SearchBox.Proofs.Calendar.Moment

/-!
  SearchBox.Proofs.Calendar.DaySpan — the span of a day beside the day itself. Both ends are
  wall times, each read with one offset. A day on whose ends the clock is not changed is its
  span, instant by instant; a change that leaps over an end of it or goes back over one
  (`Blurs`) makes the two differ (`contains_iff_dateOf?`). In a zone that changes its clock at
  midnight there are such days (`exists_blurred_day`).
-/

namespace SearchBox.Calendar

/-- The span that a text gives is that of a day. -/
theorem DaySpan.exists_ofDay {clock : Clock} {today : Date} {s : List Char} {span : DaySpan}
    (h : ofText? clock today s = .ok (some span)) : ∃ day, ofDay clock.zone day = .ok span := by
  unfold ofText? at h
  split at h
  · cases h
  · cases h
  · simp only at h
    split at h
    · cases h
    · rename_i day hday
      refine ⟨day, ?_⟩
      cases hspan : ofDay clock.zone day with
      | error e => rw [hspan] at h; cases h
      | ok span => rw [hspan] at h; cases h; rfl

/-! ## Spans in seconds -/

def Zone.readOffset (zone : Zone) (wall : Int) : Int :=
  zone.offsetAt (zone.instantOf wall)

def Date.midnightSeconds (d : Date) : Int :=
  (d.dayNumber : Int) * secondsPerDay

section Span

variable {zone : Zone} {d : Date} {span : DaySpan}

theorem midnight_seconds (d : Date) : (WallTime.midnight d).seconds = d.midnightSeconds := by
  simp only [WallTime.midnight, WallTime.on, WallTime.seconds, TimeOfDay.micros, Date.midnightSeconds, microsPerDay,
    microsPerSecond, secondsPerDay]
  omega

theorem lastTime_seconds (d : Date) :
    (WallTime.on d DaySpan.lastTime).seconds = d.midnightSeconds + (secondsPerDay - 1) := by
  simp only [WallTime.on, WallTime.seconds, TimeOfDay.micros, DaySpan.lastTime, Date.midnightSeconds, microsPerDay,
    microsPerSecond, secondsPerDay]
  omega

/-- The two ends of a span as instants, both of them on the calendar. -/
theorem ofDay_bounds (hspan : DaySpan.ofDay zone d = .ok span) :
    span.first.instant = (d.midnightSeconds - zone.readOffset d.midnightSeconds) * microsPerSecond ∧
      span.last.instant = (d.midnightSeconds + (secondsPerDay - 1) -
        zone.readOffset (d.midnightSeconds + (secondsPerDay - 1))) * microsPerSecond + 999000 ∧
      0 ≤ span.first.instant ∧ span.last.instant < calendarMicros := by
  obtain ⟨first, hfirst, h⟩ := bind_eq_ok.1 hspan
  obtain ⟨last, hlast, h⟩ := bind_eq_ok.1 h
  cases h
  obtain ⟨hinstant, hlow, -, -⟩ := Zone.localMoment?_eq_ok hfirst
  obtain ⟨hinstant', -, hhigh, -⟩ := Zone.localMoment?_eq_ok hlast
  rw [midnight_seconds] at hinstant
  rw [lastTime_seconds] at hinstant'
  refine ⟨?_, ?_, hlow, hhigh⟩
  · rw [hinstant]
    simp only [Zone.readOffset, WallTime.midnight, WallTime.on, TimeOfDay.micros, Date.midnightSeconds, microsPerDay,
      microsPerSecond, secondsPerDay]
    omega
  · rw [hinstant']
    simp only [Zone.readOffset, WallTime.on, TimeOfDay.micros, DaySpan.lastTime, Date.midnightSeconds, microsPerDay,
      microsPerSecond, secondsPerDay]
    omega

theorem ofDay_offsetUsable (h : ∀ s, IsUsual (zone.offsetAt s)) (hspan : DaySpan.ofDay zone d = .ok span) :
    span.first.offsetUsable = true ∧ span.last.offsetUsable = true := by
  obtain ⟨first, hfirst, hrest⟩ := bind_eq_ok.1 hspan
  obtain ⟨last, hlast, hrest⟩ := bind_eq_ok.1 hrest
  cases hrest
  obtain ⟨-, -, -, s, hs⟩ := Zone.localMoment?_eq_ok hfirst
  obtain ⟨-, -, -, s', hs'⟩ := Zone.localMoment?_eq_ok hlast
  exact ⟨offsetUsable_of_isUsual hs (h s), offsetUsable_of_isUsual hs' (h s')⟩

theorem contains_iff (h : zone.IsRegular) (hspan : DaySpan.ofDay zone d = .ok span) {t : Moment}
    (ht : t.offsetUsable = true) :
    span.contains t = .ok true ↔ span.first.instant ≤ t.instant ∧ t.instant ≤ span.last.instant := by
  obtain ⟨hfirst, hlast⟩ := ofDay_offsetUsable h.offsetAt hspan
  unfold DaySpan.contains
  rw [atMost?_eq_ok hfirst ht, atMost?_eq_ok ht hlast]
  by_cases hle : span.first.instant ≤ t.instant <;> simp [bind, Except.bind, pure, Except.pure, hle]

/-- A moment of whole milliseconds lies in a span if its second does. -/
theorem contains_iff_second (h : zone.IsRegular) (hspan : DaySpan.ofDay zone d = .ok span) {t : Moment}
    (ht : t.offsetUsable = true) (hmilli : t.instant % 1000 = 0) :
    span.contains t = .ok true ↔
      d.midnightSeconds - zone.readOffset d.midnightSeconds ≤ t.instant / microsPerSecond ∧
      t.instant / microsPerSecond ≤ d.midnightSeconds + (secondsPerDay - 1) -
        zone.readOffset (d.midnightSeconds + (secondsPerDay - 1)) := by
  obtain ⟨hfirst, hlast, -, -⟩ := ofDay_bounds hspan
  rw [contains_iff h hspan ht, hfirst, hlast]
  simp only [microsPerSecond]
  omega

end Span

/-! ## Clear days -/

/-- A change by which the clock goes from showing `P` to showing `Q` blurs the day that starts
    when it shows `M`: it leaps over the start or the end of the day, or goes back over one of
    them. -/
def Blurs (P Q M : Int) : Prop :=
  (P ≤ M ∧ M < Q) ∨ (P < M + secondsPerDay ∧ M + secondsPerDay < Q) ∨
    (Q < M ∧ M < P) ∨ (Q < M + secondsPerDay ∧ M + secondsPerDay ≤ P)

/-- A day on whose ends no change of the clock has a bearing. -/
def Zone.IsClear (zone : Zone) (d : Date) : Prop :=
  ∀ T o₁ o₂, zone.TurnsAt T o₁ o₂ → ¬ Blurs (T + o₁) (T + o₂) d.midnightSeconds

section Seconds

variable {M T o₁ o₂ : Int}

/-- The seconds of a span, where the offset changes once at most. -/
def InSpan (M T o₁ o₂ s : Int) : Prop :=
  M - (if M < T + o₁ then o₁ else o₂) ≤ s ∧
    s ≤ M + (secondsPerDay - 1) - (if M + (secondsPerDay - 1) < T + o₁ then o₁ else o₂)

/-- The seconds at which the clock shows a time of a day. -/
def InDay (M T o₁ o₂ s : Int) : Prop :=
  M ≤ s + (if s < T then o₁ else o₂) ∧ s + (if s < T then o₁ else o₂) < M + secondsPerDay

theorem inSpan_iff_inDay (h : ¬ Blurs (T + o₁) (T + o₂) M) (s : Int) : InSpan M T o₁ o₂ s ↔ InDay M T o₁ o₂ s := by
  simp only [Blurs, InSpan, InDay, secondsPerDay] at *
  split_ifs <;> omega

/-- A change that blurs a day puts a second close to it on the wrong side. -/
theorem exists_of_blurs (ho₁ : IsUsual o₁) (ho₂ : IsUsual o₂) (h : Blurs (T + o₁) (T + o₂) M) :
    T - 3 * secondsPerDay ≤ M ∧ M ≤ T + 3 * secondsPerDay ∧
      ∃ s, T - 3 * secondsPerDay ≤ s ∧ s ≤ T + 3 * secondsPerDay ∧ ¬ (InSpan M T o₁ o₂ s ↔ InDay M T o₁ o₂ s) := by
  obtain ⟨hlow₁, hhigh₁⟩ := ho₁
  obtain ⟨hlow₂, hhigh₂⟩ := ho₂
  simp only [Blurs, secondsPerDay] at *
  refine ⟨by omega, by omega, ?_⟩
  by_cases hstart : T + o₁ ≤ M ∧ M < T + o₂
  · -- The first second of the span is one of the day before.
    refine ⟨M - o₂, by omega, by omega, ?_⟩
    simp only [InSpan, InDay, secondsPerDay]
    split_ifs <;> omega
  by_cases hend : T + o₁ < M + 86400 ∧ M + 86400 < T + o₂
  · -- The span ends before the day does, whose last second is the one before the change.
    refine ⟨T - 1, by omega, by omega, ?_⟩
    simp only [InSpan, InDay, secondsPerDay]
    split_ifs <;> omega
  by_cases hlast : T + o₂ < M + 86400 ∧ M + 86400 ≤ T + o₁
  · -- The end of the day is repeated after the span.
    refine ⟨max T (M - o₂), by omega, by omega, ?_⟩
    simp only [InSpan, InDay, secondsPerDay]
    split_ifs <;> omega
  · -- The end of the day before is repeated within the span.
    refine ⟨T, by omega, by omega, ?_⟩
    simp only [InSpan, InDay, secondsPerDay]
    split_ifs <;> omega

end Seconds

/-! ## Clocks that are changed within a day -/

/-- A change by some seconds that happens, and leads to a time, strictly within its day. -/
def Change.IsWithinDay (c : Change) (shift : Int) : Prop :=
  0 < c.time ∧ c.time < secondsPerDay ∧ 0 < c.time + shift ∧ c.time + shift < secondsPerDay

instance (c : Change) (shift : Int) : Decidable (c.IsWithinDay shift) :=
  inferInstanceAs (Decidable (_ ∧ _ ∧ _ ∧ _))

theorem Change.IsWithinDay.not_blurs {c : Change} {shift : Int} (h : c.IsWithinDay shift) (year : Nat) (d : Date) :
    ¬ Blurs (c.wallSeconds year) (c.wallSeconds year + shift) d.midnightSeconds := by
  obtain ⟨hlow, hhigh, hlow', hhigh'⟩ := h
  simp only [Blurs, wallSeconds, Date.midnightSeconds, secondsPerDay] at *
  omega

/-- Where no change of the clock touches midnight, all days are clear. -/
theorem isClear_of_isWithinDay {zone : Zone}
    (h : ∀ s ∈ zone.daylight, s.start.IsWithinDay (s.period.offset - zone.standard.offset) ∧
      s.finish.IsWithinDay (zone.standard.offset - s.period.offset)) (d : Date) : zone.IsClear d := by
  intro T o₁ o₂ hturn
  cases hturn with
  | @start s hs year _ =>
    have := (h s hs).1.not_blurs year d
    rwa [show s.start.wallSeconds year - zone.standard.offset + zone.standard.offset = s.start.wallSeconds year by omega,
      show s.start.wallSeconds year - zone.standard.offset + s.period.offset =
        s.start.wallSeconds year + (s.period.offset - zone.standard.offset) by omega]
  | @finish s hs year _ =>
    have := (h s hs).2.not_blurs year d
    rwa [show s.finish.wallSeconds year - s.period.offset + s.period.offset = s.finish.wallSeconds year by omega,
      show s.finish.wallSeconds year - s.period.offset + zone.standard.offset =
        s.finish.wallSeconds year + (zone.standard.offset - s.period.offset) by omega]

/-! ## Spans and days -/

section Clear

variable {zone : Zone} {d : Date} {span : DaySpan} {T o₁ o₂ : Int}

/-- What is known of the offsets around a day. -/
structure Zone.HasOffsetsAround (zone : Zone) (d : Date) (T o₁ o₂ : Int) : Prop where
  offsetAt : zone.HasOffsets (d.midnightSeconds - 5 * secondsPerDay) (d.midnightSeconds + 5 * secondsPerDay) T o₁ o₂
  before : IsUsual o₁
  after : IsUsual o₂
  shift : -secondsPerDay ≤ o₁ - o₂ ∧ o₁ - o₂ ≤ secondsPerDay

theorem Zone.HasOffsetsAround.readOffset (h : zone.HasOffsetsAround d T o₁ o₂) {wall : Int}
    (hlow : d.midnightSeconds ≤ wall) (hhigh : wall ≤ d.midnightSeconds + secondsPerDay) :
    zone.readOffset wall = if wall < T + o₁ then o₁ else o₂ := by
  have hday : secondsPerDay = 86400 := rfl
  have hnear : zone.HasOffsets (wall - 3 * secondsPerDay) (wall + 3 * secondsPerDay) T o₁ o₂ :=
    h.offsetAt.mono (by omega) (by omega)
  exact Zone.offsetAt_instantOf hnear h.before h.after h.shift

theorem contains_iff_inSpan (h : zone.IsRegular) (hspan : DaySpan.ofDay zone d = .ok span)
    (hoffsets : zone.HasOffsetsAround d T o₁ o₂) {t : Moment} (ht : t.offsetUsable = true)
    (hmilli : t.instant % 1000 = 0) :
    span.contains t = .ok true ↔ InSpan d.midnightSeconds T o₁ o₂ (t.instant / microsPerSecond) := by
  have hday : secondsPerDay = 86400 := rfl
  rw [contains_iff_second h hspan ht hmilli, hoffsets.readOffset (by omega) (by omega),
    hoffsets.readOffset (by omega) (by omega)]
  rfl

/-- The date at an instant, by the offset in use there. -/
theorem dateOf?_iff_inDay (h : zone.IsRegular) (hoffsets : zone.HasOffsetsAround d T o₁ o₂) {t : Moment}
    (ht : t.offsetUsable = true) :
    zone.dateOf? t = some d ↔ 0 ≤ t.instant ∧ t.instant < calendarMicros ∧
      InDay d.midnightSeconds T o₁ o₂ (t.instant / microsPerSecond) := by
  have hday : secondsPerDay = 86400 := rfl
  obtain ⟨hlow, hhigh⟩ := h.offsetAt (t.instant / microsPerSecond)
  obtain ⟨hlow₁, hhigh₁⟩ := hoffsets.before
  obtain ⟨hlow₂, hhigh₂⟩ := hoffsets.after
  rw [dateOf?_eq_some_iff ht]
  refine and_congr_right fun _ => and_congr_right fun _ => ?_
  generalize t.instant / microsPerSecond = s at *
  show d.midnightSeconds ≤ _ ∧ _ < d.midnightSeconds + secondsPerDay ↔ _
  by_cases hnear : d.midnightSeconds - 5 * secondsPerDay ≤ s ∧ s ≤ d.midnightSeconds + 5 * secondsPerDay
  · rw [hoffsets.offsetAt s hnear.1 hnear.2]
    rfl
  · -- Far away from the day no offset leads into it.
    unfold InDay
    split_ifs <;> omega

theorem Zone.IsRegular.hasOffsetsAround (h : zone.IsRegular) (d : Date) :
    ∃ T o₁ o₂, zone.HasOffsetsAround d T o₁ o₂ ∧ (o₁ = o₂ ∨ zone.TurnsAt T o₁ o₂) := by
  have hday : secondsPerDay = 86400 := rfl
  have hmidnight : 0 ≤ d.midnightSeconds := by
    simp only [Date.midnightSeconds, secondsPerDay]
    omega
  obtain ⟨T, o₁, o₂, hoffsets, hturn⟩ := exists_hasOffsets h hmidnight
  refine ⟨T, o₁, o₂, ?_, hturn⟩
  rcases hturn with rfl | hturn
  · have husual := h.offsetAt d.midnightSeconds
    rw [hoffsets _ (by omega) (by omega), ite_self] at husual
    exact ⟨hoffsets, husual, husual, by omega, by omega⟩
  · obtain ⟨hbefore, hafter, hshift⟩ := h.turnsAt hturn
    exact ⟨hoffsets, hbefore, hafter, hshift⟩

/-- A change close to a day says all about the offsets around it. -/
theorem Zone.TurnsAt.hasOffsetsAround (h : zone.IsRegular) (hturn : zone.TurnsAt T o₁ o₂)
    (hlow : T - 3 * secondsPerDay ≤ d.midnightSeconds) (hhigh : d.midnightSeconds ≤ T + 3 * secondsPerDay) :
    zone.HasOffsetsAround d T o₁ o₂ := by
  have hday : secondsPerDay = 86400 := rfl
  obtain ⟨hbefore, hafter, hshift⟩ := h.turnsAt hturn
  exact ⟨(hturn.hasOffsets h).1.mono (by omega) (by omega), hbefore, hafter, hshift⟩

/-- The time around a change close to a day lies on the calendar. -/
theorem Zone.TurnsAt.onCalendar (h : zone.IsRegular) (hturn : zone.TurnsAt T o₁ o₂)
    (hlow : T - 3 * secondsPerDay ≤ d.midnightSeconds) :
    3 * secondsPerDay ≤ T ∧ (T + 4 * secondsPerDay) * microsPerSecond ≤ calendarMicros := by
  obtain ⟨-, year, hyear, hstart, hend⟩ := hturn.hasOffsets h
  have hlast := d.dayNumber_lt
  have hpos := startOf_nonneg year
  have htenthousand : startOf 10000 = calendarDays * secondsPerDay := by decide
  have hsmall : year < 10000 := by
    rcases Nat.lt_or_ge year 10000 with hsmall | hbig
    · exact hsmall
    · have := startOf_mono hbig
      simp only [Date.midnightSeconds, secondsPerDay, margin] at *
      omega
  have hmono := startOf_mono (show year + 1 ≤ 10000 from hsmall)
  simp only [calendarMicros, microsPerDay, microsPerSecond, secondsPerDay, margin] at *
  omega

/-- A span is its day, instant by instant, exactly when the day is clear. -/
theorem contains_iff_dateOf? (h : zone.IsRegular) (hspan : DaySpan.ofDay zone d = .ok span) :
    (∀ t : Moment, t.offsetUsable = true → t.instant % 1000 = 0 →
      (span.contains t = .ok true ↔ zone.dateOf? t = some d)) ↔ zone.IsClear d := by
  constructor
  · intro hsame T o₁ o₂ hturn hblurs
    obtain ⟨hbefore, hafter, -⟩ := h.turnsAt hturn
    obtain ⟨hlow, hhigh, s, hs, hs', hnot⟩ := exists_of_blurs hbefore hafter hblurs
    have hoffsets := hturn.hasOffsetsAround h hlow hhigh
    obtain ⟨hfirst, hlast⟩ := hturn.onCalendar h hlow
    let t := Moment.universal (s * microsPerSecond)
    have hinstant : t.instant = s * microsPerSecond := Int.sub_zero _
    have hsecond : t.instant / microsPerSecond = s := by
      rw [hinstant, microsPerSecond]
      omega
    have hon : 0 ≤ t.instant ∧ t.instant < calendarMicros := by
      rw [hinstant]
      simp only [microsPerSecond, secondsPerDay] at *
      omega
    have ht : t.offsetUsable = true := rfl
    have hmilli : t.instant % 1000 = 0 := by
      rw [hinstant, microsPerSecond]
      omega
    have := hsame t ht hmilli
    rw [contains_iff_inSpan h hspan hoffsets ht hmilli, dateOf?_iff_inDay h hoffsets ht, hsecond] at this
    exact hnot (this.trans ⟨fun hall => hall.2.2, fun hin => ⟨hon.1, hon.2, hin⟩⟩)
  · intro hclear t ht hmilli
    obtain ⟨T, o₁, o₂, hoffsets, hturn⟩ := h.hasOffsetsAround d
    have hnot : ¬ Blurs (T + o₁) (T + o₂) d.midnightSeconds := by
      rcases hturn with rfl | hturn
      · unfold Blurs
        omega
      · exact hclear T o₁ o₂ hturn
    have hon : span.contains t = .ok true → 0 ≤ t.instant ∧ t.instant < calendarMicros := fun hin => by
      obtain ⟨-, -, hlow, hhigh⟩ := ofDay_bounds hspan
      have := (contains_iff h hspan ht).1 hin
      omega
    rw [dateOf?_iff_inDay h hoffsets ht, ← inSpan_iff_inDay hnot, ← contains_iff_inSpan h hspan hoffsets ht hmilli]
    exact ⟨fun hin => ⟨(hon hin).1, (hon hin).2, hin⟩, fun hall => hall.2.2⟩

end Clear

/-- The day on which the clock goes forward at two in the morning is its span. -/
theorem contains_iff_dateOf?_two_o_clock :
    let zone : Zone := ⟨⟨"EST", -18000⟩, some ⟨⟨"EDT", -14400⟩, ⟨3, 2, 0, 7200⟩, ⟨11, 1, 0, 7200⟩⟩⟩
    let d : Date := ⟨2024, 3, 10, by decide⟩
    zone.IsRegular ∧ ∃ span, DaySpan.ofDay zone d = .ok span ∧ ∀ t : Moment, t.offsetUsable = true →
      t.instant % 1000 = 0 → (span.contains t = .ok true ↔ zone.dateOf? t = some d) := by
  intro zone d
  have hregular : zone.IsRegular := by decide
  have hok : (DaySpan.ofDay zone d).isOk = true := by decide +kernel
  cases hspan : DaySpan.ofDay zone d with
  | error e =>
    rw [hspan] at hok
    cases hok
  | ok span =>
    exact ⟨hregular, span, rfl, (contains_iff_dateOf? hregular hspan).2 (isClear_of_isWithinDay (by decide) d)⟩

/-- Where clocks are changed at midnight, a day that starts with an hour that is leapt over has
    the last hour of the day before in its span, and a day whose last hour is repeated lacks
    the repetition. -/
theorem exists_blurred_day :
    let zone : Zone := ⟨⟨"-03", -10800⟩, some ⟨⟨"-02", -7200⟩, ⟨10, 3, 0, 0⟩, ⟨2, 3, 0, 0⟩⟩⟩
    let saturday : Date := ⟨2024, 10, 19, by decide⟩
    let sunday : Date := ⟨2024, 10, 20, by decide⟩
    let late : Moment := ⟨WallTime.on saturday { hour := 23, minute := 30 }, -10800 * microsPerSecond, ""⟩
    let february : Date := ⟨2025, 2, 15, by decide⟩
    let repeated : Moment := ⟨WallTime.on february { hour := 23, minute := 30 }, -10800 * microsPerSecond, ""⟩
    Zone.read? "<-03>3<-02>,M10.3.0/0,M2.3.0/0" = some zone ∧
      late.instant % 1000 = 0 ∧ repeated.instant % 1000 = 0 ∧
      (do (← DaySpan.ofDay zone sunday).contains late) = .ok true ∧ zone.dateOf? late = some saturday ∧
      (do (← DaySpan.ofDay zone february).contains repeated) = .ok false ∧ zone.dateOf? repeated = some february := by
  dsimp only
  decide +kernel

end SearchBox.Calendar

import SearchBox.Proofs.Calendar.Moment

/-!
  SearchBox.Proofs.Calendar.LocalMoment — which wall times have an instant. The search for it looks
  at the day before and at the two clocks that may show the time, and all of them have to be on
  the calendar: a regular zone has an instant for every wall time but those of the calendar's
  first day and those closer to its end than the offset in use there (`exists_localMoment?_iff`).
-/

namespace SearchBox.Calendar

def calendarSeconds : Int :=
  calendarDays * secondsPerDay

namespace Zone

variable {zone : Zone}

theorem wallYear_bounds {s : Int} :
    1 ≤ wallYear s ∧ wallYear s ≤ greatestYear ↔ 0 ≤ s ∧ s < calendarSeconds := by
  unfold wallYear
  split
  · omega
  · have hpos := Date.yearOfNumber_pos (s / secondsPerDay).toNat
    have hle := Date.yearOfNumber_le_iff (n := (s / secondsPerDay).toNat)
    have hday : (s / secondsPerDay).toNat < calendarDays ↔ s < calendarSeconds := by
      simp only [calendarSeconds, secondsPerDay, calendarDays] at *
      omega
    rw [hday] at hle
    rw [← hle]
    omega

theorem wallSeconds?_eq_ok_iff {s w : Int} :
    zone.wallSeconds? s = .ok w ↔ w = s + zone.offsetAt s ∧ 0 ≤ w ∧ w < calendarSeconds := by
  unfold wallSeconds?
  dsimp only
  split
  · rename_i h
    rw [wallYear_bounds] at h
    rw [Except.ok.injEq, eq_comm]
    exact ⟨fun e => ⟨e, e ▸ h⟩, fun e => e.1⟩
  · rename_i h
    rw [wallYear_bounds] at h
    exact ⟨nofun, fun ⟨e, hlow, hhigh⟩ => absurd ⟨e ▸ hlow, e ▸ hhigh⟩ h⟩

/-! ## One offset -/

section Constant

variable {wall o : Int}

/-- Where a zone keeps its offset, the day before and the time taken for an instant have to be
    on the calendar. -/
theorem instantOf?_of_constant (ho : IsUsual o)
    (hconst : ∀ s, wall - 3 * secondsPerDay ≤ s → s ≤ wall + 3 * secondsPerDay → zone.offsetAt s = o) :
    (∃ i, zone.instantOf? wall = .ok i) ↔
      secondsPerDay ≤ wall ∧ wall < calendarSeconds ∧ wall + o < calendarSeconds := by
  obtain ⟨hlow, hhigh⟩ := ho
  have hday : secondsPerDay = 86400 := rfl
  have hwall := hconst wall (by omega) (by omega)
  have hfirst := hconst (wall - o) (by omega) (by omega)
  have hbefore := hconst (wall - o - secondsPerDay) (by omega) (by omega)
  have hcancel : wall + o - wall = o := by omega
  have hshown : wall - o + o = wall := by omega
  have hbefore' : wall - o - secondsPerDay + o - (wall - o - secondsPerDay) = o := by omega
  unfold instantOf?
  constructor
  · rintro ⟨i, hi⟩
    obtain ⟨v, hv, hi⟩ := bind_eq_ok.1 hi
    obtain ⟨rfl, -, hv⟩ := wallSeconds?_eq_ok_iff.1 hv
    rw [hwall] at hi hv
    simp only [hcancel] at hi
    obtain ⟨shown, hs, hi⟩ := bind_eq_ok.1 hi
    obtain ⟨rfl, -, hs⟩ := wallSeconds?_eq_ok_iff.1 hs
    rw [hfirst, hshown] at hi hs
    rw [if_pos rfl] at hi
    obtain ⟨v', hv', hi⟩ := bind_eq_ok.1 hi
    obtain ⟨rfl, hv', -⟩ := wallSeconds?_eq_ok_iff.1 hv'
    rw [hbefore] at hv'
    omega
  · rintro ⟨hfirstDay, hend, hahead⟩
    have h₁ : zone.wallSeconds? wall = .ok (wall + o) := wallSeconds?_eq_ok_iff.2 ⟨by rw [hwall], by omega, hahead⟩
    have h₂ : zone.wallSeconds? (wall - o) = .ok wall :=
      wallSeconds?_eq_ok_iff.2 ⟨by rw [hfirst]; omega, by omega, hend⟩
    have h₃ : zone.wallSeconds? (wall - o - secondsPerDay) = .ok (wall - o - secondsPerDay + o) :=
      wallSeconds?_eq_ok_iff.2 ⟨by rw [hbefore], by omega, by omega⟩
    refine ⟨wall - o, ?_⟩
    simp only [h₁, h₂, h₃, hcancel, hbefore', bind, Except.bind, if_true]
    rfl

theorem localMoment?_of_constant {w : WallTime} (ho : IsUsual o)
    (hconst : ∀ s, w.seconds - 3 * secondsPerDay ≤ s → s ≤ w.seconds + 3 * secondsPerDay → zone.offsetAt s = o) :
    (∃ m, zone.localMoment? w = .ok m) ↔
      secondsPerDay ≤ w.seconds ∧ w.seconds + o < calendarSeconds ∧ w.seconds - o < calendarSeconds := by
  have hday : secondsPerDay = 86400 := rfl
  have hend : calendarMicros = calendarSeconds * 1000000 := rfl
  have hmicros : w.micros / 1000000 = w.seconds := rfl
  have hinstant := instantOf?_of_constant ho hconst
  obtain ⟨hlow, hhigh⟩ := ho
  -- The seconds of the instant are those of the time less the offset.
  have hseconds : (w.addMicros (-(o * microsPerSecond))).seconds = w.seconds - o := by
    simp only [WallTime.seconds, WallTime.addMicros, microsPerSecond]
    omega
  have hof : ∀ {i}, zone.instantOf? w.seconds = .ok i → zone.offsetAt i = o := fun hi => by
    have hi' := instantOf?_eq_ok hi
    have hwall := hconst w.seconds (by omega) (by omega)
    have hfirst := hconst (w.seconds - o) (by omega) (by omega)
    have hbefore := hconst (w.seconds - o - secondsPerDay) (by omega) (by omega)
    simp only [instantOf, hwall, hfirst, hbefore, if_true] at hi'
    rw [hi']
    exact hfirst
  constructor
  · rintro ⟨m, hm⟩
    obtain ⟨i, hi, hm⟩ := bind_eq_ok.1 hm
    obtain ⟨hfirst, hlast, hahead⟩ := hinstant.1 ⟨i, hi⟩
    obtain ⟨hon, -, -⟩ := momentAt?_eq_ok_iff.1 hm
    rw [onCalendar_iff, hof hi] at hon
    simp only [WallTime.addMicros, microsPerSecond] at hon
    omega
  · rintro ⟨hfirst, hahead, hbehind⟩
    obtain ⟨i, hi⟩ := hinstant.2 ⟨hfirst, by omega, hahead⟩
    have hon : (w.addMicros (-(o * microsPerSecond))).onCalendar = true := by
      rw [onCalendar_iff]
      simp only [WallTime.addMicros, microsPerSecond]
      omega
    have hshown : zone.offsetAt (w.addMicros (-(o * microsPerSecond))).seconds = o := by
      rw [hseconds]
      exact hconst _ (by omega) (by omega)
    have hback : ((w.addMicros (-(o * microsPerSecond))).addMicros (o * microsPerSecond)).onCalendar = true := by
      rw [onCalendar_iff]
      simp only [WallTime.addMicros, microsPerSecond]
      omega
    obtain ⟨m, hm⟩ : ∃ m, zone.momentAt? (w.addMicros (-(o * microsPerSecond))) = .ok m :=
      ⟨_, momentAt?_eq_ok_iff.2 ⟨hon, by rwa [hshown], rfl⟩⟩
    exact ⟨m, bind_eq_ok.2 ⟨i, hi, by rwa [hof hi]⟩⟩

end Constant

/-! ## The ends of the calendar -/

section Ends

variable (h : zone.IsRegular)
include h

theorem offsetAt_eq_or_hasSeasons :
    (∀ s, zone.offsetAt s = zone.standard.offset) ∨
      ∃ outer inner first second, zone.HasSeasons outer inner first second := by
  cases hd : zone.daylight with
  | none => exact .inl fun s => by simp [Zone.offsetAt, Zone.periodAt, hd]
  | some d => exact .inr (exists_seasons h hd)

theorem offsetAt_first {s : Int} (hlow : -margin ≤ s) (hhigh : s < margin) : zone.offsetAt s = zone.offsetAt 0 := by
  rcases offsetAt_eq_or_hasSeasons h with hall | ⟨outer, inner, first, second, hs⟩
  · rw [hall, hall]
  · have hstart : startOf 1 = 0 := rfl
    have hmargin : 0 < margin := by decide
    obtain ⟨hfirst, hbetween, hsecond⟩ := hs.within 1 (Nat.le_refl 1)
    have hnear := fun {s : Int} hlow hhigh => hs.offsetAt_near (Nat.le_refl 1) (s := s) hlow hhigh
    rw [hnear (by omega) (by omega), hnear (by omega) (by omega), if_neg (by omega), if_neg (by omega)]

theorem offsetAt_last {s : Int} (hlow : calendarSeconds - margin ≤ s) (hhigh : s < calendarSeconds + margin) :
    zone.offsetAt s = zone.offsetAt calendarSeconds := by
  rcases offsetAt_eq_or_hasSeasons h with hall | ⟨outer, inner, first, second, hs⟩
  · rw [hall, hall]
  · have hend : startOf (9999 + 1) = calendarSeconds := by decide
    have hstart : startOf 9999 < calendarSeconds - margin := by decide
    have hmargin : 0 < margin := by decide
    obtain ⟨hfirst, hbetween, hsecond⟩ := hs.within 9999 (by decide)
    have hnear := fun {s : Int} hlow hhigh => hs.offsetAt_near (show 1 ≤ 9999 by decide) (s := s) hlow hhigh
    rw [hnear (by omega) (by omega), hnear (by omega) (by omega), if_neg (by omega), if_neg (by omega)]

theorem exists_instantOf?_of_inside {wall : Int} (hlow : 4 * secondsPerDay ≤ wall)
    (hhigh : wall + 4 * secondsPerDay ≤ calendarSeconds) : ∃ i, zone.instantOf? wall = .ok i := by
  have hday : secondsPerDay = 86400 := rfl
  have inside : ∀ s, secondsPerDay ≤ s → s + secondsPerDay ≤ calendarSeconds →
      zone.wallSeconds? s = .ok (s + zone.offsetAt s) := fun s hs hs' => by
    obtain ⟨hbehind, hahead⟩ := h.offsetAt s
    exact wallSeconds?_eq_ok_iff.2 ⟨rfl, by omega, by omega⟩
  have cancel : ∀ a b : Int, a + b - a = b := fun a b => by omega
  unfold instantOf?
  obtain ⟨hwall, hwall'⟩ := h.offsetAt wall
  rw [inside wall (by omega) (by omega)]
  simp only [bind, Except.bind, cancel]
  obtain ⟨hfirst, hfirst'⟩ := h.offsetAt (wall - zone.offsetAt wall)
  rw [inside (wall - zone.offsetAt wall) (by omega) (by omega)]
  dsimp only
  split
  · obtain ⟨hbefore, hbefore'⟩ := h.offsetAt (wall - zone.offsetAt wall - secondsPerDay)
    rw [inside (wall - zone.offsetAt wall - secondsPerDay) (by omega) (by omega)]
    simp only [cancel]
    split
    · exact ⟨_, rfl⟩
    · rw [inside (wall - zone.offsetAt (wall - zone.offsetAt wall - secondsPerDay)) (by omega) (by omega)]
      dsimp only
      split
      · exact ⟨_, rfl⟩
      · exact ⟨_, rfl⟩
  · simp only [cancel]
    rw [inside (wall - zone.offsetAt (wall - zone.offsetAt wall)) (by omega) (by omega)]
    dsimp only
    split
    · exact ⟨_, rfl⟩
    · exact ⟨_, rfl⟩

/-- Four days away from the ends of the calendar every wall time has an instant. -/
theorem exists_localMoment?_of_inside {w : WallTime} (hlow : 4 * secondsPerDay ≤ w.seconds)
    (hhigh : w.seconds + 4 * secondsPerDay ≤ calendarSeconds) : ∃ m, zone.localMoment? w = .ok m := by
  have hday : secondsPerDay = 86400 := rfl
  have hend : calendarMicros = calendarSeconds * 1000000 := rfl
  have hmicros : w.micros / 1000000 = w.seconds := rfl
  obtain ⟨i, hi⟩ := exists_instantOf?_of_inside h hlow hhigh
  obtain ⟨hread, hread'⟩ := h.offsetAt i
  obtain ⟨hshown, hshown'⟩ := h.offsetAt (w.addMicros (-(zone.offsetAt i * microsPerSecond))).seconds
  refine ⟨_, bind_eq_ok.2 ⟨i, hi, momentAt?_eq_ok_iff.2 ⟨?_, ?_, rfl⟩⟩⟩
  · rw [onCalendar_iff]
    simp only [WallTime.addMicros, microsPerSecond]
    omega
  · rw [onCalendar_iff]
    generalize zone.offsetAt (w.addMicros (-(zone.offsetAt i * microsPerSecond))).seconds = shown at *
    simp only [WallTime.addMicros, microsPerSecond]
    omega

end Ends

/-- Whether a wall time has an instant in a regular zone: it does not lie on the calendar's first
    day, nor as close to its end as the offset there is long. -/
def Reaches (zone : Zone) (w : WallTime) : Prop :=
  secondsPerDay ≤ w.seconds ∧ w.seconds + (zone.offsetAt calendarSeconds).natAbs < calendarSeconds

instance (zone : Zone) (w : WallTime) : Decidable (zone.Reaches w) :=
  inferInstanceAs (Decidable (_ ∧ _))

theorem exists_localMoment?_iff (h : zone.IsRegular) {w : WallTime} :
    (∃ m, zone.localMoment? w = .ok m) ↔ zone.Reaches w := by
  have hday : secondsPerDay = 86400 := rfl
  have hmargin : margin = 1728000 := rfl
  have hend : calendarSeconds = 315537897600 := rfl
  obtain ⟨hlast, hlast'⟩ := h.offsetAt calendarSeconds
  -- Outside the calendar no clock of the zone shows the time.
  have hshown : (∃ m, zone.localMoment? w = .ok m) →
      -secondsPerDay < w.seconds ∧ w.seconds < calendarSeconds + secondsPerDay := by
    rintro ⟨m, hm⟩
    obtain ⟨i, hi, -⟩ := bind_eq_ok.1 hm
    obtain ⟨v, hv, -⟩ := bind_eq_ok.1 hi
    obtain ⟨rfl, hv⟩ := wallSeconds?_eq_ok_iff.1 hv
    have := h.offsetAt w.seconds
    unfold IsUsual at this
    omega
  unfold Reaches
  rcases Int.lt_or_le w.seconds (4 * secondsPerDay) with hstart | hstart
  · rcases Int.lt_or_le (-secondsPerDay) w.seconds with hnear | hfar
    · rw [localMoment?_of_constant (h.offsetAt 0) fun s hs hs' => offsetAt_first h (by omega) (by omega)]
      have := h.offsetAt 0
      unfold IsUsual at this
      omega
    · exact ⟨fun hm => absurd (hshown hm).1 (Int.not_lt.2 hfar), fun hr => by omega⟩
  rcases Int.lt_or_le calendarSeconds (w.seconds + 4 * secondsPerDay) with hclose | hinside
  · rcases Int.lt_or_le w.seconds (calendarSeconds + secondsPerDay) with hnear | hfar
    · rw [localMoment?_of_constant (h.offsetAt calendarSeconds) fun s hs hs' => offsetAt_last h (by omega) (by omega)]
      omega
    · exact ⟨fun hm => absurd (hshown hm).2 (Int.not_lt.2 hfar), fun hr => by omega⟩
  · exact ⟨fun _ => by omega, fun _ => exists_localMoment?_of_inside h hstart hinside⟩

end Zone

end SearchBox.Calendar

import SearchBox.Calendar.Moment
import SearchBox.Proofs.Calendar.Zone
import SearchBox.Proofs.Fallible

/-!
  SearchBox.Proofs.Calendar.Moment — which of a zone's offsets a wall time is read with. Around
  a change it is the offset before it as long as the clock has not reached the time of the
  change, and the offset after it from there on (`offsetAt_instantOf`): a wall time that
  occurs twice is read the first time, and one that is leapt over with the later offset.
-/

namespace SearchBox.Calendar

def calendarMicros : Int :=
  calendarDays * microsPerDay

theorem onCalendar_iff {w : WallTime} : w.onCalendar = true ↔ 0 ≤ w.micros ∧ w.micros < calendarMicros := by
  simp [WallTime.onCalendar, calendarMicros]

namespace Zone

variable {zone : Zone}

theorem wallSeconds?_eq_ok {s w : Int} (h : zone.wallSeconds? s = .ok w) : w = s + zone.offsetAt s := by
  simp only [wallSeconds?] at h
  split at h
  · cases h
    rfl
  · cases h

/-- The instant of a wall time, years left aside. -/
def instantOf (zone : Zone) (wall : Int) : Int :=
  let first := wall - zone.offsetAt wall
  if zone.offsetAt first = zone.offsetAt wall then
    let second := wall - zone.offsetAt (first - secondsPerDay)
    if zone.offsetAt wall = zone.offsetAt (first - secondsPerDay) then first
    else if zone.offsetAt second = zone.offsetAt (first - secondsPerDay) then second
    else first
  else
    let second := wall - zone.offsetAt first
    if zone.offsetAt second = zone.offsetAt first then second else max first second

theorem instantOf?_eq_ok {wall i : Int} (h : zone.instantOf? wall = .ok i) : i = zone.instantOf wall := by
  have shows : ∀ {s : Int}, s + zone.offsetAt s = wall ↔ zone.offsetAt s = wall - s := fun {s} => by omega
  have cancel : ∀ a b : Int, a + b - a = b := fun a b => by omega
  unfold instantOf? at h
  obtain ⟨v, hv, h⟩ := bind_eq_ok.1 h
  obtain rfl := wallSeconds?_eq_ok hv
  simp only [cancel] at h
  obtain ⟨shown, hshown, h⟩ := bind_eq_ok.1 h
  obtain rfl := wallSeconds?_eq_ok hshown
  simp only [cancel, shows, Int.sub_sub_self] at h
  unfold instantOf
  simp only
  split at h
  · rename_i hfirst
    rw [if_pos hfirst]
    obtain ⟨before, hbefore, h⟩ := bind_eq_ok.1 h
    obtain rfl := wallSeconds?_eq_ok hbefore
    simp only [cancel] at h
    split at h
    · rename_i hsame
      rw [if_pos hsame]
      cases h
      rfl
    · rename_i hother
      rw [if_neg hother]
      obtain ⟨again, hagain, h⟩ := bind_eq_ok.1 h
      obtain rfl := wallSeconds?_eq_ok hagain
      simp only [shows, Int.sub_sub_self] at h
      split at h
      · rename_i hshows
        cases h
        rw [if_pos hshows]
      · rename_i hshows
        cases h
        rw [if_neg hshows]
  · rename_i hfirst
    rw [if_neg hfirst]
    obtain ⟨again, hagain, h⟩ := bind_eq_ok.1 h
    obtain rfl := wallSeconds?_eq_ok hagain
    simp only [shows, Int.sub_sub_self] at h
    split at h
    · rename_i hshows
      cases h
      rw [if_pos hshows]
    · rename_i hshows
      cases h
      rw [if_neg hshows]

/-- Around a change, the instant of a wall time before that of the change is the one before it;
    of the others it is the one after it, unless there is none. -/
theorem instantOf_eq {wall T o₁ o₂ : Int}
    (h : zone.HasOffsets (wall - 3 * secondsPerDay) (wall + 3 * secondsPerDay) T o₁ o₂)
    (ho₁ : IsUsual o₁) (ho₂ : IsUsual o₂)
    (hshift : -secondsPerDay ≤ o₁ - o₂ ∧ o₁ - o₂ ≤ secondsPerDay) :
    zone.instantOf wall = if wall < T + o₁ ∨ wall < T + o₂ then wall - o₁ else wall - o₂ := by
  obtain ⟨hlow₁, hhigh₁⟩ := ho₁
  obtain ⟨hlow₂, hhigh₂⟩ := ho₂
  have hday : secondsPerDay = 86400 := rfl
  have hwall := h wall (by omega) (by omega)
  have hfirst₁ := h (wall - o₁) (by omega) (by omega)
  have hfirst₂ := h (wall - o₂) (by omega) (by omega)
  have hbefore₁ := h (wall - o₁ - secondsPerDay) (by omega) (by omega)
  have hbefore₂ := h (wall - o₂ - secondsPerDay) (by omega) (by omega)
  unfold instantOf
  simp only
  by_cases hsame : o₁ = o₂
  · subst hsame
    simp only [ite_self] at hwall hfirst₁ hbefore₁
    simp [hwall, hfirst₁, hbefore₁]
  by_cases hT : wall < T
  · rw [if_pos hT] at hwall
    rw [hwall]
    by_cases hP : wall - o₁ < T
    · rw [if_pos hP] at hfirst₁
      rw [if_pos (by omega)] at hbefore₁
      rw [hfirst₁, hbefore₁, if_pos rfl, if_pos rfl, if_pos (by omega)]
    · rw [if_neg hP] at hfirst₁
      rw [hfirst₁, if_neg (Ne.symm hsame), hfirst₂]
      split_ifs <;> omega
  · rw [if_neg hT] at hwall
    rw [hwall]
    by_cases hQ : wall - o₂ < T
    · rw [if_pos hQ] at hfirst₂
      rw [hfirst₂, if_neg hsame, hfirst₁]
      split_ifs <;> omega
    · rw [if_neg hQ] at hfirst₂
      rw [hfirst₂, if_pos rfl, hbefore₂]
      split_ifs <;> simp_all <;> omega

/-- Around a change, a wall time before that of the change is read with the offset before it,
    and any other one with the offset after it. -/
theorem offsetAt_instantOf {wall T o₁ o₂ : Int}
    (h : zone.HasOffsets (wall - 3 * secondsPerDay) (wall + 3 * secondsPerDay) T o₁ o₂)
    (ho₁ : IsUsual o₁) (ho₂ : IsUsual o₂)
    (hshift : -secondsPerDay ≤ o₁ - o₂ ∧ o₁ - o₂ ≤ secondsPerDay) :
    zone.offsetAt (zone.instantOf wall) = if wall < T + o₁ then o₁ else o₂ := by
  have hinstant := instantOf_eq h ho₁ ho₂ hshift
  obtain ⟨hlow₁, hhigh₁⟩ := ho₁
  obtain ⟨hlow₂, hhigh₂⟩ := ho₂
  have hday : secondsPerDay = 86400 := rfl
  have hnear : zone.instantOf wall = wall - o₁ ∨ zone.instantOf wall = wall - o₂ := by
    rw [hinstant]
    split_ifs
    · exact .inl rfl
    · exact .inr rfl
  rw [h _ (by omega) (by omega), hinstant]
  split_ifs <;> omega

/-! ## Moments -/

theorem momentAt?_eq_ok_iff {u : WallTime} {m : Moment} :
    zone.momentAt? u = .ok m ↔ u.onCalendar = true ∧
      (u.addMicros (zone.offsetAt u.seconds * microsPerSecond)).onCalendar = true ∧
      m = ⟨u.addMicros (zone.offsetAt u.seconds * microsPerSecond), zone.offsetAt u.seconds * microsPerSecond,
        zone.nameOf (zone.offsetAt u.seconds)⟩ := by
  unfold momentAt?
  simp only
  split
  · rename_i h
    rw [Bool.and_eq_true] at h
    rw [Except.ok.injEq, eq_comm]
    exact ⟨fun e => ⟨h.1, h.2, e⟩, fun e => e.2.2⟩
  · rename_i h
    rw [Bool.and_eq_true] at h
    exact ⟨nofun, fun e => absurd ⟨e.1, e.2.1⟩ h⟩

/-- The instant of a wall time, read with one of the zone's offsets. -/
theorem localMoment?_eq_ok {wall : WallTime} {m : Moment} (h : zone.localMoment? wall = .ok m) :
    m.instant = wall.micros - zone.offsetAt (zone.instantOf wall.seconds) * microsPerSecond ∧
      0 ≤ m.instant ∧ m.instant < calendarMicros ∧ ∃ s, m.offset = zone.offsetAt s * microsPerSecond := by
  obtain ⟨i, hi, h⟩ := bind_eq_ok.1 h
  obtain rfl := instantOf?_eq_ok hi
  obtain ⟨hon, -, rfl⟩ := momentAt?_eq_ok_iff.1 h
  rw [onCalendar_iff] at hon
  simp only [Moment.instant, WallTime.addMicros] at hon ⊢
  refine ⟨by omega, by omega, by omega, _, rfl⟩

end Zone

theorem offsetUsable_of_isUsual {m : Moment} {offset : Int} (h : m.offset = offset * microsPerSecond)
    (ho : IsUsual offset) : m.offsetUsable = true := by
  obtain ⟨hlow, hhigh⟩ := ho
  simp only [Moment.offsetUsable, Bool.and_eq_true, decide_eq_true_eq, h]
  simp only [microsPerDay, microsPerSecond, secondsPerDay] at *
  omega

/-- Moments with usable offsets compare as their instants do. -/
theorem atMost?_eq_ok {a b : Moment} (ha : a.offsetUsable = true) (hb : b.offsetUsable = true) :
    a.atMost? b = .ok (decide (a.instant ≤ b.instant)) := by
  unfold Moment.atMost?
  split
  · rename_i hsame
    have : a.wall.micros ≤ b.wall.micros ↔ a.instant ≤ b.instant := by
      simp only [Moment.instant]
      omega
    simp [this]
  · simp [ha, hb]

/-! ## The date at an instant -/

theorem Date.dayNumber_lt (d : Date) : d.dayNumber < calendarDays := by
  obtain ⟨hyear, hgreatest, hmonth, hmonth', hday, hday'⟩ := d.onCalendar
  have hlt := (number_bounds hyear ⟨hmonth, hmonth'⟩ ⟨hday, hday'⟩).2.2
  have hmono := daysBeforeYear_mono (show d.year + 1 ≤ 10000 from Nat.succ_le_succ hgreatest)
  have hend : daysBeforeYear 10000 = calendarDays := by decide
  rw [dayNumber]
  omega

/-- A wall time shows a date from its midnight up to the next one. -/
theorem date?_eq_some_iff {w : WallTime} {d : Date} :
    w.date? = some d ↔ (d.dayNumber : Int) * microsPerDay ≤ w.micros ∧
      w.micros < (d.dayNumber : Int) * microsPerDay + microsPerDay := by
  have hlt := d.dayNumber_lt
  unfold WallTime.date?
  split
  · rename_i hon
    rw [onCalendar_iff] at hon
    rw [Date.ofNumber?_eq_some_iff]
    simp only [WallTime.dayNumber, microsPerDay] at *
    omega
  · rename_i hoff
    rw [onCalendar_iff] at hoff
    simp only [reduceCtorEq, false_iff]
    simp only [calendarMicros, microsPerDay, calendarDays] at *
    omega

def Zone.dateOf? (zone : Zone) (m : Moment) : Option Date :=
  (zone.relocate? m).toOption.bind (·.wall.date?)

theorem dateOf?_eq_some_iff {zone : Zone} {m : Moment} {d : Date} (hm : m.offsetUsable = true) :
    zone.dateOf? m = some d ↔ 0 ≤ m.instant ∧ m.instant < calendarMicros ∧
      (d.dayNumber : Int) * secondsPerDay ≤ m.instant / microsPerSecond + zone.offsetAt (m.instant / microsPerSecond) ∧
      m.instant / microsPerSecond + zone.offsetAt (m.instant / microsPerSecond) <
        (d.dayNumber : Int) * secondsPerDay + secondsPerDay := by
  have hlt := d.dayNumber_lt
  have hhere : zone.dateOf? m = some d ↔ ∃ here, zone.momentAt? (m.wall.addMicros (-m.offset)) = .ok here ∧
      here.wall.date? = some d := by
    rw [Zone.dateOf?, Zone.relocate?, if_pos hm]
    cases zone.momentAt? (m.wall.addMicros (-m.offset)) <;> simp [Except.toOption]
  have hu : m.wall.addMicros (-m.offset) = ⟨m.instant⟩ := rfl
  rw [hhere, hu]
  constructor
  · rintro ⟨here, hat, hdate⟩
    obtain ⟨hon, -, rfl⟩ := Zone.momentAt?_eq_ok_iff.1 hat
    rw [onCalendar_iff] at hon
    rw [date?_eq_some_iff] at hdate
    simp only [WallTime.addMicros, WallTime.seconds, microsPerDay, microsPerSecond, secondsPerDay] at *
    omega
  · rintro ⟨hlow, hhigh, hfirst, hlast⟩
    have hdate : ((⟨m.instant⟩ : WallTime).addMicros
        (zone.offsetAt (WallTime.seconds ⟨m.instant⟩) * microsPerSecond)).date? = some d := by
      rw [date?_eq_some_iff]
      simp only [WallTime.addMicros, WallTime.seconds, microsPerDay, microsPerSecond, secondsPerDay] at *
      omega
    have hon : ((⟨m.instant⟩ : WallTime).addMicros
        (zone.offsetAt (WallTime.seconds ⟨m.instant⟩) * microsPerSecond)).onCalendar = true := by
      rw [date?_eq_some_iff] at hdate
      rw [onCalendar_iff]
      simp only [calendarMicros, microsPerDay, calendarDays] at *
      omega
    exact ⟨_, Zone.momentAt?_eq_ok_iff.2 ⟨onCalendar_iff.2 ⟨hlow, hhigh⟩, hon, rfl⟩, hdate⟩

end SearchBox.Calendar

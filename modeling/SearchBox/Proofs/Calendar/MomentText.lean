import SearchBox.Calendar.Instant
import SearchBox.Proofs.Calendar.Iso
import SearchBox.Proofs.Calendar.IsoDate
import SearchBox.Proofs.Text.Lines

/-!
  SearchBox.Proofs.Calendar.MomentText — the text of a moment is a date with seconds and an offset
  (`exists_isoDate`). It is read as the moment that was written (`momentOf_text`), in whatever zone
  and on whatever day: wall time and offset come back digit by digit. The name of the zone is not
  written, so that only the name may differ.
-/

namespace SearchBox.Calendar

open SearchBox.Number SearchBox.Text SearchBox.Calendar.Written

/-- An offset of whole minutes is written with its hours and minutes only. -/
theorem Iso.IsMinutes.exists_zoneMark {o : Int} (h : Iso.IsMinutes o) :
    ∃ z : ZoneMark, z.text = Moment.offsetText o ∧ z.seconds? = some (o / microsPerSecond) := by
  obtain ⟨hwhole, hlow, hhigh⟩ := h
  simp only [microsPerDay] at hlow hhigh
  have hhours : o.natAbs / 3600000000 < 100 := by omega
  have hminutes : o.natAbs / 60000000 % 60 < 100 := by omega
  refine ⟨.offset (0 ≤ o) ⟨_, hhours⟩ ⟨_, hminutes⟩, ?_, ?_⟩
  · have hsign : ZoneMark.sign (0 ≤ o) = if o < 0 then '-' else '+' := by
      by_cases hneg : o < 0
      · simp [ZoneMark.sign, hneg, Int.not_le.2 hneg]
      · simp [ZoneMark.sign, hneg, Int.not_lt.1 hneg]
    rw [Iso.offsetText_of_isMinutes ⟨hwhole, hlow, hhigh⟩, ZoneMark.text, hsign]
  · simp only [ZoneMark.seconds?, microsPerSecond, decide_eq_true_eq, Option.some.injEq]
    split <;> omega

/-- A time of day is written with six more digits if they are not all zero, like a clock of the
    fineness that shows them. -/
theorem TimeOfDay.exists_isoClock {t : TimeOfDay} (ht : t.isValid = true) (z : ZoneMark) :
    ∃ c : IsoClock, c.text = 'T' :: (t.text ++ z.text) ∧ c.shown = t ∧ c.zone = z := by
  by_cases hmicro : t.micro = 0
  · refine ⟨⟨true, t, ht, .seconds, z⟩, ?_, ?_, rfl⟩
    · simp [IsoClock.text, IsoClock.letter, IsoClock.secondsText, TimeOfDay.text, hmicro]
    · rw [IsoClock.shown, ← hmicro]
  · refine ⟨⟨true, t, ht, .micros, z⟩, ?_, rfl, rfl⟩
    simp [IsoClock.text, IsoClock.letter, IsoClock.secondsText, TimeOfDay.text, hmicro]

/-- A moment has a text only if its offset can be computed with. -/
theorem Moment.isWritable_of_text? {m : Moment} {s : List Char} (hs : m.text? = .ok s) (hwall : m.wall.onCalendar = true)
    (hwhole : m.offset % 60000000 = 0) : m.IsWritable := by
  have husable : m.offsetUsable = true := by
    by_contra hnot
    rw [Moment.text?, if_neg hnot] at hs
    cases hs
  simp only [Moment.offsetUsable, Bool.and_eq_true, decide_eq_true_eq] at husable
  exact ⟨hwall, hwhole, husable.1, husable.2⟩

/-- The text of a moment as a date and what is written after it. -/
theorem Moment.IsWritable.exists_isoDate {m : Moment} (h : m.IsWritable) :
    ∃ f : IsoDate, m.text? = .ok f.text ∧ f.wall = m.wall ∧ f.seconds? = some (m.offset / microsPerSecond) := by
  obtain ⟨d, hd⟩ := WallTime.exists_date? h.wall
  obtain ⟨z, hoffset, hseconds⟩ := h.offset.exists_zoneMark
  obtain ⟨c, htext, hshown, rfl⟩ := TimeOfDay.exists_isoClock m.wall.timeOfDay_isValid z
  refine ⟨⟨d, some c⟩, ?_, ?_, hseconds⟩
  · rw [Moment.text?, if_pos h.offsetUsable, IsoDate.text, Option.elim_some, htext, hoffset, WallTime.text, WallTime.dateText,
      hd, List.append_assoc, List.cons_append]
  · rw [IsoDate.wall, Option.elim_some, hshown, WallTime.on_timeOfDay hd]

theorem momentOf_of_read {clock : Clock} {today : Date} (htoday : clock.today? = some today) {s : List Char}
    (hs : isBlankText s = false) {t : Timestamp} (hread : Written.read clock today s = .ok t) :
    momentOf clock (.text (String.ofList s)) = some <$> momentOfTime clock.zone t := by
  rw [momentOf, String.toList_ofList, if_neg (by simp [hs]), htoday]
  dsimp only
  rw [hread]

/-- The text of a moment gives the moment, whatever the day is on which it is read. -/
theorem momentOf_text {clock : Clock} (h : clock.zone.KeepsUniversalName) {today : Date} (htoday : clock.today? = some today)
    {m : Moment} (hm : m.IsWritable) {s : List Char} (hs : m.text? = .ok s) :
    ∃ label, momentOf clock (.text (String.ofList s)) = .ok (some { m with label := label }) := by
  obtain ⟨f, htext, hwall, hseconds⟩ := hm.exists_isoDate
  cases hs.symm.trans htext
  have hoffset : m.offset / microsPerSecond * microsPerSecond = m.offset := by
    have hwhole := hm.offset.whole
    simp only [microsPerSecond]
    omega
  have hread := read_isoDate h today f
  simp only [IsoDate.timestamp, hseconds, hwall, hoffset] at hread
  exact ⟨_, momentOf_of_read htoday f.isSolid_text.isEdged.isBlankText hread⟩

end SearchBox.Calendar

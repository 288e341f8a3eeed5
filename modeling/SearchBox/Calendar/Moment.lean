import SearchBox.Calendar.Zone

/-!
  SearchBox.Calendar.Moment — instants with the wall time and offset they are written in, and
  the two ways between wall times and instants of a zone.

  A wall time that occurs twice is taken as the earlier of its two instants. A wall time that
  a change of offset leaps over is read with the offset in use after the change, and the
  instant found that way has a wall time of its own.

  An offset of a day or more can be written down but not computed with: such a moment has no
  text and compares only with moments of the very same offset.
-/

namespace SearchBox.Calendar

open SearchBox.Number

inductive CalendarError where
  | yearOutside (year : Int)
  | dateOutside
  | offsetOutside
  | daysOutside (days : Int)
  | daysTooLarge
  deriving DecidableEq, Repr

def CalendarError.message : CalendarError → String
  | yearOutside year => "year " ++ String.ofList (integerText year) ++ " is out of range"
  | dateOutside => "date value out of range"
  | offsetOutside =>
    "offset must be a timedelta strictly between -timedelta(hours=24) and timedelta(hours=24)."
  | daysOutside days =>
    "days=" ++ String.ofList (integerText days) ++ "; must have magnitude <= 999999999"
  | daysTooLarge => "Python int too large to convert to C int"

structure Moment where
  wall : WallTime
  /-- The microseconds that the wall time is ahead of universal time. -/
  offset : Int
  /-- The zone name written beside the offset. -/
  label : String := ""
  deriving DecidableEq, Repr

namespace Moment

/-- The microseconds from the calendar's start in universal time. -/
def instant (m : Moment) : Int :=
  m.wall.micros - m.offset

/-- Less than a day ahead or behind. -/
def offsetUsable (m : Moment) : Bool :=
  -microsPerDay < m.offset && m.offset < microsPerDay

def universal (micros : Int) : Moment :=
  ⟨⟨micros⟩, 0, ""⟩

def atMost? (a b : Moment) : Except CalendarError Bool :=
  if a.offset = b.offset ∧ a.label = b.label then .ok (a.wall.micros ≤ b.wall.micros)
  else if a.offsetUsable && b.offsetUsable then .ok (a.instant ≤ b.instant)
  else .error .offsetOutside

/-- An offset as `+05:30`, with seconds and their parts where there are any. -/
def offsetText (offset : Int) : List Char :=
  let n := offset.natAbs
  let s := n / 1000000
  (if offset < 0 then '-' else '+') :: paddedDigits (s / 3600) 2 ++ ':' ::
    paddedDigits (s / 60 % 60) 2 ++
    (if n % 60000000 = 0 then [] else ':' :: paddedDigits (s % 60) 2) ++
    (if n % 1000000 = 0 then [] else '.' :: paddedDigits (n % 1000000) 6)

/-- The text of a moment, `2024-06-15T12:00:00+00:00`. -/
def text? (m : Moment) : Except CalendarError (List Char) :=
  if m.offsetUsable then .ok (m.wall.text 'T' ++ offsetText m.offset) else .error .offsetOutside

/-- The text of a moment with exactly three digits of the second. -/
def milliText? (m : Moment) : Except CalendarError (List Char) :=
  if m.offsetUsable then .ok (m.wall.milliText ++ offsetText m.offset) else .error .offsetOutside

end Moment

namespace Zone

/-- The year of a count of seconds, 0 for all before the calendar starts. -/
def wallYear (seconds : Int) : Int :=
  if seconds < 0 then 0 else Date.yearOfNumber (seconds / secondsPerDay).toNat

/-- The wall clock's seconds at an instant. Their year has to be on the calendar. -/
def wallSeconds? (zone : Zone) (seconds : Int) : Except CalendarError Int :=
  let wall := seconds + zone.offsetAt seconds
  let year := wallYear wall
  if 1 ≤ year ∧ year ≤ greatestYear then .ok wall else .error (.yearOutside year)

/-- The instant at which the wall clock shows `wall` seconds, the earlier of two. In a gap no
    clock shows them; the answer is then an instant after the gap. -/
def instantOf? (zone : Zone) (wall : Int) : Except CalendarError Int := do
  let a := (← zone.wallSeconds? wall) - wall
  let first := wall - a
  let shown ← zone.wallSeconds? first
  if shown = wall then
    let dayBefore := first - secondsPerDay
    let b := (← zone.wallSeconds? dayBefore) - dayBefore
    if a = b then return first
    let second := wall - b
    if (← zone.wallSeconds? second) = wall then return second
    return first
  else
    let second := wall - (shown - first)
    if (← zone.wallSeconds? second) = wall then return second
    return max first second

def momentAt? (zone : Zone) (universal : WallTime) : Except CalendarError Moment :=
  let offset := zone.offsetAt universal.seconds * microsPerSecond
  let wall := universal.addMicros offset
  if universal.onCalendar && wall.onCalendar then .ok ⟨wall, offset, zone.nameOf (zone.offsetAt universal.seconds)⟩
  else .error .dateOutside

def localMoment? (zone : Zone) (wall : WallTime) : Except CalendarError Moment := do
  let instant ← zone.instantOf? wall.seconds
  zone.momentAt? (wall.addMicros (-(zone.offsetAt instant * microsPerSecond)))

/-- The same instant in the zone's own wall time. -/
def relocate? (zone : Zone) (m : Moment) : Except CalendarError Moment :=
  if m.offsetUsable then zone.momentAt? (m.wall.addMicros (-m.offset)) else .error .offsetOutside

def midnight? (zone : Zone) (day : Date) : Except CalendarError Moment :=
  zone.localMoment? (WallTime.midnight day)

end Zone

structure Clock where
  now : Moment
  zone : Zone
  deriving DecidableEq, Repr

namespace Clock

def wallNow (clock : Clock) : WallTime :=
  let universal := clock.now.wall.addMicros (-clock.now.offset)
  universal.addMicros (clock.zone.offsetAt universal.seconds * microsPerSecond)

def today? (clock : Clock) : Option Date :=
  clock.wallNow.date?

end Clock
end SearchBox.Calendar

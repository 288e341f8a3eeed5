import SearchBox.Calendar.Written

/-!
  SearchBox.Calendar.DaySpan — one calendar day of a zone as a span of instants, from local
  midnight to the last millisecond before the next day, both ends belonging to it.
-/

namespace SearchBox.Calendar

structure DaySpan where
  first : Moment
  last : Moment
  deriving DecidableEq, Repr

namespace DaySpan

/-- The last millisecond of a day. -/
def lastTime : TimeOfDay :=
  { hour := 23, minute := 59, second := 59, micro := 999000 }

/-- The span of a day, if both its ends are on the calendar. -/
def ofDay (zone : Zone) (day : Date) : Except CalendarError DaySpan := do
  let first ← zone.midnight? day
  let last ← zone.localMoment? (WallTime.on day lastTime)
  return ⟨first, last⟩

def contains (span : DaySpan) (m : Moment) : Except CalendarError Bool := do
  if ← span.first.atMost? m then m.atMost? span.last else return false

/-- The span of the day that a text gives, parts that are not written being those of `today`.
    Time and offset in the text count for nothing. A text that is no date has no span. -/
def ofText? (clock : Clock) (today : Date) (s : List Char) :
    Except Written.WrittenError (Option DaySpan) :=
  match Written.read clock today s with
  | .error .unreadable => .ok none
  | .error .numberTooLong => .error .numberTooLong
  | .ok t =>
    let wall :=
      match t with
      | .floating w => w
      | .fixed m => m.wall
    match wall.date? with
    | none => .ok none
    | some day => .ok (ofDay clock.zone day).toOption

end DaySpan
end SearchBox.Calendar

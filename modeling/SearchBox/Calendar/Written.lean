import SearchBox.Calendar.Written.Read
import SearchBox.Calendar.Moment
import SearchBox.Value

/-!
  SearchBox.Calendar.Written — dates as people write them, `15 June 2024 10am` or
  `2024-06-15T10:00Z`, read as a time. Parts that are not written are those of a given day at
  midnight; a day that the month does not have is then moved to its last day, and a weekday
  without a day moves forward to that weekday.
-/

namespace SearchBox.Calendar.Written

open SearchBox.Text

namespace Draft

def date (d : Draft) (currentYear : Nat) (fallback : Date) : Except WrittenError Date := do
  let (year, month, day) ← d.parts
  let year := year.map fun n => if d.fullYear then n else withCentury currentYear n
  let y := year.getD fallback.year
  let m := month.getD fallback.month
  let last := monthLength y m
  match Date.of? y m (day.getD (min fallback.day last)) with
  | none => throw .unreadable
  | some date =>
    match d.weekday, day with
    | some w, none =>
      match Date.ofNumber? (date.dayNumber + (7 + w - Date.weekday date.dayNumber) % 7) with
      | some moved => return moved
      | none => throw .unreadable
    | _, _ => return date

/-- The time of day of a draft, midnight where nothing is written. -/
def timeOfDay (d : Draft) : Except WrittenError TimeOfDay :=
  let t : TimeOfDay :=
    { hour := d.hour.getD 0, minute := d.minute.getD 0, second := d.second.getD 0, micro := d.micro.getD 0 }
  if t.isValid then .ok t else .error .unreadable

end Draft

inductive WrittenZone where
  | none
  | universal
  | local (name : String)
  | offset (seconds : Int) (label : String)

/-- The zone that a name and an offset stand for. Names that are not known count for nothing. -/
def zoneOf (zone : Zone) (d : Draft) : WrittenZone :=
  let zeroOffset := d.offset = some 0 && d.zoneName.isNone
  let isZ := d.zoneName = some ['Z'] || d.zoneName = some ['z']
  let (name, offset) : Option Token × Option Int :=
    if zeroOffset || isZ then (some "UTC".toList, some 0)
    else if (d.zoneName.map isUniversalWord).getD false then (d.zoneName, some 0)
    else (d.zoneName, d.offset)
  match name.map String.ofList, offset with
  | some n, offset =>
    if zone.names.contains n then .local n
    else
      match offset with
      | some 0 => .universal
      | some seconds => .offset seconds n
      | none => .none
  | none, some 0 => .universal
  | none, some seconds => .offset seconds ""
  | none, none => .none

/-- Whether the wall clock is taken to be in daylight-saving time, its seconds read with the
    standard offset. -/
def wallInDaylight (zone : Zone) (w : WallTime) : Bool :=
  zone.inDaylight (w.seconds - zone.standard.offset)

/-- Whether a wall time counts as daylight-saving time; one that occurs twice does in its
    earlier reading. The hour before it has to be on the calendar to tell. -/
def countsAsDaylight (zone : Zone) (w : WallTime) (earlier : Bool) : Except WrittenError Bool :=
  let saved := (zone.daylightOffset - zone.standard.offset) * microsPerSecond
  if saved = 0 then .ok false
  else if wallInDaylight zone w then .ok true
  else
    let before := w.addMicros (-saved)
    if before.onCalendar then .ok (wallInDaylight zone before && earlier) else .error .unreadable

/-- A wall time in the zone's period of the given name where that is possible. -/
def localTime (zone : Zone) (w : WallTime) (name : String) : Except WrittenError Moment := do
  let nameFor (daylight : Bool) : String :=
    match daylight, zone.daylight with
    | true, some d => d.period.name
    | _, _ => zone.standard.name
  let first ← countsAsDaylight zone w true
  let second ← countsAsDaylight zone w false
  let daylight := if nameFor first ≠ name ∧ nameFor second = name then second else first
  let offset := if daylight then zone.daylightOffset else zone.standard.offset
  if nameFor daylight ≠ name ∧ isUniversalName name.toList then return ⟨w, 0, ""⟩
  return ⟨w, offset * microsPerSecond, nameFor daylight⟩

/-- The longest offset that can be written, in seconds. -/
def longestOffset : Int := 999999999 * 86400

def read (clock : Clock) (fallback : Date) (s : List Char) : Except WrittenError Timestamp := do
  let currentYear := Date.yearOfNumber clock.wallNow.dayNumber.toNat
  let d ← draftOf currentYear s
  if d.isEmpty then throw .unreadable
  let date ← d.date currentYear fallback
  let w := WallTime.on date (← d.timeOfDay)
  match zoneOf clock.zone d with
  | .none => return .floating w
  | .universal => return .fixed ⟨w, 0, ""⟩
  | .local name => return .fixed (← localTime clock.zone w name)
  | .offset seconds label =>
    if seconds.natAbs ≤ longestOffset then return .fixed ⟨w, seconds * microsPerSecond, label⟩
    throw .unreadable

end SearchBox.Calendar.Written

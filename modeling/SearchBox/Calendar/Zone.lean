import SearchBox.Calendar.WallTime

/-!
  SearchBox.Calendar.Zone — time zones given by a rule for all years: a standard offset and,
  where there is daylight-saving time, a second offset with the two changes between them. A
  change is named by month, week and weekday and happens at a time of the wall clock in use
  before it. The rule is read from its usual one-line form, `EST5EDT,M3.2.0,M11.1.0`.

  Times here are whole seconds since the start of the calendar.
-/

namespace SearchBox.Calendar

open SearchBox.Number

/-- A name and an offset, the seconds that local time is ahead of universal time. -/
structure Period where
  name : String
  offset : Int
  deriving DecidableEq, Repr

/-- The `week`-th `weekday` (Sunday is zero) of a month, the last one if `week` is 5, at
    `time` seconds after midnight. -/
structure Change where
  month : Nat
  week : Nat
  weekday : Nat
  time : Int
  deriving DecidableEq, Repr

structure Daylight where
  period : Period
  start : Change
  finish : Change
  deriving DecidableEq, Repr

structure Zone where
  standard : Period
  daylight : Option Daylight
  deriving DecidableEq, Repr

def Zone.utc : Zone :=
  { standard := ⟨"UTC", 0⟩, daylight := none }

namespace Change

def day (c : Change) (year : Nat) : Nat :=
  let first := (Date.weekday (Date.number year c.month 1) + 1) % 7
  let earliest := (c.weekday + 7 - first) % 7 + 1
  let wanted := earliest + 7 * (c.week - 1)
  if wanted ≤ monthLength year c.month then wanted
  else if wanted ≤ monthLength year c.month + 7 then wanted - 7
  else wanted - 14

def wallSeconds (c : Change) (year : Nat) : Int :=
  (Date.number year c.month (c.day year) : Int) * secondsPerDay + c.time

end Change

namespace Zone

/-- The year in universal time. Before the calendar years are all counted as its first. -/
def yearOf (seconds : Int) : Nat :=
  Date.yearOfNumber (seconds / secondsPerDay).toNat

/-- Whether daylight-saving time is in use at an instant. In the south the daylight period runs
    over the turn of the year. -/
def inDaylight (zone : Zone) (seconds : Int) : Bool :=
  match zone.daylight with
  | none => false
  | some d =>
    let year := yearOf seconds
    let start := d.start.wallSeconds year - zone.standard.offset
    let finish := d.finish.wallSeconds year - d.period.offset
    if start < finish then start ≤ seconds && seconds < finish
    else seconds < finish || start ≤ seconds

def periodAt (zone : Zone) (seconds : Int) : Period :=
  match zone.daylight with
  | some d => if zone.inDaylight seconds then d.period else zone.standard
  | none => zone.standard

def offsetAt (zone : Zone) (seconds : Int) : Int :=
  (zone.periodAt seconds).offset

/-- The daylight period's offset, the standard one where there is none. -/
def daylightOffset (zone : Zone) : Int :=
  match zone.daylight with
  | some d => d.period.offset
  | none => zone.standard.offset

def nameOf (zone : Zone) (offset : Int) : String :=
  match zone.daylight with
  | some d => if offset = d.period.offset then d.period.name else zone.standard.name
  | none => zone.standard.name

/-- Both names, standard first. -/
def names (zone : Zone) : List String :=
  match zone.daylight with
  | some d => [zone.standard.name, d.period.name]
  | none => [zone.standard.name]

/-! ## Reading the one-line form -/

/-- A period's name: letters, or any characters between angle brackets. -/
def readName (s : List Char) : String × List Char :=
  match s with
  | '<' :: rest => (String.ofList (rest.takeWhile (· ≠ '>')), (rest.dropWhile (· ≠ '>')).drop 1)
  | _ => (String.ofList (s.takeWhile Char.isAlpha), s.dropWhile Char.isAlpha)

def readNat (s : List Char) : Nat × List Char :=
  (ofDigits 10 ((s.takeWhile Char.isDigit).map fun c => c.toNat - 48), s.dropWhile Char.isDigit)

/-- Hours with minutes and seconds after colons, as seconds. -/
def readClock (s : List Char) : Int × List Char :=
  let (negative, s) := signOf s
  let (hours, s) := readNat s
  let (minutes, s) :=
    match s with
    | ':' :: rest => readNat rest
    | _ => (0, s)
  let (seconds, s) :=
    match s with
    | ':' :: rest => readNat rest
    | _ => (0, s)
  (signed negative (hours * 3600 + minutes * 60 + seconds), s)

/-- A change such as `M10.3.0/0`. Without a time it happens at two o'clock. -/
def readChange? (s : List Char) : Option (Change × List Char) :=
  match s with
  | ',' :: 'M' :: rest =>
    let (month, rest) := readNat rest
    let (week, rest) := readNat (rest.drop 1)
    let (weekday, rest) := readNat (rest.drop 1)
    let (time, rest) :=
      match rest with
      | '/' :: after => readClock after
      | _ => (7200, rest)
    some (⟨month, week, weekday, time⟩, rest)
  | _ => none

/-- Reads a zone. Offsets are written the other way round, as what has to be added to local
    time; daylight-saving time is an hour ahead unless its offset is written. -/
def read? (text : String) : Option Zone :=
  let (name, rest) := readName text.toList
  let (behind, rest) := readClock rest
  let standard : Period := ⟨name, -behind⟩
  if rest.isEmpty then some ⟨standard, none⟩
  else
    let (daylightName, rest) := readName rest
    let (daylightBehind, rest) :=
      match rest with
      | ',' :: _ => (behind - 3600, rest)
      | _ => readClock rest
    match readChange? rest with
    | none => none
    | some (start, rest) =>
      (readChange? rest).map fun (finish, _) =>
        ⟨standard, some ⟨⟨daylightName, -daylightBehind⟩, start, finish⟩⟩

end Zone
end SearchBox.Calendar

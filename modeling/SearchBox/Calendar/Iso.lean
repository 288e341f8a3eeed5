import SearchBox.Value

/-!
  SearchBox.Calendar.Iso — times in the ISO 8601 forms: a year, month, day, week or ordinal
  date, one character, and a time of day with an optional offset. Numbers are read with their
  sign and white space, as long as they fit the places they have.
-/

namespace SearchBox.Calendar.Iso

open SearchBox.Number

inductive IsoError where
  | unreadable
  | dateOutside
  deriving DecidableEq, Repr

/-- An integer in a fixed number of places. -/
def integer? (s : List Char) : Except IsoError Int :=
  if s.any fun c => 28 ≤ c.toNat ∧ c.toNat < 32 then .error .unreadable
  else
    match readInteger? s with
    | some n => .ok n
    | none => .error .unreadable

def dateOf (year month day : Int) : Except IsoError Date :=
  if year < 0 ∨ month < 0 ∨ day < 0 then .error .unreadable
  else
    match Date.of? year.toNat month.toNat day.toNat with
    | some d => .ok d
    | none => .error .unreadable

def dateNumbered (n : Int) : Except IsoError Date :=
  match if n < 0 then none else Date.ofNumber? n.toNat with
  | some d => .ok d
  | none => .error .dateOutside

/-- Year, month and day as written, and the rest of the text. -/
abbrev Parts := (Int × Int × Int) × List Char

/-- A calendar date: a year alone, a year and a month with a hyphen, or all three parts with
    or without hyphens. -/
def calendarParts (s : List Char) : Except IsoError Parts := do
  if s.length < 4 then throw .unreadable
  let year ← integer? (s.take 4)
  match s.drop 4 with
  | [] => return ((year, 1, 1), [])
  | '-' :: rest =>
    if rest.length < 2 then throw .unreadable
    let month ← integer? (rest.take 2)
    match rest.drop 2 with
    | [] => return ((year, month, 1), [])
    | '-' :: rest =>
      if rest.length < 2 then throw .unreadable
      return ((year, month, ← integer? (rest.take 2)), rest.drop 2)
    | _ => throw .unreadable
  | rest =>
    if rest.length < 4 then throw .unreadable
    let month ← integer? (rest.take 2)
    return ((year, month, ← integer? ((rest.drop 2).take 2)), rest.drop 4)

/-- The date of a weekday of a numbered week. The first week of a year has its fourth of
    January. -/
def weekDate (year week day : Int) : Except IsoError Date := do
  if week < 1 ∨ 53 < week ∨ day < 1 ∨ 7 < day then throw .unreadable
  let fourth ← dateOf year 1 4
  let monday : Int := fourth.dayNumber - Date.weekday fourth.dayNumber
  dateNumbered (monday + (week - 1) * 7 + (day - 1))

/-- A week date or an ordinal date, and the rest of the text. -/
def otherDate (s : List Char) : Except IsoError (Date × List Char) := do
  if s.length < 4 then throw .unreadable
  let year ← integer? (s.take 4)
  let hyphen := (s.drop 4).head? = some '-'
  let rest := (s.drop 4).drop (if hyphen then 1 else 0)
  match rest with
  | 'W' :: rest =>
    let week ← integer? (rest.take 2)
    match rest.drop 2 with
    | [] => return (← weekDate year week 1, [])
    | c :: more =>
      if (c = '-') != hyphen then throw .unreadable
      let more := if hyphen then more else c :: more
      let day ← integer? (more.take 1)
      return (← weekDate year week day, more.drop 1)
  | _ =>
    if rest.length < 3 then throw .unreadable
    let ordinal ← integer? (rest.take 3)
    let first ← dateOf year 1 1
    if ordinal < 1 ∨ (if isLeapYear first.year then 366 else 365) < ordinal then throw .unreadable
    return (← dateNumbered (first.dayNumber + (ordinal - 1)), rest.drop 3)

/-- An offset in seconds: `Z`, or a sign with hours and perhaps minutes. -/
def offset (s : List Char) : Except IsoError Int := do
  if s = ['Z'] ∨ s = ['z'] then return 0
  if s.length ≠ 3 ∧ s.length ≠ 5 ∧ s.length ≠ 6 then throw .unreadable
  let sign : Int ← match s.head? with
    | some '-' => pure (-1)
    | some '+' => pure 1
    | _ => throw .unreadable
  let hours ← integer? ((s.drop 1).take 2)
  let minutes ←
    match s.drop 3 with
    | [] => pure 0
    | ':' :: rest => integer? rest
    | rest => integer? rest
  if hours = 0 ∧ minutes = 0 then return 0
  if 59 < minutes ∨ 23 < hours then throw .unreadable
  return sign * (hours * 60 + minutes) * 60

structure ClockParts where
  hour : Int := 0
  minute : Int := 0
  second : Int := 0
  micro : Int := 0
  offset : Option Int := none

def isOffsetStart (c : Char) : Bool :=
  c = '-' || c = '+' || c = 'Z' || c = 'z'

/-- A point or comma with digits after it, as microseconds, and the rest of the text. -/
def fraction? (s : List Char) : Option (Int × List Char) :=
  match s with
  | c :: rest =>
    let digits := rest.takeWhile Char.isDigit
    if (c = '.' || c = ',') && !digits.isEmpty then
      let kept := digits.take 6
      some ((ofDigits 10 (kept.map fun d => d.toNat - 48) * tenTo (6 - kept.length) : Nat),
        rest.drop digits.length)
    else none
  | [] => none

/-- What may follow the seconds: a fraction, and then an offset. -/
def clockTail (p : ClockParts) (s : List Char) : Except IsoError ClockParts := do
  let (p, rest) :=
    match s.head?.map isOffsetStart, fraction? s with
    | some false, some (micro, rest) => ({ p with micro := micro }, rest)
    | _, _ => (p, s)
  match rest with
  | [] => return p
  | c :: _ =>
    if isOffsetStart c then return { p with offset := some (← offset rest) }
    throw .unreadable

/-- A time of day, from hours alone to fractions of a second. -/
def clockParts (s : List Char) : Except IsoError ClockParts := do
  if s.length < 2 then throw .unreadable
  let offsetNext (s : List Char) : Bool := (s.head?.map isOffsetStart).getD true
  if offsetNext s then return ← clockTail {} s
  let p : ClockParts := { hour := ← integer? (s.take 2) }
  let s := s.drop 2
  if offsetNext s then return ← clockTail p s
  let colon := s.head? = some ':'
  let s := s.drop (if colon then 1 else 0)
  let p := { p with minute := ← integer? (s.take 2) }
  let s := s.drop 2
  if offsetNext s then return ← clockTail p s
  if colon ∧ s.head? ≠ some ':' then throw .unreadable
  let s := s.drop (if colon then 1 else 0)
  let p := { p with second := ← integer? (s.take 2) }
  clockTail p (s.drop 2)

/-- A time of day, and whether it is the midnight at the end of the day. -/
def timeOfDay (p : ClockParts) : Except IsoError (TimeOfDay × Bool) :=
  if p.hour = 24 then
    if p.minute = 0 ∧ p.second = 0 ∧ p.micro = 0 then .ok ({}, true) else .error .unreadable
  else if p.hour < 0 ∨ p.minute < 0 ∨ p.second < 0 then .error .unreadable
  else
    let t : TimeOfDay := ⟨p.hour.toNat, p.minute.toNat, p.second.toNat, p.micro.toNat⟩
    if t.isValid then .ok (t, false) else .error .unreadable

/-- Reads a time. The character between date and time is of no matter. -/
def read (s : List Char) : Except IsoError Timestamp := do
  if s.any (127 < ·.toNat) then throw .unreadable
  let ((year, month, day), rest) ←
    match calendarParts s with
    | .ok parts => pure parts
    | .error _ => do
      let (d, rest) ← otherDate s
      pure (((d.year : Int), (d.month : Int), (d.day : Int)), rest)
  let clock ← if rest.isEmpty then pure {} else clockParts (rest.drop 1)
  let (t, nextDay) ← timeOfDay clock
  let date ← dateOf year month day
  let date ← if nextDay then dateNumbered (date.dayNumber + 1) else pure date
  let w := WallTime.on date t
  match clock.offset with
  | none => return .floating w
  | some seconds => return .fixed ⟨w, seconds * microsPerSecond, ""⟩

end SearchBox.Calendar.Iso

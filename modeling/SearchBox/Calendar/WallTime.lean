import SearchBox.Calendar.Date

/-!
  SearchBox.Calendar.WallTime — what a clock and a calendar on the wall show: a date and a
  time of day, without saying where. It is the number of microseconds since the start of the
  calendar, so that adding and comparing are those of integers; values outside the calendar
  occur between the steps of a computation and are refused at its end.
-/

namespace SearchBox.Calendar

open SearchBox.Number

def microsPerSecond : Int := 1000000

def secondsPerDay : Int := 86400

def microsPerDay : Int := 86400000000

structure WallTime where
  micros : Int
  deriving DecidableEq, Repr

structure TimeOfDay where
  hour : Nat := 0
  minute : Nat := 0
  second : Nat := 0
  micro : Nat := 0
  deriving DecidableEq, Repr

namespace TimeOfDay

def isValid (t : TimeOfDay) : Bool :=
  t.hour < 24 && t.minute < 60 && t.second < 60 && t.micro < 1000000

def micros (t : TimeOfDay) : Int :=
  ((t.hour * 60 + t.minute) * 60 + t.second : Nat) * microsPerSecond + (t.micro : Int)

/-- Hours, minutes and seconds as `12:30:00`, and six more digits if they are not all zero. -/
def text (t : TimeOfDay) : List Char :=
  paddedDigits t.hour 2 ++ ':' :: paddedDigits t.minute 2 ++ ':' :: paddedDigits t.second 2 ++
    (if t.micro = 0 then [] else '.' :: paddedDigits t.micro 6)

end TimeOfDay

namespace WallTime

def onCalendar (w : WallTime) : Bool :=
  0 ≤ w.micros && w.micros < (calendarDays : Int) * microsPerDay

def on (d : Date) (t : TimeOfDay) : WallTime :=
  ⟨(d.dayNumber : Int) * microsPerDay + t.micros⟩

def midnight (d : Date) : WallTime :=
  on d {}

/-- The whole seconds since the start of the calendar. -/
def seconds (w : WallTime) : Int :=
  w.micros / microsPerSecond

/-- The day number, negative before the calendar starts. -/
def dayNumber (w : WallTime) : Int :=
  w.micros / microsPerDay

def date? (w : WallTime) : Option Date :=
  if w.onCalendar then Date.ofNumber? w.dayNumber.toNat else none

def timeOfDay (w : WallTime) : TimeOfDay :=
  let inDay := (w.micros % microsPerDay).toNat
  let s := inDay / 1000000
  { hour := s / 3600, minute := s / 60 % 60, second := s % 60, micro := inDay % 1000000 }

def addMicros (w : WallTime) (n : Int) : WallTime :=
  ⟨w.micros + n⟩

/-- The date text of any time. Times outside the calendar have none. -/
def dateText (w : WallTime) : List Char :=
  match w.date? with
  | some d => d.text
  | none => []

def text (w : WallTime) (separator : Char) : List Char :=
  w.dateText ++ separator :: w.timeOfDay.text

/-- Date and time of day with exactly three digits of the second, the others cut off. -/
def milliText (w : WallTime) : List Char :=
  let t := w.timeOfDay
  w.dateText ++ 'T' :: ({ t with micro := 0 } : TimeOfDay).text ++ '.' :: paddedDigits (t.micro / 1000) 3

end WallTime
end SearchBox.Calendar

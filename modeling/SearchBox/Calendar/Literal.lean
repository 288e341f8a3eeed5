import SearchBox.Calendar.Moment
import SearchBox.Text.Quoted

/-!
  SearchBox.Calendar.Literal — dates and times in the long form that messages use for them,
  with every part named or in its place.
-/

namespace SearchBox.Calendar

open SearchBox.Number SearchBox.Text

def callText (name : String) (arguments : List (List Char)) : List Char :=
  name.toList ++ '(' :: joinWith [',', ' '] arguments ++ [')']

def Date.literal (d : Date) : List Char :=
  callText "datetime.date" ([(d.year : Int), d.month, d.day].map integerText)

/-- A length of time as days, seconds of the day and microseconds, those that are zero left
    out. -/
def durationLiteral (micros : Int) : List Char :=
  let part (name : String) (n : Int) : List (List Char) :=
    if n = 0 then [] else [name.toList ++ '=' :: integerText n]
  let parts :=
    part "days" (micros / microsPerDay) ++
    part "seconds" (micros % microsPerDay / microsPerSecond) ++
    part "microseconds" (micros % microsPerSecond)
  callText "datetime.timedelta" (if parts.isEmpty then [['0']] else parts)

def offsetLiteral (offset : Int) (label : String) : List Char :=
  if label = "" then
    if offset = 0 then "datetime.timezone.utc".toList
    else callText "datetime.timezone" [durationLiteral offset]
  else callText "datetime.timezone" [durationLiteral offset, quoted label.toList]

/-- The parts of a wall time. Seconds and microseconds are left out from the end if zero. -/
def WallTime.literalParts (w : WallTime) : List (List Char) :=
  let t := w.timeOfDay
  let date : List Int :=
    match w.date? with
    | some d => [d.year, d.month, d.day]
    | none => []
  let time : List Int :=
    [(t.hour : Int), t.minute] ++
      (if t.micro ≠ 0 then [(t.second : Int), t.micro] else if t.second ≠ 0 then [(t.second : Int)] else [])
  (date ++ time).map integerText

def WallTime.literal (w : WallTime) : List Char :=
  callText "datetime.datetime" w.literalParts

def Moment.literal (m : Moment) : List Char :=
  callText "datetime.datetime"
    (m.wall.literalParts ++ ["tzinfo=".toList ++ offsetLiteral m.offset m.label])

end SearchBox.Calendar

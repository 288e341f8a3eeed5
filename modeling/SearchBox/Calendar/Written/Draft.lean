import SearchBox.Calendar.Written.Token
import SearchBox.Calendar.Date
import SearchBox.Number.Binary64
import SearchBox.Number.Numeral
import SearchBox.Text.LowerCase

/-!
  SearchBox.Calendar.Written.Draft — what is known of a written date while it is read. The
  numbers for year, month and day are kept in the order written; a number of more than two
  digits or above 100 is the year, a name is the month, and which of the others is which is
  decided at the end by their size and order.
-/

namespace SearchBox.Calendar.Written

open SearchBox.Number SearchBox.Text

inductive WrittenError where
  | unreadable
  /-- A number has more digits before its point than can be divided exactly. -/
  | numberTooLong
  deriving DecidableEq, Repr

/-! ## Decimals -/

/-- The number `digits / 10 ^ places`. -/
structure Decimal where
  digits : Nat
  places : Nat

namespace Decimal

/-- The digits that a result may have. -/
def precision : Nat := 28

/-- A number of digits of any script with at most one point inside. -/
def read? (t : Token) : Option Decimal :=
  let whole := t.takeWhile (· ≠ '.')
  let tail := (t.dropWhile (· ≠ '.')).drop 1
  match (whole ++ tail).mapM decimalValue? with
  | some [] => none
  | some ds => some ⟨ofDigits 10 ds, tail.length⟩
  | none => none

def floor (d : Decimal) : Nat :=
  d.digits / tenTo d.places

/-- The number rounded to the digits that a result may have, ties to even. -/
def rounded (d : Decimal) : Decimal :=
  let excess := (Nat.toDigits 10 d.digits).length - precision
  ⟨divNearest d.digits (tenTo excess), d.places - excess⟩

/-- Sixty times the part after the point, cut to an integer; nothing if that part is zero. -/
def sixtieths? (d : Decimal) : Except WrittenError (Option Nat) :=
  if tenTo precision ≤ d.floor then .error .numberTooLong
  else
    let part : Decimal := ⟨d.digits % tenTo d.places, d.places⟩
    if part.digits = 0 then .ok none
    else
      let part := part.rounded
      .ok (some (Decimal.rounded ⟨60 * part.digits, part.places⟩).floor)

def exceeds (d : Decimal) (n : Nat) : Bool :=
  n * tenTo d.places < d.digits

def isBelow (d : Decimal) (n : Nat) : Bool :=
  d.digits < n * tenTo d.places

end Decimal

/-! ## Names -/

def weekdayNames : List (List String) :=
  [["mon", "monday"], ["tue", "tuesday"], ["wed", "wednesday"], ["thu", "thursday"],
   ["fri", "friday"], ["sat", "saturday"], ["sun", "sunday"]]

def monthNames : List (List String) :=
  [["jan", "january"], ["feb", "february"], ["mar", "march"], ["apr", "april"], ["may"],
   ["jun", "june"], ["jul", "july"], ["aug", "august"], ["sep", "sept", "september"],
   ["oct", "october"], ["nov", "november"], ["dec", "december"]]

def unitNames : List (List String) :=
  [["h", "hour", "hours"], ["m", "minute", "minutes"], ["s", "second", "seconds"]]

def halfDayNames : List (List String) :=
  [["am", "a"], ["pm", "p"]]

def fillers : List String :=
  [" ", ".", ",", ";", "-", "/", "'", "at", "on", "and", "ad", "m", "t", "of", "st", "nd", "rd", "th"]

/-- The place of the group of names that a piece is one of, whatever its case. -/
def placeIn (groups : List (List String)) (t : Token) : Option Nat :=
  groups.findIdx? (·.contains (String.ofList (lower t)))

def weekday? (t : Token) : Option Nat :=
  placeIn weekdayNames t

/-- The number of a named month, January being one. -/
def month? (t : Token) : Option Nat :=
  (placeIn monthNames t).map (· + 1)

/-- The unit of time that a piece names: hours 0, minutes 1, seconds 2. -/
def unit? (t : Token) : Option Nat :=
  placeIn unitNames t

/-- The half of the day that a piece names: the morning 0, the afternoon 1. -/
def halfDay? (t : Token) : Option Nat :=
  placeIn halfDayNames t

def isFiller (t : Token) : Bool :=
  fillers.contains (String.ofList (lower t))

/-- Names of universal time, as they have to be written to count as a zone's name. -/
def isUniversalName (t : Token) : Bool :=
  ["UTC", "GMT", "Z", "z"].contains (String.ofList t)

def isUniversalWord (t : Token) : Bool :=
  ["utc", "gmt", "z"].contains (String.ofList (lower t))

/-! ## The draft -/

structure Draft where
  numbers : List Nat := []
  /-- The place among the numbers of the one that is the year for certain. -/
  yearPlace : Option Nat := none
  monthPlace : Option Nat := none
  fullYear : Bool := false
  weekday : Option Nat := none
  hour : Option Nat := none
  minute : Option Nat := none
  second : Option Nat := none
  micro : Option Nat := none
  zoneName : Option Token := none
  /-- Seconds ahead of universal time. -/
  offset : Option Int := none
  /-- Whether the next sign belongs to a zone name, as in `EST+3`, and so says how far universal
      time is ahead. -/
  reversed : Bool := false

namespace Draft

def isEmpty (d : Draft) : Bool :=
  d.numbers.isEmpty && d.weekday.isNone && d.hour.isNone && d.minute.isNone && d.second.isNone &&
    d.micro.isNone && d.zoneName.isNone && d.offset.isNone

def addMonth (d : Draft) (n : Nat) : Except WrittenError Draft :=
  if d.monthPlace.isSome then .error .unreadable
  else .ok { d with numbers := d.numbers ++ [n], monthPlace := some d.numbers.length }

def addYear (d : Draft) (n : Nat) (century : Bool) : Except WrittenError Draft :=
  if d.yearPlace.isSome then .error .unreadable
  else
    .ok { d with
      numbers := d.numbers ++ [n]
      yearPlace := some d.numbers.length
      fullYear := d.fullYear || century }

def addNumber (d : Draft) (n : Nat) : Draft :=
  { d with numbers := d.numbers ++ [n] }

def natural? (t : Token) : Except WrittenError Nat :=
  match readInteger? t with
  | some n => if n < 0 then .error .unreadable else .ok n.toNat
  | none => .error .unreadable

/-- Adds a number as it is written: with more than two digits it is the year. -/
def addToken (d : Draft) (t : Token) : Except WrittenError Draft := do
  let n ← natural? t
  if t.all isDigit && 2 < t.length then d.addYear n true else return d.addNumber n

def addYearToken (d : Draft) (t : Token) : Except WrittenError Draft := do
  d.addYear (← natural? t) (t.all isDigit && 2 < t.length)

/-- Adds a number by its value: above 100 it is the year. -/
def addDecimal (d : Draft) (n : Decimal) : Except WrittenError Draft :=
  if n.exceeds 100 then d.addYear n.floor true else .ok (d.addNumber n.floor)

def couldBeDay (d : Draft) (n : Decimal) : Bool :=
  let last :=
    match d.monthPlace.bind (d.numbers[·]?) with
    | none => 31
    | some month =>
      match d.yearPlace.bind (d.numbers[·]?) with
      | none => monthLength 2000 month
      | some year => monthLength year month
  !n.isBelow 1 && !n.exceeds last

abbrev Parts := Option Nat × Option Nat × Option Nat

/-- The parts when the place of each number, or of all but one of three, is known. -/
def partsByPlace (d : Draft) : Parts :=
  let year := d.yearPlace
  let month := d.monthPlace
  let (year, month, day) :=
    match d.numbers.length, year, month with
    | 3, some y, some m => (year, month, some (3 - y - m))
    | _, _, _ => (year, month, none)
  (year.bind (d.numbers[·]?), month.bind (d.numbers[·]?), day.bind (d.numbers[·]?))

/-- Which number is the year, which the month and which the day. Above 31 it can only be the
    year; else the month comes first unless it is named or above 12. -/
def parts (d : Draft) : Except WrittenError Parts :=
  let known := (if d.yearPlace.isSome then 1 else 0) + (if d.monthPlace.isSome then 1 else 0)
  if 0 < known ∧ d.numbers.length = known ∨ d.numbers.length = 3 ∧ known = 2 then
    .ok d.partsByPlace
  else
    match d.numbers, d.monthPlace with
    | [], _ => .ok (none, none, none)
    | [a], none => .ok (if 31 < a then (some a, none, none) else (none, none, some a))
    | [a], some _ => .ok (none, some a, none)
    | [a, b], some 0 => .ok (if 31 < b then (some b, some a, none) else (none, some a, some b))
    | [a, b], some _ => .ok (if 31 < a then (some a, some b, none) else (none, some b, some a))
    | [a, b], none =>
      .ok (if 31 < a then (some a, some b, none)
        else if 31 < b then (some b, some a, none)
        else (none, some a, some b))
    | [a, b, c], some 0 =>
      .ok (if 31 < b then (some b, some a, some c) else (some c, some a, some b))
    | [a, b, c], some 1 =>
      .ok (if 31 < a then (some a, some b, some c) else (some c, some b, some a))
    | [a, b, c], some _ =>
      .ok (if 31 < b then (some b, some c, some a) else (some a, some c, some b))
    | [a, b, c], none =>
      .ok (if 31 < a ∨ d.yearPlace = some 0 then (some a, some b, some c)
        else if 12 < a then (some c, some b, some a)
        else (some c, some a, some b))
    | _, _ => .error .unreadable

end Draft
end SearchBox.Calendar.Written

import SearchBox.Calendar.Literal
import SearchBox.Number.Numeral

/-!
  SearchBox.Yaml.Error — why a YAML text has no value. Faults of the text itself are one
  cause, `malformed`; the others are values that their tags do not allow. `halfPair` is no fault
  of the text: it has a value, but one that the texts here cannot hold.
-/

namespace SearchBox.Yaml

open SearchBox.Calendar SearchBox.Number SearchBox.Text

inductive YamlError where
  | malformed
  /-- An escape for a character beyond the last one. -/
  | codeTooLarge (code : Nat)
  /-- An escape for half of a surrogate pair. -/
  | halfPair
  /-- A number of which nothing is left without its sign and low lines. -/
  | emptyNumber
  | badInteger (base : Nat) (digits : List Char)
  | integerTooLong (digits : Nat)
  | badDecimal (digits : List Char)
  | unknownTruth (word : List Char)
  | noTimestamp
  /-- A mapping in the place of a written time. -/
  | timeInMapping
  | yearOutside (year : Nat)
  | noSuchMonth
  | noSuchDay
  | noSuchHour
  | noSuchMinute
  | noSuchSecond
  | offsetOutside (micros : Int)
  deriving DecidableEq, Repr

/-- The greatest code that is looked up at all. -/
def greatestCode : Nat := 2147483647

def YamlError.message : YamlError → String
  | malformed => "not a YAML document"
  | codeTooLarge code =>
    if code ≤ greatestCode then "chr() arg not in range(0x110000)"
    else "Python int too large to convert to C int"
  | halfPair => "half of a surrogate pair"
  | emptyNumber => "string index out of range"
  | badInteger base digits =>
    "invalid literal for int() with base " ++ String.ofList (integerText base) ++ ": " ++
      String.ofList (quoted digits)
  | integerTooLong digits => tooLongMessage digits
  | badDecimal digits => "could not convert string to float: " ++ String.ofList (quoted digits)
  | unknownTruth word => String.ofList (quoted word)
  | noTimestamp => "'NoneType' object has no attribute 'groupdict'"
  | timeInMapping => "expected string or bytes-like object, got 'list'"
  | yearOutside year => CalendarError.message (.yearOutside year)
  | noSuchMonth => "month must be in 1..12"
  | noSuchDay => "day is out of range for month"
  | noSuchHour => "hour must be in 0..23"
  | noSuchMinute => "minute must be in 0..59"
  | noSuchSecond => "second must be in 0..59"
  | offsetOutside micros =>
    "offset must be a timedelta strictly between -timedelta(hours=24) and timedelta(hours=24), not " ++
      String.ofList (durationLiteral micros) ++ "."

end SearchBox.Yaml

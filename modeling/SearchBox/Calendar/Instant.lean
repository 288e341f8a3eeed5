import SearchBox.Calendar.Written

/-!
  SearchBox.Calendar.Instant — the moment that a value of any kind gives: a time, a number of
  milliseconds since 1970, or a written date. Times without an offset are local.
-/

namespace SearchBox.Calendar

open SearchBox.Number SearchBox.Text

inductive InstantError where
  | noInstant (cause : CalendarError)
  | numberTooLong
  deriving DecidableEq, Repr

def InstantError.message : InstantError → String
  | noInstant cause => cause.message
  | numberTooLong => "[<class 'decimal.DivisionImpossible'>]"

/-- The day number of 1970-01-01. -/
def epochDay : Nat := 719162

/-- The moment a number of seconds after the start of 1970, rounded to microseconds. -/
def momentOfSeconds? (seconds : Binary64) : Option Moment :=
  match seconds, seconds.truncate? with
  | .finite negative _ _, some whole =>
    let part : Int := seconds.scaledFraction 1000000
    let micros := (epochDay : Int) * microsPerDay + whole * microsPerSecond + (if negative then -part else part)
    let m := Moment.universal micros
    if m.wall.onCalendar then some m else none
  | _, _ => none

def momentOfTime (zone : Zone) : Timestamp → Except InstantError Moment
  | .fixed m => .ok m
  | .floating w => (zone.localMoment? w).mapError .noInstant

/-- The moment that a value gives, if it gives one. Written dates lack no part but the time:
    what is not written is today's. -/
def momentOf (clock : Clock) : Value → Except InstantError (Option Moment)
  | .scalar (.time t) => some <$> momentOfTime clock.zone t
  | .int n => .ok (momentOfSeconds? (Binary64.nearest (n < 0) n.natAbs 1000))
  | .float x => .ok (momentOfSeconds? (x.divNat 1000))
  | .text s =>
    if isBlankText s.toList then .ok none
    else
      match clock.today? with
      | none => .ok none
      | some today =>
        match Written.read clock today s.toList with
        | .ok t => some <$> momentOfTime clock.zone t
        | .error .unreadable => .ok none
        | .error .numberTooLong => .error .numberTooLong
  | _ => .ok none

end SearchBox.Calendar

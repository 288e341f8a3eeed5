import SearchBox.Lexicon
import SearchBox.Query.Filter
import SearchBox.Record

/-!
  SearchBox.Search.Gate — whether a record matches a filter. Each way to restrict the records
  is a gate of its own, and a gate whose part of the filter is empty lets every record pass.
  Gates are tried in a fixed order; the first one that a record fails explains why it does not
  match. Gates after it are not tried, so what cannot be computed there is no error. The text
  that is searched is put together before any gate, also for a filter that asks for nothing.
-/

namespace SearchBox.Search

open SearchBox.Calendar SearchBox.Number SearchBox.Query SearchBox.Text

inductive Gate where
  | exclude
  | phrase
  | choice
  | term
  | type
  | site
  | tag
  | format
  | since
  | day
  | object
  | text
  deriving DecidableEq, Repr

namespace Gate

def name : Gate → String
  | exclude => "exclude"
  | phrase => "phrase"
  | choice => "or"
  | term => "term"
  | type => "type"
  | site => "site"
  | tag => "tag"
  | format => "format"
  | since => "date"
  | day => "date_range"
  | object => "object"
  | text => "text"

def inOrder : List Gate :=
  [exclude, phrase, choice, term, type, site, tag, format, since, day, object, text]

theorem mem_inOrder (g : Gate) : g ∈ inOrder := by
  cases g <;> decide

end Gate

/-- Why it cannot be told whether a record matches. -/
inductive MatchError where
  | noText (cause : WriteError)
  | badInstant (cause : InstantError)
  /-- The earliest date or a comparison with it is off the calendar. -/
  | offCalendar (cause : CalendarError)
  | noKind (reason : String)
  /-- What tells types says so as an iteration says that it is at its end. -/
  | kindEnded (reason : String)
  deriving DecidableEq, Repr

/-- What records are matched with: the time, the words for dates, and how a record's type tag
    is found. -/
structure Matcher where
  clock : Clock
  lexicon : Lexicon
  kind : Record → Except MatchError String

/-- The greatest number of days that a date can be moved by. -/
def greatestDays : Int := 999999999

def daysBefore (day : Date) (n : Int) : Except CalendarError Date :=
  if n < -2147483648 ∨ 2147483647 < n then .error .daysTooLarge
  else if greatestDays < n.natAbs then .error (.daysOutside n)
  else
    let number := (day.dayNumber : Int) - n
    match if number < 0 then none else Date.ofNumber? number.toNat with
    | some d => .ok d
    | none => .error .dateOutside

namespace Matcher

/-- The earliest moment that a word for a date accepts, nothing if the word is not known. -/
def cutoff (m : Matcher) (word : String) : Except CalendarError (Option Moment) :=
  match m.lexicon.dayOffset? word with
  | none => .ok none
  | some days => do
    let here ← m.clock.zone.relocate? m.clock.now
    match here.wall.date? with
    | none => throw .dateOutside
    | some today => some <$> m.clock.zone.midnight? (← daysBefore today days)

def isSince (m : Matcher) (r : Record) (word : String) : Except MatchError Bool := do
  match ← (m.cutoff word).mapError .offCalendar with
  | none => return true
  | some earliest =>
    match ← (r.createdAt m.clock).mapError .badInstant with
    | none => return false
    | some created => (earliest.atMost? created).mapError .offCalendar

def isWithin (m : Matcher) (r : Record) (span : DaySpan) : Except MatchError Bool := do
  match ← (r.createdAt m.clock).mapError .badInstant with
  | none => return false
  | some created => (span.contains created).mapError .offCalendar

end Matcher

def isIn (text : List Char) (needle : String) : Bool :=
  occursIn needle.toList text

def lowerField (r : Record) (f : Record.Field) : Except MatchError (List Char) :=
  ((r.field f).map fun t => lower t.toList).mapError .noText

/-- Whether a URL's ending is the format, or the format follows a point in it. -/
def hasFormat (url : List Char) (format : String) : Bool :=
  (url.reverse.takeWhile (· ≠ '.')).reverse = format.toList || occursIn ('.' :: format.toList) url

/-- One of some values has to stand the test. Without values nothing is asked, and there is no test. -/
def anyOf (values : List String) (test : Except MatchError (String → Bool)) : Except MatchError Bool :=
  if values.isEmpty then .ok true else do return values.any (← test)

@[simp] theorem anyOf_nil (test : Except MatchError (String → Bool)) : anyOf [] test = .ok true :=
  rfl

/-- Whether a record passes a gate; `text` is the record's search text. -/
def Matcher.passes (m : Matcher) (f : Filter) (r : Record) (text : List Char) :
    Gate → Except MatchError Bool
  | .exclude => .ok (!f.excludedTerms.any (isIn text) && !f.excludedPhrases.any (isIn text))
  | .phrase => .ok (f.phrases.all (isIn text))
  | .choice => .ok (f.choices.all fun (a, b) => isIn text a || isIn text b)
  | .term => .ok (f.terms.all (isIn text))
  | .type => anyOf f.types do
    let kind ← m.kind r
    return (· == kind)
  | .site => anyOf f.sites do return isIn (← lowerField r .url)
  | .tag =>
    .ok (f.tags.isEmpty ||
      let tags := r.tags.map lowerText
      f.tags.all (tags.contains ·))
  | .format => anyOf f.formats do return hasFormat (← lowerField r .url)
  | .since =>
    match f.preset? with
    | none => .ok true
    | some word => m.isSince r word
  | .day =>
    match f.day with
    | none => .ok true
    | some span => m.isWithin r span
  | .object => anyOf f.objects do
    let notes ← lowerField r .notes
    let description ← lowerField r .description
    return fun v => isIn description v || isIn notes v
  | .text => anyOf f.texts do
    let notes ← lowerField r .notes
    let description ← lowerField r .description
    let content ← lowerField r .content
    return fun v => isIn notes v || isIn content v || isIn description v

def Matcher.firstFailing (m : Matcher) (f : Filter) (r : Record) (text : List Char) :
    List Gate → Except MatchError (Option Gate)
  | [] => .ok none
  | g :: later => do if ← m.passes f r text g then m.firstFailing f r text later else return some g

theorem Matcher.firstFailing_eq_none_iff {m : Matcher} {f : Filter} {r : Record} {text : List Char}
    {gates : List Gate} :
    m.firstFailing f r text gates = .ok none ↔ ∀ g ∈ gates, m.passes f r text g = .ok true := by
  induction gates with
  | nil => simp [firstFailing]
  | cons g later ih =>
    rw [firstFailing, List.forall_mem_cons, ← ih]
    cases h : m.passes f r text g with
    | error e => simp [bind, Except.bind]
    | ok b => cases b <;> simp [bind, Except.bind, pure, Except.pure]

/-- The gate that a record fails first, nothing if it matches. -/
def Matcher.explain (m : Matcher) (f : Filter) (r : Record) : Except MatchError (Option Gate) := do
  m.firstFailing f r (← r.searchText.mapError .noText) Gate.inOrder

def Matcher.accepts (m : Matcher) (f : Filter) (r : Record) : Except MatchError Bool := do
  return (← m.explain f r).isNone

/-- Whether the record's type was asked for on the way to the gate it fails. -/
def asksKind (f : Filter) (failing : Option Gate) : Bool :=
  !f.types.isEmpty &&
    match failing with
    | some g => !([.exclude, .phrase, .choice, .term] : List Gate).contains g
    | none => true

/-- The matcher that finds type tags by the records' own fields. -/
def Matcher.standard (clock : Clock) (lexicon : Lexicon) (kind : Record → Except WriteError String) : Matcher :=
  { clock := clock, lexicon := lexicon, kind := fun r => (kind r).mapError .noText }

end SearchBox.Search

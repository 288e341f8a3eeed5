import SearchBox.Calendar.Iso
import SearchBox.Query.Filter
import SearchBox.Text.LowerCase
import SearchBox.Value.Shape
import SearchBox.Value.Shown

/-!
  SearchBox.Query.Stored — filters as mappings, to be kept and read again. Times are written
  with three digits of the second. Reading takes missing fields as empty, ignores fields it
  does not know, and lower-cases all values.
-/

namespace SearchBox.Query

open SearchBox.Calendar SearchBox.Text

namespace Filter

def textList (texts : List String) : Value :=
  .list (texts.map .text)

def dayValue (span : DaySpan) : Except CalendarError Value := do
  let first ← span.first.milliText?
  let last ← span.last.milliText?
  return .dict [(.text "start", .text (String.ofList first)), (.text "end", .text (String.ofList last))]

def toEntries (f : Filter) : Except CalendarError Entries := do
  let day ← match f.day with
    | some span => dayValue span
    | none => pure .null
  return [
    (.text "terms", textList f.terms),
    (.text "orGroups", .list (f.choices.map fun (a, b) => textList [a, b])),
    (.text "exactPhrases", textList f.phrases),
    (.text "excludeTerms", textList f.excludedTerms),
    (.text "excludePhrases", textList f.excludedPhrases),
    (.text "objectSearch", textList f.objects),
    (.text "textSearch", textList f.texts),
    (.text "types", textList f.types),
    (.text "formats", textList f.formats),
    (.text "dateFilter", (f.since.map .text).getD .null),
    (.text "dateRange", day),
    (.text "sites", textList f.sites),
    (.text "tags", textList f.tags),
    (.text "rawQuery", .text f.freeText)]

end Filter

inductive StoredError where
  | notAMapping
  | notASequence
  | badSpan
  | badPair (place : Nat)
  | badList (field : String)
  /-- A time of the span cannot be read, or has no instant. -/
  | badTime (cause : Calendar.Iso.IsoError)
  | noInstant (cause : CalendarError)
  | noText (cause : Number.WriteError)
  deriving DecidableEq, Repr

def StoredError.message? : StoredError → Option String
  | badSpan => some "dateRange must be an object with start and end"
  | badPair place =>
    some ("orGroups[" ++ String.ofList (Number.integerText place) ++ "] must be a pair of strings")
  | badList field => some (field ++ " must be a list of strings")
  | _ => none

namespace Filter

def shownText (v : Value) : Except StoredError String :=
  v.shownText.mapError .noText

def lowerShown (v : Value) : Except StoredError String :=
  lowerText <$> shownText v

/-- A moment from the text of a time. Without an offset it is local time. -/
def momentOf (zone : Zone) (v : Value) : Except StoredError Moment := do
  match ← (Iso.read (← shownText v).toList).mapError .badTime with
  | .fixed m => return m
  | .floating w => (zone.localMoment? w).mapError .noInstant

def spanOf (zone : Zone) (v : Value) : Except StoredError (Option DaySpan) :=
  match v with
  | .null => .ok none
  | .dict es =>
    match Entries.get? es "start", Entries.get? es "end" with
    | some a, some b => do
      let first ← momentOf zone a
      let last ← momentOf zone b
      return some ⟨first, last⟩
    | _, _ => .error .badSpan
  | _ => .error .badSpan

def pairsFrom (place : Nat) : List Value → Except StoredError (List (String × String))
  | [] => .ok []
  | v :: vs =>
    match v.items? with
    | some [a, b] => do
      let pair := (← lowerShown a, ← lowerShown b)
      return pair :: (← pairsFrom (place + 1) vs)
    | _ => .error (.badPair place)

def choicesOf (v : Value) : Except StoredError (List (String × String)) :=
  if v.isTruthy then
    match v.members with
    | .ok vs => pairsFrom 0 vs
    | .error _ => .error .notASequence
  else .ok []

def listOf (entries : Entries) (field : String) : Except StoredError (List String) :=
  match Entries.getOrNull entries field with
  | .null => .ok []
  | v =>
    match v.items? with
    | some vs => vs.mapM lowerShown
    | none => .error (.badList field)

def sinceOf (v : Value) : Except StoredError (Option String) :=
  if v.isTruthy then some <$> lowerShown v else .ok none

def freeTextOf (v : Value) : Except StoredError String :=
  if v.isTruthy then shownText v else .ok ""

def ofValue (zone : Zone) (v : Value) : Except StoredError Filter := do
  let es : Entries ← match v with
    | .dict es => pure es
    | _ => throw .notAMapping
  let day ← spanOf zone (Entries.getOrNull es "dateRange")
  let choices ← choicesOf (Entries.getOrNull es "orGroups")
  return {
    terms := ← listOf es "terms"
    choices := choices
    phrases := ← listOf es "exactPhrases"
    excludedTerms := ← listOf es "excludeTerms"
    excludedPhrases := ← listOf es "excludePhrases"
    objects := ← listOf es "objectSearch"
    texts := ← listOf es "textSearch"
    types := ← listOf es "types"
    formats := ← listOf es "formats"
    since := ← sinceOf (Entries.getOrNull es "dateFilter")
    day := day
    sites := ← listOf es "sites"
    tags := ← listOf es "tags"
    freeText := ← freeTextOf (Entries.getOrNull es "rawQuery") }

end Filter
end SearchBox.Query

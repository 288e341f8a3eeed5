import SearchBox.Report.Listing
import SearchBox.Search

/-!
  SearchBox.Report.Document — records and results of searches as documents.
-/

namespace SearchBox.Report

open SearchBox.Calendar SearchBox.Search

def momentValue : Option Moment → Except ReportError Value
  | none => .ok .null
  | some m => do return .text (String.ofList (← m.text?.mapError .offCalendar))

def recordValue (clock : Clock) (r : Record) : Except ReportError Value := do
  let created ← (r.createdAt clock).mapError .badInstant
  return .dict [
    (.text "id", .text (← fieldText r .id)),
    (.text "title", .text (← fieldText r .title)),
    (.text "url", .text (← fieldText r .url)),
    (.text "notes", .text (← fieldText r .notes)),
    (.text "description", .text (← fieldText r .description)),
    (.text "tags", .list (r.tags.map .text)),
    (.text "createdAt", ← momentValue created)]

def recordValues (clock : Clock) (records : List Record) : Except ReportError (List Value) :=
  records.mapM (recordValue clock)

def resultValue (clock : Clock) (r : Result) : Except ReportError Value := do
  let filter ← r.filter.toEntries.mapError .offCalendar
  return .dict [
    (.text "query", r.query),
    (.text "filters", .dict filter),
    (.text "scanned", .int r.scanned),
    (.text "matched", .int r.matched),
    (.text "items", .list (← recordValues clock r.items))]

end SearchBox.Report

import SearchBox.Record

/-!
  SearchBox.Report.Listing — records as a numbered list for people to read, with the time of
  creation on the local wall clock.
-/

namespace SearchBox.Report

open SearchBox.Calendar SearchBox.Number SearchBox.Text

inductive ReportError where
  | noText (cause : WriteError)
  | badInstant (cause : InstantError)
  /-- A time of the record is off the calendar in the local zone, or cannot be written. -/
  | offCalendar (cause : CalendarError)
  deriving DecidableEq, Repr

def ReportError.message : ReportError → String
  | noText cause => cause.message
  | badInstant cause => cause.message
  | offCalendar cause => cause.message

/-- A local time as `2024-06-15 12:00`, the year with as many digits as it has. -/
def minuteText (w : WallTime) : List Char :=
  match w.date? with
  | none => []
  | some d =>
    let t := w.timeOfDay
    integerText d.year ++ '-' :: paddedDigits d.month 2 ++ '-' :: paddedDigits d.day 2 ++
      ' ' :: paddedDigits t.hour 2 ++ ':' :: paddedDigits t.minute 2

def savedText (clock : Clock) : Option Moment → Except ReportError (List Char)
  | none => .ok ['-']
  | some m => do return minuteText (← (clock.zone.relocate? m).mapError .offCalendar).wall

def firstText (texts : List String) : String :=
  (texts.find? (· ≠ "")).getD ""

def fieldText (r : Record) (f : Record.Field) : Except ReportError String :=
  (r.field f).mapError .noText

/-- The lines of one record, the last one blank. -/
def recordLines (clock : Clock) (place : Nat) (r : Record) : Except ReportError (List (List Char)) := do
  let title ← fieldText r .title
  let url ← fieldText r .url
  let title := firstText [title, url, "(untitled)"]
  let tags := r.tags
  let created ← (r.createdAt clock).mapError .badInstant
  let saved ← savedText clock created
  return [integerText place ++ '.' :: ' ' :: title.toList] ++
    (if url = "" then [] else ["   URL: ".toList ++ url.toList]) ++
    (if tags.isEmpty then [] else ["   Tags: ".toList ++ joinWith [',', ' '] (tags.map String.toList)]) ++
    ["   Saved: ".toList ++ saved, []]

/-- The lines of records numbered from `place` on. -/
def listLines (clock : Clock) (place : Nat) : List Record → Except ReportError (List (List Char))
  | [] => .ok []
  | r :: rs => do return (← recordLines clock place r) ++ (← listLines clock (place + 1) rs)

def listing (clock : Clock) (records : List Record) : Except ReportError (List Char) := do
  return stripEnd (joinWith ['\n'] (← listLines clock 1 records)) ++ ['\n']

/-! ## The cheat sheet -/

def examples : List (String × String) :=
  [("shoe red", "All keywords must match"),
   ("cats || dogs", "Either keyword matches"),
   ("\"red shoes\"", "Exact phrase"),
   ("-red  -\"red shoes\"", "Exclude a keyword or phrase"),
   ("object:car", "Object inside images (captions and notes)"),
   ("text:invoice", "Text inside images or notes"),
   ("type:article  type:note  type:video",
     "Card type (articles, websites, notes, snippets, images, tweets, posts)"),
   ("format:pdf", "File format by URL extension"),
   ("date:yesterday  date:last week  date:2024-05-19", "Saved since a preset, or on a given day"),
   ("site:youtube", "URL contains the site"),
   ("tag:recipe  #recipe", "Item has every listed tag")]

/-- The examples in a column beside their meanings. -/
def cheatSheet : String :=
  let width := (examples.map (·.1.length)).foldl max 0
  let row (sample meaning : String) : String :=
    sample ++ String.ofList (List.replicate (width - sample.length) ' ') ++ "  " ++ meaning
  String.intercalate "\n" (examples.map fun (e, m) => row e m) ++ "\n"

end SearchBox.Report

import SearchBox.Json.Write
import SearchBox.Report.Document

/-!
  SearchBox.Report.Writer — where results go. A console writer leaves messages as soon as a
  result is written. A JSON writer keeps results until it is finished and then prints one
  document: the result if there is one, the list of results if there are several, and nothing
  if there is none.
-/

namespace SearchBox.Report

open SearchBox.Calendar SearchBox.Log SearchBox.Number SearchBox.Search SearchBox.Text

inductive Format where
  | console
  | json
  deriving DecidableEq, Repr

namespace Format

def name : Format → String
  | console => "console"
  | json => "json"

def ofName? (name : String) : Option Format :=
  [console, json].find? (·.name = name)

theorem ofName?_name (f : Format) : ofName? f.name = some f := by
  cases f <;> decide

end Format

inductive Writer where
  | console (explain : Bool)
  | json (indent : Option Int) (kept : List Value)

/-- The fields of a filter that say something, one message each. -/
def explainFields : Entries → List String
  | [] => []
  | (k, v) :: rest =>
    if v.isTruthy then ("  " ++ String.ofList k.shown ++ "=" ++ String.ofList v.shown) :: explainFields rest
    else explainFields rest

def writeConsole (clock : Clock) (explain : Bool) (r : Result) : Logged ReportError Unit := do
  note .info ("query=" ++ String.ofList r.query.literal)
  if r.filter.isEmpty then note .info "No filters: every item matches"
  if explain then
    let fields ← Logged.ofExcept (r.filter.toEntries.mapError .offCalendar)
    for message in explainFields fields do note .info message
  note .info ("Showing " ++ countText r.items.length ++ " of " ++ countText r.matched ++ " matches (" ++
    countText r.scanned ++ " scanned)")
  if !r.items.isEmpty then
    let text ← Logged.ofExcept (listing clock r.items)
    for line in lines text do note .info (String.ofList line)

namespace Writer

def write (clock : Clock) (r : Result) : Writer → Logged ReportError Writer
  | console explain => do
    writeConsole clock explain r
    return console explain
  | json indent kept => do
    let v ← Logged.ofExcept (resultValue clock r)
    return json indent (kept ++ [v])

def document (indent : Option Int) : List Value → String
  | [] => ""
  | [v] => Json.document indent v ++ "\n"
  | vs => Json.document indent (.list vs) ++ "\n"

/-- Finishes: the text printed and the writer afterwards. -/
def finish : Writer → String × Writer
  | console explain => ("", console explain)
  | json indent kept => (document indent kept, json indent [])

theorem finish_finish (w : Writer) : w.finish.2.finish.1 = "" := by
  cases w <;> rfl

end Writer

/-- Writes a result with one writer after another. The first fault ends it; the writers
    before it have written. -/
def writeAll (clock : Clock) (r : Result) : List Writer → StateM (List Entry) (List Writer × Option ReportError)
  | [] => return ([], none)
  | w :: ws => do
    match ← (w.write clock r).run with
    | .ok w =>
      let (ws, fault) ← writeAll clock r ws
      return (w :: ws, fault)
    | .error e => return (w :: ws, some e)

def finishAll (ws : List Writer) : String × List Writer :=
  (String.join (ws.map fun w => w.finish.1), ws.map fun w => w.finish.2)

/-- The writers of formats, one for each, nothing if there are none. The console comes first. -/
def writersOf? (explain : Bool) (formats : List Format) : Option (List Writer) :=
  let writers :=
    (if .console ∈ formats then [Writer.console explain] else []) ++
    (if .json ∈ formats then [Writer.json (some 2) []] else [])
  if writers.isEmpty then none else some writers

def noWriters : String :=
  "No output writers configured"

end SearchBox.Report

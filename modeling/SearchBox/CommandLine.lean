import SearchBox.CommandLine.Arguments
import SearchBox.Json.Write
import SearchBox.Record.Kind
import SearchBox.Report.Writer
import SearchBox.Search
import SearchBox.Settings.File
import SearchBox.Store

/-!
  SearchBox.CommandLine — what a call of the program does: it takes over variables from a file
  of them, loads the settings, then runs a command. `search` looks for saved items, `parse`
  prints the filter of a query, and `syntax` prints the cheat sheet.

  A call ends well, with a failure that is reported, or with a usage error. It crashes where a
  fault is none of the kinds that are reported. Texts here hold no half of a surrogate pair. How
  a call goes on that comes upon one is left open (`Ending.untold`): it may print the half, which
  has no bytes, or never use it.

  What lies outside comes as a `System`: files through its `Disk`, so that a call runs alike on
  real files and on a tree of files in memory, the clock, the file of variables, and the texts
  that explain the program. The variables are taken not to move the clock, and what is printed is
  taken to arrive.
-/

namespace SearchBox.CommandLine

open SearchBox.Calendar SearchBox.Log SearchBox.Number SearchBox.Query SearchBox.Report
open SearchBox.Search SearchBox.Settings SearchBox.Text

/-- A fault that no message is made of. -/
inductive Crash where
  /-- A path among the arguments that no file can have. -/
  | path (cause : DiskError)
  /-- The file of variables cannot be taken over. -/
  | environment (reason : String)
  | settings (cause : Yaml.YamlError)
  | logFile (cause : DiskError)
  | query (cause : SearchError)
  | filter (cause : CalendarError)
  deriving DecidableEq

def Crash.message : Crash → String
  | path cause => cause.message
  | environment reason => reason
  | settings cause => cause.message
  | logFile cause => cause.message
  | query cause => cause.message
  | filter cause => cause.message

inductive Ending where
  | success
  | failure
  | usage
  | crash (cause : Crash)
  /-- The call has come upon half of a surrogate pair. -/
  | untold
  deriving DecidableEq

def Ending.exitCode : Ending → Nat
  | success => 0
  | failure => 1
  | usage => 2
  | crash _ => 1
  | untold => 1

structure System (m : Type → Type) where
  disk : Disk m
  clock : Clock
  /-- Takes over the variables in a file of them, if there is one. -/
  loadVariables : m (Except String Unit)
  help : Option CommandName → String

structure Session where
  output : String := ""
  errors : String := ""
  level : Level := .warning
  logFile : Option Disk.Path := none

/-- A computation of a call, which an ending cuts short. -/
abbrev Run (m : Type → Type) (α : Type) := ExceptT Ending (StateT Session m) α

variable {m : Type → Type} [Monad m]

def onDisk {α : Type} (x : m α) : Run m α :=
  ExceptT.mk (StateT.lift (Except.ok <$> x))

def print (text : String) : Run m Unit :=
  modify fun s => { s with output := s.output ++ text }

def printError (text : String) : Run m Unit :=
  modify fun s => { s with errors := s.errors ++ text }

def endIf (isCase : Bool) (e : Ending) : Run m Unit :=
  if isCase then throw e else return

def fail {α : Type} (text : String) : Run m α := do
  printError text
  throw .failure

/-! ## Messages -/

/-- Messages go to the console from its level on, and all of them to the log file. -/
def tell (disk : Disk m) (clock : Clock) (e : Entry) : Run m Unit := do
  let s ← get
  let text := line clock.wallNow e
  if s.level.number ≤ e.level.number then printError text
  match s.logFile with
  | some path => let _ ← onDisk (disk.append path text)
  | none => return

/-- Runs a computation that leaves messages, and passes them on. -/
def telling {ε α : Type} (disk : Disk m) (clock : Clock) (x : Logged ε α) : Run m (Except ε α) := do
  let (result, entries) := x.run []
  entries.forM (tell disk clock)
  return result

/-- Crashes if the log file cannot be made. -/
def needed (x : Except DiskError Unit) : Run m Unit :=
  match x with
  | .ok _ => return
  | .error e => throw (.crash (.logFile e))

def openLog (disk : Disk m) (clock : Clock) (settings : Settings) (action : String) : Run m Unit := do
  if settings.logToFile then
    let path := actionPath settings.logFolder action clock.wallNow
    needed (← onDisk (disk.makeFolders path.parent))
    needed (← onDisk (disk.append path ""))
    modify fun s => { s with level := settings.level, logFile := some path }
    tell disk clock ⟨.debug, "Log file: " ++ path.text⟩
  else modify fun s => { s with level := settings.level }

/-! ## Settings -/

def defaultsPath : Disk.Path :=
  Disk.Path.ofText "config/default.yml"

/-- A fault of a document that is reported; the others crash. -/
def isReported : Yaml.YamlError → Bool
  | .codeTooLarge code => code ≤ Yaml.greatestCode
  | .malformed => false
  | .emptyNumber => false
  | .unknownTruth _ => false
  | .noTimestamp => false
  | _ => true

def refuseSettings {α : Type} (path : Disk.Path) (e : LoadError) : Run m α :=
  let report := fail ("Error: Cannot load config " ++ path.text ++ ": " ++ e.message ++ "\n")
  match e with
  | .noDocument .halfPair => throw .untold
  | .noDocument cause => if isReported cause then report else throw (.crash (.settings cause))
  | _ => report

def loadSettings (disk : Disk m) (path : Disk.Path) : Run m Settings := do
  match ← onDisk (loadLayered disk path defaultsPath).run with
  | .ok settings => return settings
  | .error e => refuseSettings path e

/-! ## Commands -/

def matcherOf (clock : Clock) (settings : Settings) : Matcher :=
  .standard clock settings.lexicon Record.kind

def failSearch {α : Type} (disk : Disk m) (clock : Clock) (reason : String) : Run m α := do
  tell disk clock ⟨.error, "Search failed: " ++ reason⟩
  fail "Aborted!\n"

def searchResult {ε α : Type} (disk : Disk m) (clock : Clock) (message : ε → String) (x : Except ε α) :
    Run m α :=
  match x with
  | .ok a => pure a
  | .error e => failSearch disk clock (message e)

def holdsHalfPair : Except TextFileError (List Char) → Bool
  | .ok text => Json.holdsHalfPair false text
  | .error _ => false

def readStore (disk : Disk m) (clock : Clock) (path : Disk.Path) : Run m (List Record) := do
  tell disk clock ⟨.debug, "Record store: " ++ path.text⟩
  let text ← onDisk (disk.readText path)
  endIf (holdsHalfPair text) .untold
  let items ← telling disk clock (Store.itemsOfText clock path.text text)
  return (← searchResult disk clock Store.StoreError.message items).map Record.item

def runSearch (disk : Disk m) (clock : Clock) (settings : Settings) (o : SearchOptions) : Run m Unit := do
  openLog disk clock settings CommandName.search.name
  let writers ← searchResult disk clock id
    (match writersOf? o.explain settings.formats with
      | some writers => .ok writers
      | none => .error noWriters)
  let records ← readStore disk clock (Disk.Path.ofText (o.records.getD settings.storePath))
  let order := (o.order.getD settings.order).name
  let limit := o.limit.getD settings.limit
  tell disk clock ⟨.debug, "Searching " ++ countText records.length ++ " records for " ++
    String.ofList (quoted o.query.toList) ++ " (sort=" ++ order ++ " limit=" ++
    String.ofList (integerText limit) ++ ")"⟩
  let service : Service := { matcher := matcherOf clock settings, workload := { workers := settings.workers } }
  let found ← telling disk clock (service.search (.text o.query) records order limit)
  let result ← searchResult disk clock SearchError.message found
  let ((writers, fault), entries) := (writeAll clock result writers).run []
  entries.forM (tell disk clock)
  match fault with
  | some e => failSearch disk clock e.message
  | none => print (finishAll writers).1

def runParse (disk : Disk m) (clock : Clock) (settings : Settings) (query : String) : Run m Unit := do
  openLog disk clock settings CommandName.parse.name
  match ← telling disk clock (compileLogged clock settings.lexicon (.text query)) with
  | .error e => throw (.crash (.query e))
  | .ok f =>
    match f.toEntries with
    | .error e => throw (.crash (.filter e))
    | .ok entries => print (Json.document (some 2) (.dict entries) ++ "\n")

/-- Whether a word names what cannot be read as a file: a folder, or a file without leave. -/
def isRefused (disk : Disk m) (word : String) : Run m Bool := do
  if word = "" then return false
  else
    match ← onDisk (disk.status (Disk.Path.ofText word)) with
    | .ok .nothing => return false
    | .ok .folder => return true
    | .ok (.file readable) => return !readable
    | .error e => if e.fault = .nullInPath then throw (.crash (.path e)) else return false

def runCommand (sys : System m) (settings : Settings) : Command → Run m Unit
  | .help name => print (sys.help (some name))
  | .cheatSheet => print cheatSheet
  | .parse query => runParse sys.disk sys.clock settings query
  | .search o => do
    endIf (← isRefused sys.disk (o.records.getD "")) .usage
    runSearch sys.disk sys.clock settings o

def loadVariables (sys : System m) : Run m Unit := do
  match ← onDisk sys.loadVariables with
  | .ok _ => return
  | .error reason => throw (.crash (.environment reason))

def runCall (sys : System m) (arguments : List String) : Run m Unit := do
  match callOf? arguments with
  | none => throw .usage
  | some .help => print (sys.help none)
  | some (.command place name words) =>
    let place := place.getD defaultsPath.text
    endIf (← isRefused sys.disk place) .usage
    loadVariables sys
    let settings ← loadSettings sys.disk (Disk.Path.ofText place)
    match commandOf? name words with
    | none => throw .usage
    | some command => runCommand sys settings command

structure Outcome where
  ending : Ending
  output : String
  errors : String

/-- Arguments are bytes, and those that are no text hold halves of pairs in their place. -/
def wordsOf? (arguments : List (List UInt8)) : Option (List String) :=
  arguments.mapM fun bytes => (decodeUtf8 bytes).toOption.map String.ofList

def run (sys : System m) (arguments : List (List UInt8)) : m Outcome := do
  match wordsOf? arguments with
  | none => return ⟨.untold, "", ""⟩
  | some words =>
    let (result, s) ← (runCall sys words).run.run {}
    let ending :=
      match result with
      | .ok _ => .success
      | .error ending => ending
    return ⟨ending, s.output, s.errors⟩

end SearchBox.CommandLine

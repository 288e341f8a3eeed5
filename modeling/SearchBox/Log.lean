import SearchBox.Calendar.Moment
import SearchBox.Disk.Path

/-!
  SearchBox.Log — messages with a level, the lines they are written as, and where the lines of
  an action are kept.
-/

namespace SearchBox.Log

open SearchBox.Calendar SearchBox.Number

inductive Level where
  | debug
  | info
  | warning
  | error
  | critical
  deriving DecidableEq, Repr

namespace Level

def number : Level → Nat
  | debug => 10
  | info => 20
  | warning => 30
  | error => 40
  | critical => 50

def name : Level → String
  | debug => "DEBUG"
  | info => "INFO"
  | warning => "WARNING"
  | error => "ERROR"
  | critical => "CRITICAL"

def tag : Level → String
  | debug => "DEBG"
  | info => "INFO"
  | warning => "WARN"
  | error => "ERRO"
  | critical => "ERRO"

def all : List Level :=
  [debug, info, warning, error, critical]

def ofName? (name : String) : Option Level :=
  all.find? (·.name = name)

theorem ofName?_name (l : Level) : ofName? l.name = some l := by
  cases l <;> decide

end Level

def levelNames : List (String × Nat) :=
  [("CRITICAL", 50), ("FATAL", 50), ("ERROR", 40), ("WARN", 30), ("WARNING", 30), ("INFO", 20),
   ("DEBUG", 10), ("NOTSET", 0)]

/-- The capital of a letter that has one among the Latin letters A to Z. -/
def capital (c : Char) : Char :=
  if c = 'ı' then 'I' else if c = 'ſ' then 'S' else c.toUpper

def capitals (s : String) : String :=
  s.map capital

/-- The number of a level's name in any case; other names count as INFO. -/
def levelNumber (name : String) : Nat :=
  (levelNames.lookup (capitals name)).getD 20

structure Entry where
  level : Level
  message : String
  deriving DecidableEq, Repr

/-- A computation that leaves messages and may fail with an `ε`. -/
abbrev Logged (ε α : Type) := ExceptT ε (StateM (List Entry)) α

def note {ε : Type} (level : Level) (message : String) : Logged ε Unit :=
  modify (· ++ [⟨level, message⟩])

def Logged.ofExcept {ε α : Type} (x : Except ε α) : Logged ε α :=
  ExceptT.mk (pure x)

/-! ## Lines and files -/

/-- A date and time of day as digits with the given separators. -/
def stamp (w : WallTime) (separators : List Char) : List Char :=
  let t := w.timeOfDay
  let date : List Nat :=
    match w.date? with
    | some d => [d.month, d.day]
    | none => [0, 0]
  let parts := (date ++ [t.hour, t.minute, t.second]).map (paddedDigits · 2)
  (List.zipWith (fun part separator => part ++ separator) parts
    (separators.map (fun c => [c]) ++ List.replicate parts.length [])).flatten

/-- A message as `06-15 15:30:00 [INFO] Matched 3 of 120 records`. -/
def line (w : WallTime) (e : Entry) : String :=
  String.ofList (stamp w ['-', ' ', ':', ':']) ++ " [" ++ e.level.tag ++ "] " ++ e.message ++ "\n"

def actionPath (folder action : String) (w : WallTime) : Disk.Path :=
  let folder := Disk.Path.ofText (if folder = "" then "log" else folder)
  let name := action ++ "_" ++ String.ofList (stamp w []) ++ ".log"
  (folder.join (Disk.Path.ofText action)).join (Disk.Path.ofText name)

end SearchBox.Log

import SearchBox.Disk
import SearchBox.Json.Read
import SearchBox.Log
import SearchBox.Record

/-!
  SearchBox.Store — saved items kept in a file: a JSON list of objects, an object that holds
  the list under `items` or `bookmarks`, or one JSON text a line.
-/

namespace SearchBox.Store

open SearchBox.Calendar SearchBox.Json SearchBox.Log SearchBox.Number SearchBox.Text

inductive RowsError where
  | noListInside
  | noListOrObject
  | badLine (number : Nat) (cause : ReadError)
  | tooLong (cause : ReadError)
  deriving DecidableEq, Repr

def RowsError.message (source : String) : RowsError → String
  | noListInside => source ++ ": object root must hold an 'items' or 'bookmarks' list"
  | noListOrObject => source ++ ": root must be a list or an object"
  | badLine number cause =>
    source ++ ":" ++ String.ofList (integerText number) ++ ": invalid JSON (" ++ cause.message ++ ")"
  | tooLong cause => cause.message

def ReadError.isTooLong : ReadError → Bool
  | .integerTooLong _ => true
  | _ => false

/-- The rows of lines, the first of which has the given number. Blank lines count but hold no
    row. -/
def rowsOfLines (number : Nat) : List (List Char) → Except RowsError (List Value)
  | [] => .ok []
  | line :: later =>
    if isBlankText line then rowsOfLines (number + 1) later
    else
      match Json.read line with
      | .ok v => do return v :: (← rowsOfLines (number + 1) later)
      | .error e => if ReadError.isTooLong e then .error (.tooLong e) else .error (.badLine number e)

/-- The names under which an object may hold the list. -/
def wrapperNames : List String :=
  ["items", "bookmarks"]

def rowsOfDocument : Value → Except RowsError (List Value)
  | .list rows => .ok rows
  | .dict es =>
    match wrapperNames.findSome? fun name =>
      match Entries.get? es name with
      | some (.list rows) => some rows
      | _ => none with
    | some rows => .ok rows
    | none => .error .noListInside
  | _ => .error .noListOrObject

/-- The rows of a text. A text that is not one document is read line by line. -/
def rowsOf (text : List Char) : Except RowsError (List Value) :=
  let s := strip text
  if s.isEmpty then .ok []
  else
    match Json.read s with
    | .ok v => rowsOfDocument v
    | .error e => if ReadError.isTooLong e then .error (.tooLong e) else rowsOfLines 1 (lines s)

inductive StoreError where
  | noText (cause : TextFileError)
  | noRows (source : String) (cause : RowsError)
  | noItem (cause : ItemError)
  deriving DecidableEq, Repr

def StoreError.message : StoreError → String
  | noText cause => cause.message
  | noRows source cause => cause.message source
  | noItem cause => cause.message

/-- The items of rows from place `place` on. Rows that are no objects are skipped with a
    warning. -/
def itemsOf (clock : Clock) (source : String) (place : Nat) : List Value → Logged StoreError (List Item)
  | [] => return []
  | row :: later => do
    match row with
    | .dict es =>
      let item ← Logged.ofExcept ((Item.ofEntries clock es).mapError .noItem)
      return item :: (← itemsOf clock source (place + 1) later)
    | _ =>
      note .warning ("Skipping non-object record: source=" ++ source ++ " index=" ++
        String.ofList (integerText place))
      itemsOf clock source (place + 1) later

def itemsOfText (clock : Clock) (source : String) (text : Except TextFileError (List Char)) :
    Logged StoreError (List Item) := do
  let text ← Logged.ofExcept (text.mapError .noText)
  let rows ← Logged.ofExcept ((rowsOf text).mapError (.noRows source))
  let items ← itemsOf clock source 0 rows
  note .debug ("Loaded " ++ String.ofList (integerText items.length) ++ " records from " ++ source)
  return items

end SearchBox.Store

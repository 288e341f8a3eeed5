import SearchBox.Value.Shown

/-!
  SearchBox.Settings.Section — a part of the settings with the name it is read under, so that
  what is wrong with an entry can be said by its full name, `search.limit`. An entry is there
  as soon as its key is, also with a null; a whole section counts as absent if it is null.
-/

namespace SearchBox.Settings

open SearchBox.Number SearchBox.Text

inductive Kind where
  | text
  | flag
  | integer
  | list
  | object
  deriving DecidableEq, Repr

def Kind.phrase : Kind → String
  | text => "a string"
  | flag => "a boolean"
  | integer => "an integer"
  | list => "a list"
  | object => "an object"

inductive EntryError where
  | missing (name : String)
  | wrongKind (name : String) (wanted : Kind)
  | keysNotText (name : String) (keys : List Scalar)
  /-- A key that is no text is an integer with more digits than can be written. -/
  | keyTooLong
  deriving DecidableEq

def EntryError.message : EntryError → String
  | missing name => "Missing required config: " ++ name
  | wrongKind name wanted => name ++ " must be " ++ wanted.phrase
  | keysNotText name keys =>
    name ++ " keys must be strings, got " ++ String.ofList (Value.list (keys.map .scalar)).literal
  | keyTooLong => WriteError.tooManyDigits.message

structure Section where
  /-- The full name, empty for the whole of the settings. -/
  name : String
  entries : Entries

namespace Section

def nameOf (s : Section) (key : String) : String :=
  if s.name = "" then key else s.name ++ "." ++ key

/-- The value of an entry, or the fallback if there is one and the entry is not there. -/
def value (s : Section) (key : String) (fallback : Option Value) : Except EntryError Value :=
  match (Entries.get? s.entries key).or fallback with
  | some v => .ok v
  | none => .error (.missing (s.nameOf key))

def text (s : Section) (key : String) (fallback : Option String := none) : Except EntryError String := do
  match ← s.value key (fallback.map .text) with
  | .text t => return t
  | _ => throw (.wrongKind (s.nameOf key) .text)

def flag (s : Section) (key : String) : Except EntryError Bool := do
  match ← s.value key none with
  | .bool b => return b
  | _ => throw (.wrongKind (s.nameOf key) .flag)

def integer (s : Section) (key : String) (fallback : Option Int := none) : Except EntryError Int := do
  match ← s.value key (fallback.map .int) with
  | .int n => return n
  | _ => throw (.wrongKind (s.nameOf key) .integer)

def textsFrom (name : String) (place : Nat) : List Value → Except EntryError (List String)
  | [] => .ok []
  | .text t :: later => do return t :: (← textsFrom name (place + 1) later)
  | _ :: _ => .error (.wrongKind (name ++ "[" ++ String.ofList (Number.integerText place) ++ "]") .text)

/-- A list of texts. A text on its own is a list of one. -/
def texts (s : Section) (key : String) (fallback : Option (List String) := none) :
    Except EntryError (List String) := do
  match ← s.value key (fallback.map fun ts => .list (ts.map .text)) with
  | .text t => return [t]
  | .list items => textsFrom (s.nameOf key) 0 items
  | .tuple items => textsFrom (s.nameOf key) 0 items
  | _ => throw (.wrongKind (s.nameOf key) .list)

/-- The section of a mapping, whose keys have to be texts. -/
def ofEntries (name : String) (entries : Entries) : Except EntryError Section :=
  match entries.filterMap fun (k, _) => match k with
    | .text _ => none
    | k => some k with
  | [] => .ok ⟨name, entries⟩
  | keys => .error (if keys.all Scalar.isWritable then .keysNotText name keys else .keyTooLong)

def part? (s : Section) (key : String) : Except EntryError (Option Section) :=
  match Entries.getOrNull s.entries key with
  | .null => .ok none
  | .dict entries => some <$> ofEntries (s.nameOf key) entries
  | _ => .error (.wrongKind (s.nameOf key) .object)

/-- The section inside with a key, empty if it is not there. -/
def part (s : Section) (key : String) : Except EntryError Section := do
  return (← s.part? key).getD ⟨s.nameOf key, []⟩

def neededPart (s : Section) (key : String) : Except EntryError Section := do
  match ← s.part? key with
  | some p => return p
  | none => throw (.missing (s.nameOf key))

def keys (s : Section) : List String :=
  s.entries.filterMap fun (k, _) => match k with
    | .text t => some t
    | _ => none

end Section
end SearchBox.Settings

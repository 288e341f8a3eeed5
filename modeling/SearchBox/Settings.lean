import SearchBox.Lexicon
import SearchBox.Log
import SearchBox.Report.Writer
import SearchBox.Search.Arrange
import SearchBox.Settings.Section

/-!
  SearchBox.Settings — what a user can set: how messages are logged, how results are ordered
  and limited, where the saved items are, what formats results are given in, and further words
  for dates and types.

  Settings are taken in two steps. First every entry is read as the kind of value it has to
  be; then the values are checked. So a value of the wrong kind is reported before one that is
  not allowed, wherever the two stand.
-/

namespace SearchBox

open SearchBox.Log SearchBox.Report SearchBox.Search SearchBox.Text

structure Settings where
  level : Level
  logToFile : Bool
  logFolder : String
  order : Order
  /-- The greatest number of results, -1 for no limit. -/
  limit : Int
  /-- The number of scans at a time. -/
  workers : Int
  storePath : String
  formats : List Format
  /-- Words for dates and the days they reach back, beyond the built-in ones. -/
  presets : List (String × Int)
  /-- Words for types and the tags they stand for, beyond the built-in ones. -/
  kinds : List (String × List String)

namespace Settings

inductive SettingsError where
  | notAMapping
  | badEntry (cause : EntryError)
  | unknownLevel
  | emptyLogFolder
  | unknownOrder
  | badLimit
  | badWorkers
  | emptyStorePath
  | noFormats
  | unknownFormats (names : List String)
  | emptyPreset
  | negativePreset (word : String)
  | notAWord (word : String)
  | noTags (word : String)
  deriving DecidableEq

def listText (texts : List String) : String :=
  String.ofList (Value.list (texts.map .text)).literal

def SettingsError.message : SettingsError → String
  | notAMapping => "Config root must be a mapping/object"
  | badEntry cause => cause.message
  | unknownLevel => "log.level must be one of " ++ listText (Level.all.map (·.name))
  | emptyLogFolder => "log.dir must not be empty when log.to_file=true"
  | unknownOrder => "search.sort must be one of " ++ listText (Order.all.map (·.name))
  | badLimit => "search.limit must be -1 or positive"
  | badWorkers => "search.workers must be positive"
  | emptyStorePath => "store.path must not be empty"
  | noFormats => "output.formats must include at least one format"
  | unknownFormats names => "output.formats has unknown format(s): " ++ listText names
  | emptyPreset => "vocabulary.date_presets keys must not be empty"
  | negativePreset word => "vocabulary.date_presets." ++ word ++ " must be >= 0"
  | notAWord word =>
    "vocabulary.type_mappings key is not a single word: " ++ String.ofList (Value.text word).literal
  | noTags word => "vocabulary.type_mappings." ++ word ++ " must list at least one type"

/-! ## Reading -/

/-- Entries as they are written, each of the right kind. -/
structure Draft where
  level : String
  logToFile : Bool
  logFolder : String
  order : String
  limit : Int
  workers : Int
  storePath : String
  formats : List String
  presets : List (String × Int)
  kinds : List (String × List String)

/-- A text without white space around it, lower-cased. -/
def plain (s : String) : String :=
  String.ofList (lower (strip s.toList))

/-- A word for a date, lower-cased and with single spaces. -/
def presetWord (s : String) : String :=
  String.ofList (lower (joinWith [' '] (words s.toList)))

/-- The texts that are not empty, each once. -/
def distinct (texts : List String) : List String :=
  texts.foldl (fun found t => if t = "" ∨ t ∈ found then found else found ++ [t]) []

namespace Draft

def ofSection (root : Section) : Except EntryError Draft := do
  let log ← root.neededPart "log"
  let level ← log.text "level"
  let logToFile ← log.flag "to_file"
  let logFolder ← log.text "dir" (some "log")
  let search ← root.part "search"
  let order ← search.text "sort" (some Order.store.name)
  let limit ← search.integer "limit" (some (-1))
  let workers ← search.integer "workers" (some 1)
  let store ← root.neededPart "store"
  let storePath ← store.text "path"
  let output ← root.part "output"
  let formats ← output.texts "formats" (some [Format.console.name])
  let vocabulary ← root.part "vocabulary"
  let presets ← vocabulary.part "date_presets"
  let presets ← presets.keys.mapM fun key => do return (presetWord key, ← presets.integer key)
  let kinds ← vocabulary.part "type_mappings"
  let kinds ← kinds.keys.mapM fun key => do return (plain key, (← kinds.texts key).map plain)
  return {
    level := capitals (String.ofList (strip level.toList))
    logToFile := logToFile
    logFolder := logFolder
    order := plain order
    limit := limit
    workers := workers
    storePath := storePath
    formats := distinct (formats.map plain)
    presets := presets
    kinds := kinds }

end Draft

/-! ## Checking -/

def isBlankString (s : String) : Bool :=
  isBlankText s.toList

def checkPreset (word : String) (days : Int) : Except SettingsError Unit :=
  if word = "" then .error .emptyPreset
  else if days < 0 then .error (.negativePreset word)
  else .ok ()

/-- A word for a type is a single word, as it stands after `type:`. -/
def isTypeWord (word : String) : Bool :=
  word ≠ "" && word.toList.all fun c => c ≠ ':' && !isBlank c

def checkKind (word : String) (tags : List String) : Except SettingsError Unit :=
  if !isTypeWord word then .error (.notAWord word)
  else if tags.isEmpty || tags.contains "" then .error (.noTags word)
  else .ok ()

/-- All words have to be ones that queries can use. -/
def checkLexicon (lexicon : Lexicon) : Except SettingsError Unit := do
  lexicon.presets.forM fun (word, days) => checkPreset word days
  lexicon.kinds.forM fun (word, tags) => checkKind word tags

def formatsOf (names : List String) : Except SettingsError (List Format) :=
  if names.isEmpty then .error .noFormats
  else
    match names.filter fun name => (Format.ofName? name).isNone with
    | [] => .ok (names.filterMap Format.ofName?)
    | unknown => .error (.unknownFormats unknown)

def lexicon (s : Settings) : Lexicon :=
  Lexicon.builtin.overlay s.presets s.kinds

def Draft.check (d : Draft) : Except SettingsError Settings := do
  let some level := Level.ofName? d.level | throw .unknownLevel
  if d.logToFile && isBlankString d.logFolder then throw .emptyLogFolder
  let some order := Order.ofName? d.order | throw .unknownOrder
  if d.limit = 0 ∨ d.limit < -1 then throw .badLimit
  if d.workers ≤ 0 then throw .badWorkers
  if isBlankString d.storePath then throw .emptyStorePath
  let formats ← formatsOf d.formats
  let settings : Settings := {
    level := level
    logToFile := d.logToFile
    logFolder := d.logFolder
    order := order
    limit := d.limit
    workers := d.workers
    storePath := d.storePath
    formats := formats
    presets := d.presets
    kinds := d.kinds }
  checkLexicon settings.lexicon
  return settings

def ofEntries (entries : Entries) : Except SettingsError Settings := do
  (← (Draft.ofSection ⟨"", entries⟩).mapError .badEntry).check

/-- The mapping that a document has to be. A null, false, zero or empty one counts as empty. -/
def root (document : Value) : Except SettingsError Entries :=
  if document.isTruthy then
    match document with
    | .dict entries => .ok entries
    | _ => .error .notAMapping
  else .ok []

end Settings
end SearchBox

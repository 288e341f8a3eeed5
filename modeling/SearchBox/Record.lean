import SearchBox.Calendar.Instant
import SearchBox.Text.LowerCase
import SearchBox.Value.Shown

/-!
  SearchBox.Record — what is searched. A record is a mapping, an object with the same names as
  attributes, or an item: a mapping read once into typed fields. Any other value is a record
  with hardly any fields. All of them are read through `lookup`. A field that holds an integer
  with too many digits to be written has no text, and what needs its text fails.
-/

namespace SearchBox

open SearchBox.Calendar SearchBox.Number SearchBox.Text

structure Item where
  id : String
  title : Option String
  notes : Option String
  content : Option String
  url : Option String
  description : Option String
  tags : List String
  createdAt : Option Moment
  type : Option String
  category : Option String
  /-- The entries under other names. -/
  extra : Entries

inductive Record where
  | mapping (entries : Entries)
  | object (attributes : Entries)
  | item (item : Item)
  /-- `method` is how a text's own method `title` is shown. It differs from run to run. -/
  | other (value : Value) (method : String)

namespace Record

inductive Field where
  | id
  | title
  | notes
  | content
  | url
  | description
  | type
  | category
  deriving DecidableEq, Repr

def Field.name : Field → String
  | id => "id"
  | title => "title"
  | notes => "notes"
  | content => "content"
  | url => "url"
  | description => "description"
  | type => "type"
  | category => "category"

def Field.all : List Field :=
  [.id, .title, .notes, .content, .url, .description, .type, .category]

/-- The fields that terms and phrases are searched in. -/
def Field.searched : List Field :=
  [.title, .notes, .content, .url, .description]

end Record

namespace Item

def optional (t : Option String) : Value :=
  (t.map .text).getD .null

def lookup (i : Item) (name : String) : Value :=
  if name = "id" then .text i.id
  else if name = "title" then optional i.title
  else if name = "notes" then optional i.notes
  else if name = "content" then optional i.content
  else if name = "url" then optional i.url
  else if name = "description" then optional i.description
  else if name = "type" then optional i.type
  else if name = "category" then optional i.category
  else if name = "tags" then .tuple (i.tags.map .text)
  else if name = "created_at" then (i.createdAt.map fun m => .scalar (.time (.fixed m))).getD .null
  else .null

end Item

namespace Record

/-- Texts and bytes have a method with the name of a field. -/
def hasTitleMethod : Value → Bool
  | .text _ => true
  | .scalar (.bytes _) => true
  | _ => false

def lookup : Record → String → Value
  | mapping es, name => Entries.getOrNull es name
  | object es, name => Entries.getOrNull es name
  | item i, name => i.lookup name
  | other v method, name => if name = "title" ∧ hasTitleMethod v then .text method else .null

/-- The text of a field, empty if there is none. Values that are no text are shown. -/
def field (r : Record) (f : Field) : Except WriteError String :=
  match r.lookup f.name with
  | .null => .ok ""
  | v => v.shownText

/-- The texts among the tags, which have to be a sequence. -/
def tags (r : Record) : List String :=
  ((r.lookup "tags").items?.getD []).filterMap Value.text?

/-- The value of the creation time, which has two names. -/
def createdAtValue (r : Record) : Value :=
  match r.lookup "created_at" with
  | .null => r.lookup "createdAt"
  | v => v

def createdAt (clock : Clock) (r : Record) : Except InstantError (Option Moment) :=
  momentOf clock r.createdAtValue

/-- All text that terms and phrases are searched in, lower-cased. -/
def searchText (r : Record) : Except WriteError (List Char) := do
  let fields ← Field.searched.mapM r.field
  return lower (joinWith [' '] (fields.map String.toList ++ [joinWith [' '] (r.tags.map String.toList)]))

end Record

inductive ItemError where
  | noId (cause : WriteError)
  | badInstant (cause : InstantError)
  deriving DecidableEq, Repr

def ItemError.message : ItemError → String
  | noId cause => cause.message
  | badInstant cause => cause.message

namespace Item

/-- The names that have a place of their own. -/
def knownNames : List String :=
  ["title", "notes", "content", "url", "description", "created_at", "createdAt", "id", "tags", "type",
   "category"]

def idOf (v : Value) : Except ItemError String :=
  if v.isTruthy then v.shownText.mapError .noId else .ok ""

/-- The item of a mapping. Values of text fields that are no text are dropped. -/
def ofEntries (clock : Clock) (es : Entries) : Except ItemError Item := do
  let text (name : String) : Option String := (Entries.getOrNull es name).text?
  let id ← idOf (Entries.getOrNull es "id")
  let createdAt ← (Record.createdAt clock (.mapping es)).mapError .badInstant
  return {
    id := id
    title := text "title"
    notes := text "notes"
    content := text "content"
    url := text "url"
    description := text "description"
    tags := Record.tags (.mapping es)
    createdAt := createdAt
    type := text "type"
    category := text "category"
    extra := es.filter fun (k, _) => !knownNames.any fun name => k.sameKey (.text name) }

end Item
end SearchBox

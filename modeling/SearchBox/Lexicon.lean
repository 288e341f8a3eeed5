import SearchBox.Text.LowerCase
import SearchBox.Value.Shape
import SearchBox.Value.Shown

/-!
  SearchBox.Lexicon — the two tables of keywords that queries use: words for `date:` with the
  number of days that they reach back, and words for `type:` with the type tags that they
  stand for. Keys and tags are lower-cased, and a key stands in its table once.
-/

namespace SearchBox

open SearchBox.Text

/-- Entries in order, each key once. -/
abbrev Table (α : Type) := List (String × α)

namespace Table

variable {α : Type}

/-- Writes a value under a key: in place if the key is there, else at the end. -/
def put (key : String) (value : α) : Table α → Table α
  | [] => [(key, value)]
  | (k, v) :: rest => if k = key then (k, value) :: rest else (k, v) :: put key value rest

@[simp] theorem lookup_put_self (key : String) (value : α) (t : Table α) :
    (put key value t).lookup key = some value := by
  induction t with
  | nil => simp [put]
  | cons e rest ih =>
    obtain ⟨k, v⟩ := e
    by_cases h : k = key
    · simp [put, h]
    · simp [put, h, List.lookup_cons, beq_false_of_ne (Ne.symm h), ih]

theorem lookup_put_of_ne {key other : String} (h : other ≠ key) (value : α) (t : Table α) :
    (put key value t).lookup other = t.lookup other := by
  induction t with
  | nil => simp [put, List.lookup_cons, beq_false_of_ne h]
  | cons e rest ih =>
    obtain ⟨k, v⟩ := e
    by_cases hk : k = key
    · simp [put, hk, List.lookup_cons, beq_false_of_ne h]
    · simp [put, hk, List.lookup_cons, ih]

def update (table : Table α) (writes : List (String × α)) : Table α :=
  writes.foldl (fun t (k, v) => put k v t) table

/-- The table of entries with keys in any case. Of those with the same lower-cased key the
    last one counts. -/
def ofWrites (writes : List (String × α)) : Table α :=
  update [] (writes.map fun (k, v) => (lowerText k, v))

end Table

structure Lexicon where
  /-- Words for a date and how many days they reach back from today. -/
  presets : Table Int
  /-- Words for a type and the type tags they stand for. -/
  kinds : Table (List String)
  deriving DecidableEq, Repr

namespace Lexicon

def dayOffset? (lexicon : Lexicon) (word : String) : Option Int :=
  lexicon.presets.lookup (lowerText word)

/-- The type tags that a word stands for, none if it is not known. -/
def tagsOf (lexicon : Lexicon) (word : String) : List String :=
  (lexicon.kinds.lookup (lowerText word)).getD []

/-- The lexicon of entries in any case. -/
def ofWrites (presets : List (String × Int)) (kinds : List (String × List String)) : Lexicon :=
  { presets := Table.ofWrites presets
    kinds := Table.ofWrites (kinds.map fun (k, tags) => (k, tags.map lowerText)) }

def builtin : Lexicon where
  presets :=
    [("today", 0), ("yesterday", 1), ("lastweek", 7), ("last week", 7), ("thisweek", 7),
     ("this week", 7), ("week", 7), ("lastmonth", 30), ("last month", 30), ("thismonth", 30),
     ("this month", 30), ("month", 30), ("quarter", 90), ("lastquarter", 90), ("year", 365),
     ("lastyear", 365)]
  kinds :=
    [("article", ["article", "website", "link"]), ("articles", ["article", "website", "link"]),
     ("website", ["article"]), ("websites", ["article"]), ("note", ["note"]), ("notes", ["note"]),
     ("snippet", ["note"]), ("snippets", ["note"]), ("video", ["youtube"]), ("videos", ["youtube"]),
     ("youtube", ["youtube"]), ("image", ["image"]), ("images", ["image"]), ("tweet", ["tweet"]),
     ("tweets", ["tweet"]), ("post", ["tweet", "reddit"]), ("posts", ["tweet", "reddit"]),
     ("reddit", ["reddit"]), ("wiki", ["wikipedia"]), ("wikipedia", ["wikipedia"])]

/-- The lexicon with further entries, which win over those it has. -/
def overlay (lexicon : Lexicon) (presets : List (String × Int)) (kinds : List (String × List String)) :
    Lexicon :=
  ofWrites (Table.update lexicon.presets presets) (Table.update lexicon.kinds kinds)

/-! ## Entries of any kind -/

def presetEntries (lexicon : Lexicon) : Entries :=
  lexicon.presets.map fun (k, n) => (.text k, .int n)

def kindEntries (lexicon : Lexicon) : Entries :=
  lexicon.kinds.map fun (k, tags) => (.text k, .list (tags.map .text))

def textOf (v : Value) : Except ShapeError String :=
  v.shownText.mapError .noText

def presetWrites (entries : Entries) : Except ShapeError (List (String × Int)) :=
  entries.mapM fun (k, v) => do return (← textOf (.scalar k), ← v.toInteger)

def kindWrites (entries : Entries) : Except ShapeError (List (String × List String)) :=
  entries.mapM fun (k, v) => do return (← textOf (.scalar k), ← (← v.members).mapM textOf)

def ofValues (presets kinds : Value) : Except ShapeError Lexicon := do
  let presets ← presetWrites (← presets.entries)
  let kinds ← kindWrites (← kinds.entries)
  return ofWrites presets kinds

def merge (lexicon : Lexicon) (presets kinds : Value) : Except ShapeError Lexicon := do
  let presets ← lexicon.presetEntries.update presets
  let kinds ← lexicon.kindEntries.update kinds
  return ofWrites (← presetWrites presets) (← kindWrites kinds)

end Lexicon
end SearchBox

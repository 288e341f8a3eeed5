import SearchBox.Calendar.DaySpan

/-!
  SearchBox.Query.Filter — what a query asks for: one list of values for each way to restrict
  the records. Terms, choices and phrases have to occur, excluded ones must not; of types,
  sites, formats, objects and texts one has to fit, of tags all. Dates are given by a preset
  or by a single day.
-/

namespace SearchBox.Query

open SearchBox.Calendar

structure Filter where
  terms : List String := []
  choices : List (String × String) := []
  phrases : List String := []
  excludedTerms : List String := []
  excludedPhrases : List String := []
  objects : List String := []
  texts : List String := []
  types : List String := []
  formats : List String := []
  /-- The word for the earliest date. -/
  since : Option String := none
  day : Option DaySpan := none
  sites : List String := []
  tags : List String := []
  /-- Terms and phrases with spaces between them, for ranking by other means. -/
  freeText : String := ""
  deriving DecidableEq, Repr

namespace Filter

/-- The preset, unless it is the empty word. -/
def preset? (f : Filter) : Option String :=
  f.since.filter (· ≠ "")

def isEmpty (f : Filter) : Bool :=
  f.terms.isEmpty && f.choices.isEmpty && f.phrases.isEmpty && f.excludedTerms.isEmpty &&
    f.excludedPhrases.isEmpty && f.objects.isEmpty && f.texts.isEmpty && f.types.isEmpty &&
    f.formats.isEmpty && f.preset?.isNone && f.day.isNone && f.sites.isEmpty && f.tags.isEmpty

theorem isEmpty_default : ({} : Filter).isEmpty = true := rfl

def joined (terms phrases : List String) : String :=
  String.intercalate " " (terms ++ phrases)

end Filter
end SearchBox.Query

import SearchBox.Calendar.Literal
import SearchBox.Query.Filter
import SearchBox.Value.Shown

/-!
  SearchBox.Query.Literal — filters in the long form that messages use for them, with every
  field named.
-/

namespace SearchBox.Query

open SearchBox.Calendar SearchBox.Text

def DaySpan.literal (span : DaySpan) : List Char :=
  callText "DateRange" ["start=".toList ++ span.first.literal, "end=".toList ++ span.last.literal]

namespace Filter

def textTuple (texts : List String) : Value :=
  .tuple (texts.map .text)

def fieldLiteral (name : String) (literal : List Char) : List Char :=
  name.toList ++ '=' :: literal

def literal (f : Filter) : List Char :=
  callText "FilterSpec" [
    fieldLiteral "terms" (textTuple f.terms).literal,
    fieldLiteral "or_groups" (Value.tuple (f.choices.map fun (a, b) => textTuple [a, b])).literal,
    fieldLiteral "exact_phrases" (textTuple f.phrases).literal,
    fieldLiteral "exclude_terms" (textTuple f.excludedTerms).literal,
    fieldLiteral "exclude_phrases" (textTuple f.excludedPhrases).literal,
    fieldLiteral "object_search" (textTuple f.objects).literal,
    fieldLiteral "text_search" (textTuple f.texts).literal,
    fieldLiteral "types" (textTuple f.types).literal,
    fieldLiteral "formats" (textTuple f.formats).literal,
    fieldLiteral "date_filter" ((f.since.map Value.text).getD .null).literal,
    fieldLiteral "date_range" ((f.day.map DaySpan.literal).getD Value.null.literal),
    fieldLiteral "sites" (textTuple f.sites).literal,
    fieldLiteral "tags" (textTuple f.tags).literal,
    fieldLiteral "raw_query" (Value.text f.freeText).literal]

end Filter
end SearchBox.Query

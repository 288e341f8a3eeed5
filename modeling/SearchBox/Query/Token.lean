/-!
  SearchBox.Query.Token — the units a query is made of. A token has one value, two for a
  choice, and the span of the query that it was read from.
-/

namespace SearchBox.Query

inductive TokenKind where
  | excludedPhrase
  | phrase
  | choice
  | object
  | text
  | type
  | format
  | date
  | site
  | tag
  | hashtag
  | excluded
  | term
  deriving DecidableEq, Repr

namespace TokenKind

def name : TokenKind → String
  | excludedPhrase => "exclude_phrase"
  | phrase => "phrase"
  | choice => "or"
  | object => "object"
  | text => "text"
  | type => "type"
  | format => "format"
  | date => "date"
  | site => "site"
  | tag => "tag"
  | hashtag => "hashtag"
  | excluded => "exclude"
  | term => "term"

def all : List TokenKind :=
  [excludedPhrase, phrase, choice, object, text, type, format, date, site, tag, hashtag, excluded, term]

def ofName? (name : String) : Option TokenKind :=
  all.find? (·.name = name)

theorem mem_all (k : TokenKind) : k ∈ all := by
  cases k <;> decide

theorem ofName?_name (k : TokenKind) : ofName? k.name = some k := by
  cases k <;> decide

end TokenKind

structure Token where
  kind : TokenKind
  values : List String
  /-- The first character's place in the query. -/
  start : Nat
  /-- The place after the last character. -/
  stop : Nat
  deriving DecidableEq, Repr

def Token.value (t : Token) : String :=
  t.values.headD ""

end SearchBox.Query

import SearchBox.Text.Blank
import SearchBox.Text.Digits
import SearchBox.Text.Letters

/-!
  SearchBox.Calendar.Written.Token — the pieces that a written date is read in: words, numbers
  and single other characters, white space of any kind being one space. A point or, after two
  digits, a comma may stand inside a number; where letters or further points join in, the
  piece is cut at its points and commas again. NUL characters are passed over.
-/

namespace SearchBox.Calendar.Written

open SearchBox.Text

/-- A piece of a written date, never empty. -/
abbrev Token := List Char

inductive Shape where
  | word
  | number
  | dottedWord
  | dottedNumber
  deriving DecidableEq

/-- A piece that is still open, its characters in reverse. -/
structure OpenToken where
  shape : Shape
  reversed : List Char
  /-- Whether a character was looked at while the piece was a word. -/
  letters : Bool := false

namespace OpenToken

/-- The open piece with the next character, if it belongs to it. -/
def extend? (t : OpenToken) (c : Char) : Option OpenToken :=
  let more (shape : Shape) (letters : Bool) : OpenToken := ⟨shape, c :: t.reversed, letters⟩
  match t.shape with
  | .word =>
    if isLetter c then some (more .word true)
    else if c = '.' then some (more .dottedWord true)
    else none
  | .number =>
    if isDigit c then some (more .number t.letters)
    else if c = '.' || c = ',' && 2 ≤ t.reversed.length then some (more .dottedNumber t.letters)
    else none
  | .dottedWord =>
    if c = '.' || isLetter c then some (more .dottedWord true)
    else if isDigit c && t.reversed.head? = some '.' then some (more .dottedNumber true)
    else none
  | .dottedNumber =>
    if c = '.' || isDigit c then some (more .dottedNumber t.letters)
    else if isLetter c && t.reversed.head? = some '.' then some (more .dottedWord t.letters)
    else none

/-- Whether a character that ended the piece was still looked at as one of a word. -/
def lettersAtEnd (t : OpenToken) (ended : Bool) : Bool :=
  t.letters || ended && (t.shape = .word || t.shape = .dottedWord)

/-- Cuts at points and commas, which become pieces of their own. -/
def cut : List Char → List Token
  | [] => []
  | c :: rest =>
    if c = '.' ∨ c = ',' then [c] :: cut rest
    else
      match rest, cut rest with
      | d :: _, t :: ts => if d = '.' ∨ d = ',' then [c] :: t :: ts else (c :: t) :: ts
      | _, _ => [[c]]

/-- The pieces of a finished one; `ended` says that another character followed. -/
def close (t : OpenToken) (ended : Bool) : List Token :=
  let s := t.reversed.reverse
  let endsInMark := t.reversed.head? = some '.' || t.reversed.head? = some ','
  match t.shape with
  | .word => [s]
  | .number => [s]
  | .dottedWord =>
    if t.lettersAtEnd ended || 1 < s.count '.' || endsInMark then cut s else [s]
  | .dottedNumber =>
    if t.lettersAtEnd ended || 1 < s.count '.' || endsInMark then cut s
    else if s.contains '.' then [s]
    else [s.map fun c => if c = ',' then '.' else c]

end OpenToken

/-- The piece that a character opens, or the piece that it is. -/
def openToken (c : Char) : OpenToken ⊕ Token :=
  if isLetter c then .inl ⟨.word, [c], false⟩
  else if isDigit c then .inl ⟨.number, [c], false⟩
  else if isBlank c then .inr [' ']
  else .inr [c]

/-- The pieces of a text, the first of which may be open. -/
def tokensFrom : Option OpenToken → List Char → List Token
  | none, [] => []
  | some t, [] => t.close false
  | none, c :: rest =>
    match openToken c with
    | .inl t => tokensFrom (some t) rest
    | .inr token => token :: tokensFrom none rest
  | some t, c :: rest =>
    match t.extend? c with
    | some t => tokensFrom (some t) rest
    | none =>
      t.close true ++
        match openToken c with
        | .inl t => tokensFrom (some t) rest
        | .inr token => token :: tokensFrom none rest

def tokens (s : List Char) : List Token :=
  tokensFrom none (s.filter (· ≠ '\x00'))

end SearchBox.Calendar.Written

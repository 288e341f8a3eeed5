import SearchBox.Number.Numeral
import SearchBox.Text.Utf8
import SearchBox.Json.Read
import SearchBox.Yaml.Cursor
import SearchBox.Yaml.Error

/-!
  SearchBox.Yaml.Tag — names of anchors, tags as they are written, and the directives that
  say what the short forms of tags stand for.
-/

namespace SearchBox.Yaml

open SearchBox.Number SearchBox.Text

/-- A tag as it is written: a handle, if it has one, and what follows it. -/
structure WrittenTag where
  handle : Option String
  suffix : String
  deriving DecidableEq, Repr

inductive Directive where
  | version (major minor : Nat)
  | tagHandle (handle expansion : String)
  | other (name : String)
  deriving DecidableEq, Repr

def isNameChar (c : Char) : Bool :=
  c.isAlphanum || c = '-' || c = '_'

def takeName (c : Cursor) : Except YamlError (String × Cursor) :=
  match c.takeWhile isNameChar with
  | ([], _) => .error .malformed
  | (name, c) => .ok (String.ofList name, c)

def endsAnchor : List Char → Bool
  | [] => true
  | c :: _ => isSpace c || isBreak c || "?:,]\x7d%@\x60".toList.contains c

def anchorName (c : Cursor) : Except YamlError (String × Cursor) := do
  let (name, c) ← takeName c.next
  if endsAnchor c.rest then return (name, c) else throw .malformed

/-! ## Tags -/

def isTagChar (c : Char) : Bool :=
  c.isAlphanum || "-;/?:@&=+$,_.!~*'()[]".toList.contains c

/-- Bytes written as a percent sign and two digits each. -/
def percentBytes : Nat → Cursor → Except YamlError (List UInt8 × Cursor)
  | 0, c => .ok ([], c)
  | fuel + 1, c =>
    match c.rest with
    | '%' :: a :: b :: _ =>
      match Json.hexValue? a, Json.hexValue? b with
      | some x, some y => do
        let (bytes, c) ← percentBytes fuel (c.advance 3)
        return (UInt8.ofNat (16 * x + y) :: bytes, c)
      | _, _ => .error .malformed
    | '%' :: _ => .error .malformed
    | _ => .ok ([], c)

/-- The characters of a tag, those written as bytes decoded; `text` is what was read. -/
def tagChars : Nat → List Char → Cursor → Except YamlError (List Char × Cursor)
  | 0, _, _ => .error .malformed
  | fuel + 1, text, c => do
    let (run, c) := c.takeWhile isTagChar
    let text := text ++ run
    if c.startsWith '%' then
      let (bytes, c) ← percentBytes (c.rest.length + 1) c
      match decodeUtf8 bytes with
      | .ok more => tagChars fuel (text ++ more) c
      | .error _ => throw .malformed
    else return (text, c)

def tagText (c : Cursor) : Except YamlError (String × Cursor) := do
  if !(c.rest.head?.any fun x => isTagChar x || x = '%') then throw .malformed
  let (text, c) ← tagChars (c.rest.length + 1) [] c
  return (String.ofList text, c)

/-- A handle: an exclamation mark, or a name between two of them. -/
def tagHandle (c : Cursor) : Except YamlError (String × Cursor) :=
  match c.rest with
  | '!' :: rest =>
    if rest.head? = some ' ' then .ok ("!", c.next)
    else
      let name := rest.takeWhile isNameChar
      if (rest.drop name.length).head? = some '!' then
        .ok (String.ofList ('!' :: name ++ ['!']), c.advance (name.length + 2))
      else .error .malformed
  | _ => .error .malformed

/-- Whether a second exclamation mark follows before the word ends. -/
def hasNamedHandle (afterMark : List Char) : Bool :=
  (afterMark.takeWhile fun c => !(c = ' ' || isBreak c)).contains '!'

def writtenTag (c : Cursor) : Except YamlError (WrittenTag × Cursor) := do
  let (tag, c) ← (match c.next.rest with
    | '<' :: _ => do
      let (text, c) ← tagText (c.advance 2)
      if c.startsWith '>' then return (⟨none, text⟩, c.next) else throw .malformed
    | rest =>
      if endsWord rest then return (⟨none, "!"⟩, c.next)
      else do
        let (handle, c) ← if hasNamedHandle rest then tagHandle c else pure ("!", c.next)
        let (text, c) ← tagText c
        return (⟨some handle, text⟩, c) : Except YamlError (WrittenTag × Cursor))
  if endsName c.rest then return (tag, c) else throw .malformed

/-! ## Directives -/

def versionNumber (c : Cursor) : Except YamlError (Nat × Cursor) :=
  match c.takeWhile Char.isDigit with
  | ([], _) => .error .malformed
  | (digits, c) =>
    if digits.length ≤ digitLimit then .ok (ofDigits 10 (digits.map fun d => d.toNat - 48), c)
    else .error (.integerTooLong digits.length)

def version (c : Cursor) : Except YamlError (Directive × Cursor) := do
  let (major, c) ← versionNumber (c.skipWhile (· = ' '))
  if !c.startsWith '.' then throw .malformed
  let (minor, c) ← versionNumber c.next
  if endsName c.rest then return (.version major minor, c) else throw .malformed

def handleExpansion (c : Cursor) : Except YamlError (Directive × Cursor) := do
  let (handle, c) ← tagHandle (c.skipWhile (· = ' '))
  if !c.startsWith ' ' then throw .malformed
  let (text, c) ← tagText (c.skipWhile (· = ' '))
  if endsName c.rest then return (.tagHandle handle text, c) else throw .malformed

/-- A directive at its percent sign, and the place at the next line. -/
def directive (c : Cursor) : Except YamlError (Directive × Cursor) := do
  let (name, c) ← takeName c.next
  if !endsName c.rest then throw .malformed
  let (d, c) ←
    if name = "YAML" then version c
    else if name = "TAG" then handleExpansion c
    else pure (.other name, c.skipWhile (!isBreak ·))
  match c.nextLine? with
  | some c => return (d, c)
  | none => throw .malformed

end SearchBox.Yaml

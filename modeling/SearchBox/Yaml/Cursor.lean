/-!
  SearchBox.Yaml.Cursor — a place in a YAML text: what is left to read, and how far the place
  is from the start of the text and of its line. Lines end at a carriage return, a line feed,
  both together, a next-line control and the two Unicode separators; the first four read as
  line feeds. A byte order mark takes up no column.
-/

namespace SearchBox.Yaml

def isBreak (c : Char) : Bool :=
  c = '\n' || c = '\r' || c = '\x85' || c = '\u2028' || c = '\u2029'

/-- A space or a tab. -/
def isSpace (c : Char) : Bool :=
  c = ' ' || c = '\t'

/-- Whether a name ends before what is left. A tab does not end it. -/
def endsName : List Char → Bool
  | [] => true
  | c :: _ => c = ' ' || isBreak c

def endsWord : List Char → Bool
  | [] => true
  | c :: _ => isSpace c || isBreak c

def startsWithSpace : List Char → Bool
  | [] => false
  | c :: _ => isSpace c

structure Cursor where
  rest : List Char
  index : Nat := 0
  line : Nat := 0
  column : Nat := 0
  deriving DecidableEq, Repr

namespace Cursor

def next (c : Cursor) : Cursor :=
  match c.rest with
  | [] => c
  | x :: rest =>
    if isBreak x && !(x = '\r' && rest.head? = some '\n') then ⟨rest, c.index + 1, c.line + 1, 0⟩
    else ⟨rest, c.index + 1, c.line, if x = '\ufeff' then c.column else c.column + 1⟩

def advance (c : Cursor) : Nat → Cursor
  | 0 => c
  | n + 1 => c.next.advance n

def takeWhile (c : Cursor) (p : Char → Bool) : List Char × Cursor :=
  let run := c.rest.takeWhile p
  (run, c.advance run.length)

def skipWhile (c : Cursor) (p : Char → Bool) : Cursor :=
  (c.takeWhile p).2

def startsWith (c : Cursor) (x : Char) : Bool :=
  c.rest.head? = some x

/-- The end of line that comes next, if one does: what it reads as and the place after it. -/
def lineBreak? (c : Cursor) : Option (Char × Cursor) :=
  match c.rest with
  | '\r' :: '\n' :: _ => some ('\n', c.advance 2)
  | x :: _ =>
    if x = '\u2028' || x = '\u2029' then some (x, c.next)
    else if isBreak x then some ('\n', c.next)
    else none
  | [] => none

/-- Three hyphens or three points that stand alone. -/
def atSeparator (c : Cursor) : Bool :=
  match c.rest with
  | '-' :: '-' :: '-' :: rest => endsWord rest
  | '.' :: '.' :: '.' :: rest => endsWord rest
  | _ => false

def skipComment (c : Cursor) : Cursor :=
  if c.startsWith '#' then c.skipWhile (!isBreak ·) else c

/-- The place at the next line, nothing if the line holds more than spaces and a comment. -/
def nextLine? (c : Cursor) : Option Cursor :=
  let c := (c.skipWhile (· = ' ')).skipComment
  match c.lineBreak? with
  | some (_, c) => some c
  | none => if c.rest.isEmpty then some c else none

end Cursor
end SearchBox.Yaml

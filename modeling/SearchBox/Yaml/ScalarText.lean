import SearchBox.Number.Numeral
import SearchBox.Json.Read
import SearchBox.Yaml.Cursor
import SearchBox.Yaml.Error

/-!
  SearchBox.Yaml.ScalarText — the texts of scalars: plain ones, ones in single or double
  quotes, and blocks of lines below a header. Lines of plain and quoted texts are folded: one
  end of line is a space, and of several all but the first are kept.

  Each function answers what it read and the place after it; `fuel` bounds the number of
  steps and is never used up when it exceeds the length of what is left.
-/

namespace SearchBox.Yaml

open SearchBox.Number

abbrev Piece := List Char × Cursor

/-- What the ends of lines between two lines read as, the first of them given apart. -/
def folded (first : Char) (others : List Char) : List Char :=
  if first ≠ '\n' then first :: others
  else if others.isEmpty then [' ']
  else others

/-! ## Quoted texts -/

/-- The further ends of lines inside quotes, white space around them passed over. A line may not
    separate documents. -/
def quotedBreaks : Nat → Cursor → Except YamlError Piece
  | 0, _ => .error .malformed
  | fuel + 1, c =>
    if c.atSeparator then .error .malformed
    else
      let c := c.skipWhile isSpace
      match c.lineBreak? with
      | none => .ok ([], c)
      | some (b, c) => do
        let (breaks, c) ← quotedBreaks fuel c
        return (b :: breaks, c)

/-- White space inside quotes: as it is within a line, folded around ends of lines. -/
def quotedGap (c : Cursor) : Except YamlError Piece :=
  let (spaces, c) := c.takeWhile isSpace
  match c.lineBreak? with
  | none => .ok (spaces, c)
  | some (b, c) => do
    let (breaks, c) ← quotedBreaks (c.rest.length + 1) c
    return (folded b breaks, c)

def shortEscape? : Char → Option Char
  | '0' => some '\x00'
  | 'a' => some '\x07'
  | 'b' => some '\x08'
  | 't' => some '\t'
  | '\t' => some '\t'
  | 'n' => some '\n'
  | 'v' => some '\x0b'
  | 'f' => some '\x0c'
  | 'r' => some '\r'
  | 'e' => some '\x1b'
  | ' ' => some ' '
  | '"' => some '"'
  | '\\' => some '\\'
  | '/' => some '/'
  | 'N' => some '\x85'
  | '_' => some '\xa0'
  | 'L' => some '\u2028'
  | 'P' => some '\u2029'
  | _ => none

/-- How many hexadecimal digits follow a letter after a backslash. -/
def codeLength? : Char → Option Nat
  | 'x' => some 2
  | 'u' => some 4
  | 'U' => some 8
  | _ => none

def charOfCode (code : Nat) : Except YamlError Char :=
  if 0x110000 ≤ code then .error (.codeTooLarge code)
  else if 0xD800 ≤ code ∧ code < 0xE000 then .error .halfPair
  else .ok (Char.ofNat code)

def codeDigits? (length : Nat) (s : List Char) : Option Nat := do
  let digits ← (s.take length).mapM Json.hexValue?
  if digits.length = length then some (ofDigits 16 digits) else none

/-- What an escape stands for, from the character after the backslash on. -/
def escapeText (c : Cursor) : Except YamlError Piece :=
  match c.rest with
  | [] => .error .malformed
  | e :: rest =>
    match shortEscape? e, codeLength? e with
    | some x, _ => .ok ([x], c.next)
    | none, some length =>
      match codeDigits? length rest with
      | some code => do return ([← charOfCode code], c.advance (length + 1))
      | none => .error .malformed
    | none, none =>
      match c.lineBreak? with
      | some (_, c) => quotedBreaks (c.rest.length + 1) c
      | none => .error .malformed

/-- A text in double quotes after its opening quote, which follows `text`. -/
def doubleQuoted : Nat → List Char → Cursor → Except YamlError Piece
  | 0, _, _ => .error .malformed
  | fuel + 1, text, c =>
    match c.rest with
    | [] => .error .malformed
    | '"' :: _ => .ok (text, c.next)
    | '\\' :: _ => do
      let (more, c) ← escapeText c.next
      doubleQuoted fuel (text ++ more) c
    | x :: _ =>
      if isSpace x || isBreak x then do
        let (gap, c) ← quotedGap c
        doubleQuoted fuel (text ++ gap) c
      else doubleQuoted fuel (text ++ [x]) c.next

/-- A text in single quotes after its opening quote, which follows `text`. A quote is written
    twice. -/
def singleQuoted : Nat → List Char → Cursor → Except YamlError Piece
  | 0, _, _ => .error .malformed
  | fuel + 1, text, c =>
    match c.rest with
    | [] => .error .malformed
    | '\'' :: '\'' :: _ => singleQuoted fuel (text ++ ['\'']) (c.advance 2)
    | '\'' :: _ => .ok (text, c.next)
    | x :: _ =>
      if isSpace x || isBreak x then do
        let (gap, c) ← quotedGap c
        singleQuoted fuel (text ++ gap) c
      else singleQuoted fuel (text ++ [x]) c.next

def quotedText (quote : Char) (c : Cursor) : Except YamlError Piece :=
  if quote = '"' then doubleQuoted (c.rest.length + 1) [] c.next
  else singleQuoted (c.rest.length + 1) [] c.next

/-! ## Plain texts -/

/-- The characters that structure collections in brackets. -/
def isFlowSign (c : Char) : Bool :=
  c = ',' || c = '[' || c = ']' || c = '\x7b' || c = '\x7d'

/-- Whether a colon before what is left sets a value off. -/
def colonEnds (inFlow : Bool) : List Char → Bool
  | [] => true
  | c :: _ => isSpace c || isBreak c || inFlow && isFlowSign c

/-- The characters of a plain text up to white space or a sign that ends it. -/
def plainRun (inFlow : Bool) : List Char → List Char
  | [] => []
  | c :: rest =>
    if isSpace c || isBreak c || c = ':' && colonEnds inFlow rest || inFlow && (c = '?' || isFlowSign c) then []
    else c :: plainRun inFlow rest

/-- The further ends of lines after a plain text, nothing if a line separates documents. -/
def plainBreaks : Nat → List Char → Cursor → Option (List Char) × Cursor
  | 0, breaks, c => (some breaks, c)
  | fuel + 1, breaks, c =>
    if c.startsWith ' ' then plainBreaks fuel breaks c.next
    else
      match c.lineBreak? with
      | none => (some breaks, c)
      | some (b, c) => if c.atSeparator then (none, c) else plainBreaks fuel (breaks ++ [b]) c

/-- What stands between two runs of a plain text, and whether a line ends there. An empty gap
    ends the text. -/
structure PlainGap where
  text : List Char
  crossesLine : Bool
  after : Cursor

def plainGap (c : Cursor) : PlainGap :=
  let (spaces, c) := c.takeWhile (· = ' ')
  match c.lineBreak? with
  | none => ⟨spaces, false, c⟩
  | some (b, c) =>
    if c.atSeparator then ⟨[], true, c⟩
    else
      match plainBreaks (c.rest.length + 1) [] c with
      | (some breaks, c) => ⟨folded b breaks, true, c⟩
      | (none, c) => ⟨[], true, c⟩

/-- A plain text, of which `text` is read and `gap` follows. Outside brackets, lines that are
    indented less than `indent` do not belong to it. -/
def plainFrom (inFlow : Bool) (indent : Int) : Nat → List Char → PlainGap → List Char × PlainGap
  | 0, text, gap => (text, gap)
  | fuel + 1, text, gap =>
    let run := plainRun inFlow gap.after.rest
    if run.isEmpty then (text, gap)
    else
      let text := text ++ gap.text ++ run
      let gap := plainGap (gap.after.advance run.length)
      if gap.text.isEmpty || gap.after.startsWith '#' || !inFlow && gap.after.column < indent then (text, gap)
      else plainFrom inFlow indent fuel text gap

/-- A plain text, and the gap that ends it. -/
def plainText (inFlow : Bool) (indent : Int) (c : Cursor) : List Char × PlainGap :=
  plainFrom inFlow indent (c.rest.length + 1) [] ⟨[], false, c⟩

/-! ## Blocks -/

/-- What becomes of the ends of lines at the end of a block. -/
inductive Chomping where
  | strip
  | clip
  | keep
  deriving DecidableEq, Repr

structure BlockHeader where
  chomping : Chomping
  /-- How much deeper than its surroundings the block is, if that is said. -/
  depth : Option Nat

def chomping? : List Char → Option Chomping
  | '+' :: _ => some .keep
  | '-' :: _ => some .strip
  | _ => none

def blockDepth? : List Char → Option Nat
  | c :: _ => if c.isDigit then some (c.toNat - 48) else none
  | [] => none

/-- A block's header after its first sign, up to the next line. -/
def blockHeader (c : Cursor) : Except YamlError (BlockHeader × Cursor) := do
  let (chomping, depth, c) :=
    match chomping? c.rest, blockDepth? c.rest with
    | some chomping, _ =>
      match blockDepth? c.next.rest with
      | some n => (chomping, some n, c.advance 2)
      | none => (chomping, none, c.next)
    | none, some n =>
      match chomping? c.next.rest with
      | some chomping => (chomping, some n, c.advance 2)
      | none => (.clip, some n, c.next)
    | none, none => (Chomping.clip, none, c)
  if depth = some 0 || !endsName c.rest then throw .malformed
  match c.nextLine? with
  | some c => return (⟨chomping, depth⟩, c)
  | none => throw .malformed

def skipIndent (indent : Nat) (c : Cursor) : Cursor :=
  c.advance (min (indent - c.column) (c.rest.takeWhile (· = ' ')).length)

/-- Ends of lines and the indents after them, from within an indent on. -/
def blockBreaks (indent : Nat) : Nat → List Char → Cursor → Piece
  | 0, breaks, c => (breaks, c)
  | fuel + 1, breaks, c =>
    let c := skipIndent indent c
    match c.lineBreak? with
    | none => (breaks, c)
    | some (b, c) => blockBreaks indent fuel (breaks ++ [b]) c

/-- Ends of lines and spaces before the first line of a block, and the greatest column reached. -/
def leadingBreaks : Nat → List Char → Nat → Cursor → List Char × Nat × Cursor
  | 0, breaks, greatest, c => (breaks, greatest, c)
  | fuel + 1, breaks, greatest, c =>
    if c.startsWith ' ' then leadingBreaks fuel breaks (max greatest c.next.column) c.next
    else
      match c.lineBreak? with
      | none => (breaks, greatest, c)
      | some (b, c) => leadingBreaks fuel (breaks ++ [b]) greatest c

def takeBreak (c : Cursor) : Piece :=
  match c.lineBreak? with
  | some (b, c) => ([b], c)
  | none => ([], c)

/-- What was read of a block: its text, the end of its last line and the ends of lines after it. -/
structure BlockBody where
  text : List Char
  lastBreak : List Char
  breaks : List Char
  after : Cursor

/-- What stands between two lines of a block. In a folded one, an end of line between lines that
    do not start with white space is a space, or nothing if more ends of lines follow. -/
def blockJoint (isFolded : Bool) (lineBreak breaks : List Char) (spaced : Bool) : List Char :=
  if isFolded && lineBreak = ['\n'] && !spaced then (if breaks.isEmpty then [' '] else []) else lineBreak

/-- The lines of a block, of which `body` is read. -/
def blockLines (isFolded : Bool) (indent : Nat) : Nat → BlockBody → BlockBody
  | 0, body => body
  | fuel + 1, body =>
    let c := body.after
    if c.column = indent && !c.rest.isEmpty then
      let (line, c) := c.takeWhile (!isBreak ·)
      let (lineBreak, c) := takeBreak c
      let text := body.text ++ body.breaks ++ line
      let (breaks, c) := blockBreaks indent (c.rest.length + 1) [] c
      if c.column = indent && !c.rest.isEmpty then
        let joint := blockJoint isFolded lineBreak breaks (startsWithSpace line || startsWithSpace c.rest)
        blockLines isFolded indent fuel ⟨text ++ joint, [], breaks, c⟩
      else ⟨text, lineBreak, breaks, c⟩
    else body

/-- A block at its first sign, inside surroundings of the given indent. -/
def blockText (isFolded : Bool) (surroundings : Int) (c : Cursor) : Except YamlError Piece := do
  let (header, c) ← blockHeader c.next
  let least := max (surroundings + 1).toNat 1
  let (breaks, indent, c) :=
    match header.depth with
    | some depth =>
      let indent := least + depth - 1
      let (breaks, c) := blockBreaks indent (c.rest.length + 1) [] c
      (breaks, indent, c)
    | none =>
      let (breaks, greatest, c) := leadingBreaks (c.rest.length + 1) [] 0 c
      (breaks, max least greatest, c)
  let body := blockLines isFolded indent (c.rest.length + 1) ⟨[], [], breaks, c⟩
  let lastBreak := if header.chomping = .strip then [] else body.lastBreak
  let breaks := if header.chomping = .keep then body.breaks else []
  return (body.text ++ lastBreak ++ breaks, body.after)

end SearchBox.Yaml

import SearchBox.Yaml.ScalarText
import SearchBox.Yaml.Tag

/-!
  SearchBox.Yaml.Token — the tokens of a YAML text, which are read as they are asked for.

  A key of a mapping has no sign of its own in front: only the colon after it shows that it
  was one. So the reader remembers where a key may have started, one place for each level of
  brackets, and does not hand out a token as long as one in front of it may be needed. Such a
  place is given up at the end of its line, or 1024 characters on.

  Outside brackets, indents open and close collections. They are kept as a stack, the depth
  of the text around all collections being -1.
-/

namespace SearchBox.Yaml

inductive Token where
  | directive (d : Directive)
  | documentStart
  | documentEnd
  | textEnd
  /-- The start of a collection by indent, and its end. -/
  | blockSequence
  | blockMapping
  | blockEnd
  | flowSequence
  | flowSequenceEnd
  | flowMapping
  | flowMappingEnd
  | flowEntry
  | blockEntry
  | key
  | value
  | alias (name : String)
  | anchor (name : String)
  | tag (t : WrittenTag)
  | scalar (text : List Char) (isPlain : Bool)
  deriving DecidableEq, Repr

/-- A place where a key may have started. -/
structure PossibleKey where
  number : Nat
  /-- Whether nothing else than a key may stand there. -/
  required : Bool
  index : Nat
  line : Nat
  column : Nat

structure TokenStream where
  cursor : Cursor
  /-- Tokens that are read and not handed out. -/
  waiting : List Token := []
  taken : Nat := 0
  finished : Bool := false
  /-- How many brackets are open. -/
  flowLevel : Nat := 0
  indent : Int := -1
  /-- The indents around the current one, the innermost first. -/
  outerIndents : List Int := []
  allowsKey : Bool := true
  /-- The places where keys may have started, by level of brackets. -/
  possibleKeys : List (Nat × PossibleKey) := []

abbrev Reading (α : Type) := StateT TokenStream (Except YamlError) α

namespace TokenStream

def ofText (s : List Char) : TokenStream :=
  { cursor := { rest := s } }

def push (s : TokenStream) (t : Token) : TokenStream :=
  { s with waiting := s.waiting ++ [t] }

/-- The greatest distance between a key's start and the colon after it. -/
def longestKey : Nat := 1024

/-! ## Keys without a sign -/

def isStale (s : TokenStream) (k : PossibleKey) : Bool :=
  k.line ≠ s.cursor.line || longestKey < s.cursor.index - k.index

def dropStaleKeys (s : TokenStream) : Except YamlError TokenStream :=
  if s.possibleKeys.any fun (_, k) => s.isStale k && k.required then .error .malformed
  else .ok { s with possibleKeys := s.possibleKeys.filter fun (_, k) => !s.isStale k }

/-- Gives up the place of the current level. -/
def dropKey (s : TokenStream) : Except YamlError TokenStream :=
  match s.possibleKeys.lookup s.flowLevel with
  | some k =>
    if k.required then .error .malformed
    else .ok { s with possibleKeys := s.possibleKeys.filter (·.1 ≠ s.flowLevel) }
  | none => .ok s

def markKey (s : TokenStream) : Except YamlError TokenStream :=
  if s.allowsKey then do
    let s ← s.dropKey
    let k : PossibleKey := {
      number := s.taken + s.waiting.length
      required := s.flowLevel = 0 && s.indent = s.cursor.column
      index := s.cursor.index
      line := s.cursor.line
      column := s.cursor.column }
    return { s with possibleKeys := (s.flowLevel, k) :: s.possibleKeys }
  else .ok s

/-! ## Indents -/

def closeTo (column : Int) : List Int → TokenStream → TokenStream
  | [], s => s
  | outer :: further, s =>
    if column < s.indent then
      closeTo column further { s.push .blockEnd with indent := outer, outerIndents := further }
    else s

/-- Closes what a token at a column ends. Inside brackets indents count for nothing. -/
def unwind (s : TokenStream) (column : Int) : TokenStream :=
  if s.flowLevel = 0 then closeTo column s.outerIndents s else s

/-- Opens a collection at a column, if that is deeper than the current indent; `opening` stands
    for the tokens with the collection's start. -/
def openAt (s : TokenStream) (column : Nat) (opening : List Token) : TokenStream :=
  if s.indent < column then
    { s with indent := column, outerIndents := s.indent :: s.outerIndents, waiting := opening }
  else s

/-! ## One token -/

/-- Skips white space, comments and ends of lines. Outside brackets a new line may start with a
    key. -/
def skipToToken : Nat → TokenStream → TokenStream
  | 0, s => s
  | fuel + 1, s =>
    let c := (s.cursor.skipWhile (· = ' ')).skipComment
    match c.lineBreak? with
    | some (_, c) =>
      skipToToken fuel { s with cursor := c, allowsKey := s.allowsKey || s.flowLevel = 0 }
    | none => { s with cursor := c }

def readSign (s : TokenStream) (length : Nat) (t : Token) : TokenStream :=
  { s with cursor := s.cursor.advance length }.push t

def readEnd (s : TokenStream) : Except YamlError TokenStream := do
  let s ← (s.unwind (-1)).dropKey
  return { s.push .textEnd with allowsKey := false, possibleKeys := [], finished := true }

def readDirective (s : TokenStream) : Except YamlError TokenStream := do
  let s ← (s.unwind (-1)).dropKey
  let (d, c) ← directive s.cursor
  return { s.push (.directive d) with cursor := c, allowsKey := false }

def readSeparator (s : TokenStream) (t : Token) : Except YamlError TokenStream := do
  let s ← (s.unwind (-1)).dropKey
  return { s.readSign 3 t with allowsKey := false }

/-- An opening bracket, with which a key may start. -/
def openFlow (s : TokenStream) (t : Token) : Except YamlError TokenStream := do
  let s ← s.markKey
  return { s.readSign 1 t with flowLevel := s.flowLevel + 1, allowsKey := true }

def closeFlow (s : TokenStream) (t : Token) : Except YamlError TokenStream := do
  let s ← s.dropKey
  if s.flowLevel = 0 then throw .malformed
  return { s.readSign 1 t with flowLevel := s.flowLevel - 1, allowsKey := false }

def readFlowEntry (s : TokenStream) : Except YamlError TokenStream := do
  let s ← s.dropKey
  return { s.readSign 1 .flowEntry with allowsKey := true }

def readBlockEntry (s : TokenStream) : Except YamlError TokenStream := do
  if s.flowLevel = 0 && !s.allowsKey then throw .malformed
  let s := if s.flowLevel = 0 then s.openAt s.cursor.column (s.waiting ++ [.blockSequence]) else s
  let s ← s.dropKey
  return { s.readSign 1 .blockEntry with allowsKey := true }

def readKey (s : TokenStream) : Except YamlError TokenStream := do
  if s.flowLevel = 0 && !s.allowsKey then throw .malformed
  let s := if s.flowLevel = 0 then s.openAt s.cursor.column (s.waiting ++ [.blockMapping]) else s
  let s ← s.dropKey
  return { s.readSign 1 .key with allowsKey := s.flowLevel = 0 }

/-- Puts a key's sign in front of the tokens from a place on. -/
def insertKey (s : TokenStream) (k : PossibleKey) : TokenStream :=
  let place := k.number - s.taken
  let front := s.waiting.take place
  let back := Token.key :: s.waiting.drop place
  let s := { s with waiting := front ++ back }
  if s.flowLevel = 0 then s.openAt k.column (front ++ .blockMapping :: back) else s

/-- The colon before a value. It shows whether there was a key. -/
def readValue (s : TokenStream) : Except YamlError TokenStream :=
  match s.possibleKeys.lookup s.flowLevel with
  | some k =>
    let s := { s with possibleKeys := s.possibleKeys.filter (·.1 ≠ s.flowLevel) }
    .ok { (s.insertKey k).readSign 1 .value with allowsKey := false }
  | none => do
    if s.flowLevel = 0 && !s.allowsKey then throw .malformed
    let s := if s.flowLevel = 0 then s.openAt s.cursor.column (s.waiting ++ [.blockMapping]) else s
    return { s.readSign 1 .value with allowsKey := s.flowLevel = 0 }

def readAlias (s : TokenStream) : Except YamlError TokenStream := do
  let s ← s.markKey
  let (name, c) ← anchorName s.cursor
  return { s.push (.alias name) with cursor := c, allowsKey := false }

def readAnchor (s : TokenStream) : Except YamlError TokenStream := do
  let s ← s.markKey
  let (name, c) ← anchorName s.cursor
  return { s.push (.anchor name) with cursor := c, allowsKey := false }

def readTag (s : TokenStream) : Except YamlError TokenStream := do
  let s ← s.markKey
  let (t, c) ← writtenTag s.cursor
  return { s.push (.tag t) with cursor := c, allowsKey := false }

def readBlock (s : TokenStream) (isFolded : Bool) : Except YamlError TokenStream := do
  let s ← s.dropKey
  let (text, c) ← blockText isFolded s.indent s.cursor
  return { s.push (.scalar text false) with cursor := c, allowsKey := true }

def readQuoted (s : TokenStream) (quote : Char) : Except YamlError TokenStream := do
  let s ← s.markKey
  let (text, c) ← quotedText quote s.cursor
  return { s.push (.scalar text false) with cursor := c, allowsKey := false }

def readPlain (s : TokenStream) : Except YamlError TokenStream := do
  let s ← s.markKey
  let (text, gap) := plainText (s.flowLevel ≠ 0) (s.indent + 1) s.cursor
  return { s.push (.scalar text true) with cursor := gap.after, allowsKey := gap.crossesLine }

/-- The signs that no plain text starts with. -/
def isSign (c : Char) : Bool :=
  "-?:,[]\x7b\x7d#&*!|>'\"%@\x60".toList.contains c

/-- Whether a plain text starts with a character that has the given rest after it. -/
def startsPlain (inFlow : Bool) (c : Char) (rest : List Char) : Bool :=
  !(isSpace c || isBreak c || isSign c) ||
    !endsWord rest && (c = '-' || !inFlow && (c = '?' || c = ':'))

/-- Reads what comes next, which may be several tokens. -/
def readNext (s : TokenStream) : Except YamlError TokenStream := do
  let s := if s.cursor.index = 0 && s.cursor.startsWith '\ufeff' then { s with cursor := s.cursor.next } else s
  let s ← (skipToToken (s.cursor.rest.length + 1) s).dropStaleKeys
  let s := s.unwind s.cursor.column
  let inFlow := s.flowLevel ≠ 0
  match s.cursor.rest with
  | [] => s.readEnd
  | x :: rest =>
    if x = '%' && s.cursor.column = 0 then s.readDirective
    else if x = '-' && s.cursor.column = 0 && s.cursor.atSeparator then s.readSeparator .documentStart
    else if x = '.' && s.cursor.column = 0 && s.cursor.atSeparator then s.readSeparator .documentEnd
    else if x = '[' then s.openFlow .flowSequence
    else if x = '\x7b' then s.openFlow .flowMapping
    else if x = ']' then s.closeFlow .flowSequenceEnd
    else if x = '\x7d' then s.closeFlow .flowMappingEnd
    else if x = ',' then s.readFlowEntry
    else if x = '-' && endsWord rest then s.readBlockEntry
    else if x = '?' && (inFlow || endsWord rest) then s.readKey
    else if x = ':' && (inFlow || endsWord rest) then s.readValue
    else if x = '*' then s.readAlias
    else if x = '&' then s.readAnchor
    else if x = '!' then s.readTag
    else if x = '|' && !inFlow then s.readBlock false
    else if x = '>' && !inFlow then s.readBlock true
    else if x = '\'' || x = '"' then s.readQuoted x
    else if startsPlain inFlow x rest then s.readPlain
    else throw .malformed

/-! ## Handing out -/

def needsMore (s : TokenStream) : Bool :=
  s.waiting.isEmpty || s.possibleKeys.any fun (_, k) => k.number = s.taken

def fill : Nat → TokenStream → Except YamlError TokenStream
  | 0, s => .ok s
  | fuel + 1, s =>
    if s.finished then .ok s
    else do
      let s ← if s.waiting.isEmpty then pure s else s.dropStaleKeys
      if s.needsMore then fill fuel (← s.readNext) else return s

/-- The stream with its next token read, whatever that takes. -/
def ready (s : TokenStream) : Except YamlError TokenStream :=
  fill (s.cursor.rest.length + 2) s

end TokenStream

def peekToken : Reading Token := do
  let s ← (← get).ready
  set s
  return s.waiting.headD .textEnd

def takeToken : Reading Token := do
  let t ← peekToken
  modify fun s => { s with waiting := s.waiting.tail, taken := s.taken + 1 }
  return t

end SearchBox.Yaml

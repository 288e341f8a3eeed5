import SearchBox.Number.Shortest
import SearchBox.Text.Quoted
import SearchBox.Value

/-!
  SearchBox.Json.Write — values as JSON texts, on one line or with one item a line. Quotes,
  backslashes and control characters are escaped and all other characters written as they
  are. Values that JSON has no form for are written as null.
-/

namespace SearchBox.Json

open SearchBox.Number SearchBox.Text

def escapedChar (c : Char) : List Char :=
  if c = '"' then ['\\', '"']
  else if c = '\\' then ['\\', '\\']
  else if c = '\n' then ['\\', 'n']
  else if c = '\r' then ['\\', 'r']
  else if c = '\t' then ['\\', 't']
  else if c = '\x0c' then ['\\', 'f']
  else if c = '\x08' then ['\\', 'b']
  else if c.toNat < 32 then '\\' :: 'u' :: hexDigits 4 c.toNat
  else [c]

def textLiteral (s : List Char) : List Char :=
  '"' :: s.flatMap escapedChar ++ ['"']

/-- Numbers as in messages, with the words that JSON readers know. -/
def floatFormat : FloatFormat :=
  { FloatFormat.plain with nan := "NaN".toList, infinity := "Infinity".toList }

def scalarText : Scalar → List Char
  | .null => "null".toList
  | .bool b => if b then "true".toList else "false".toList
  | .int n => integerText n
  | .float x => floatFormat.text x
  | .text s => textLiteral s.toList
  | _ => "null".toList

/-- What stands at the start of the next item and at the end of the last one, `depth` levels
    deep. Without an indent all is on one line. -/
def lineBreak (indent : Option Int) (depth : Nat) : List Char :=
  match indent with
  | none => []
  | some n => '\n' :: List.replicate (n.toNat * depth) ' '

def itemBreak (indent : Option Int) (depth : Nat) : List Char :=
  match indent with
  | none => [',', ' ']
  | some _ => ',' :: lineBreak indent depth

mutual

def write (indent : Option Int) (depth : Nat) : Value → List Char
  | .scalar s => scalarText s
  | .list [] => ['[', ']']
  | .list items =>
    '[' :: lineBreak indent (depth + 1) ++ writeItems indent (depth + 1) items ++ lineBreak indent depth ++ [']']
  | .tuple [] => ['[', ']']
  | .tuple items =>
    '[' :: lineBreak indent (depth + 1) ++ writeItems indent (depth + 1) items ++ lineBreak indent depth ++ [']']
  | .set _ => "null".toList
  | .dict [] => ['\x7b', '\x7d']
  | .dict entries =>
    '\x7b' :: lineBreak indent (depth + 1) ++ writeEntries indent (depth + 1) entries ++
      lineBreak indent depth ++ ['\x7d']

def writeItems (indent : Option Int) (depth : Nat) : List Value → List Char
  | [] => []
  | [v] => write indent depth v
  | v :: vs => write indent depth v ++ itemBreak indent depth ++ writeItems indent depth vs

def writeEntries (indent : Option Int) (depth : Nat) : List (Scalar × Value) → List Char
  | [] => []
  | [(k, v)] => entryKey k ++ write indent depth v
  | (k, v) :: rest =>
    entryKey k ++ write indent depth v ++ itemBreak indent depth ++ writeEntries indent depth rest

def entryKey : Scalar → List Char
  | .text s => textLiteral s.toList ++ [':', ' ']
  | k => '"' :: scalarText k ++ ['"', ':', ' ']

end

def document (indent : Option Int) (v : Value) : String :=
  String.ofList (write indent 0 v)

end SearchBox.Json

import SearchBox.Calendar.Literal
import SearchBox.Number.Shortest
import SearchBox.Value

/-!
  SearchBox.Value.Shown — the text of a value. `literal` is the form that tells values of
  different kinds apart; `shown` differs from it for a value that is itself a text, a date or
  a time, which is given bare. A value has no text (`shownText`) if an integer with too many
  digits to be written stands anywhere in it.
-/

namespace SearchBox

open SearchBox.Calendar SearchBox.Number SearchBox.Text

def quotedByte (quote : Nat) (b : UInt8) : List Char :=
  let n := b.toNat
  if n = quote ∨ n = 92 then ['\\', Char.ofNat n]
  else if n = 10 then ['\\', 'n']
  else if n = 13 then ['\\', 'r']
  else if n = 9 then ['\\', 't']
  else if 32 ≤ n ∧ n < 127 then [Char.ofNat n]
  else '\\' :: 'x' :: hexDigits 2 n

/-- Bytes in quotes, chosen as for texts. -/
def quotedBytes (bs : List UInt8) : List Char :=
  let quote := if bs.contains 39 && !bs.contains 34 then 34 else 39
  'b' :: Char.ofNat quote :: bs.flatMap (quotedByte quote) ++ [Char.ofNat quote]

namespace Timestamp

def literal : Timestamp → List Char
  | floating w => w.literal
  | fixed m => m.literal

/-- Date and time of day with a space between them. -/
def shown : Timestamp → List Char
  | floating w => w.text ' '
  | fixed m => m.wall.text ' ' ++ Moment.offsetText m.offset

end Timestamp

namespace Scalar

def literal : Scalar → List Char
  | null => "None".toList
  | bool b => if b then "True".toList else "False".toList
  | int n => integerText n
  | float x => FloatFormat.plain.text x
  | text s => quoted s.toList
  | bytes bs => quotedBytes bs
  | date d => d.literal
  | time t => t.literal

def shown : Scalar → List Char
  | text s => s.toList
  | date d => d.text
  | time t => t.shown
  | s => s.literal

def isWritable : Scalar → Bool
  | int n => Number.isWritable n
  | _ => true

end Scalar

namespace Value

mutual

def literal : Value → List Char
  | scalar s => s.literal
  | list items => '[' :: literals items ++ [']']
  | tuple [item] => '(' :: item.literal ++ [',', ')']
  | tuple items => '(' :: literals items ++ [')']
  | set [] => "set()".toList
  | set items => '\x7b' :: joinWith [',', ' '] (items.map Scalar.literal) ++ ['\x7d']
  | dict entries => '\x7b' :: entryLiterals entries ++ ['\x7d']

def literals : List Value → List Char
  | [] => []
  | [v] => v.literal
  | v :: vs => v.literal ++ ',' :: ' ' :: literals vs

def entryLiterals : List (Scalar × Value) → List Char
  | [] => []
  | [(k, v)] => k.literal ++ ':' :: ' ' :: v.literal
  | (k, v) :: rest => k.literal ++ ':' :: ' ' :: v.literal ++ ',' :: ' ' :: entryLiterals rest

end

def shown : Value → List Char
  | scalar s => s.shown
  | v => v.literal

mutual

def isWritable : Value → Bool
  | scalar s => s.isWritable
  | list items => areWritable items
  | tuple items => areWritable items
  | set items => items.all Scalar.isWritable
  | dict entries => areEntriesWritable entries

def areWritable : List Value → Bool
  | [] => true
  | v :: vs => v.isWritable && areWritable vs

def areEntriesWritable : List (Scalar × Value) → Bool
  | [] => true
  | (k, v) :: rest => k.isWritable && v.isWritable && areEntriesWritable rest

end

def shownText (v : Value) : Except WriteError String :=
  if v.isWritable then .ok (String.ofList v.shown) else .error .tooManyDigits

@[simp] theorem shownText_text (s : String) : (text s).shownText = .ok s :=
  congrArg Except.ok String.ofList_toList

end Value
end SearchBox

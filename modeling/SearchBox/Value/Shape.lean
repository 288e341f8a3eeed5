import SearchBox.Number.Numeral
import SearchBox.Value

/-!
  SearchBox.Value.Shape — taking a value as an integer, as a sequence of members or as the
  entries of a mapping, and what stands against it.
-/

namespace SearchBox

open SearchBox.Number

inductive ShapeError where
  | wrongKind
  /-- A text, or no number at all, where an integer is asked for. -/
  | notANumber
  | infinite
  | wrongLength
  | notAMapping
  | noText (cause : WriteError)
  deriving DecidableEq, Repr

namespace Value

/-- The integer of a truth value or a number, cut toward zero, or of the digits in a text. -/
def toInteger : Value → Except ShapeError Int
  | bool b => .ok (if b then 1 else 0)
  | int n => .ok n
  | float x =>
    match x with
    | .nan => .error .notANumber
    | .infinite _ => .error .infinite
    | .finite .. => .ok (x.truncate?.getD 0)
  | text s =>
    match readInteger? s.toList with
    | some n => .ok n
    | none => .error .notANumber
  | _ => .error .wrongKind

/-- The members in order: characters of a text, items of a sequence, keys of a mapping. -/
def members : Value → Except ShapeError (List Value)
  | text s => .ok (s.toList.map fun c => text (String.singleton c))
  | scalar (.bytes bs) => .ok (bs.map fun b => int b.toNat)
  | list items => .ok items
  | tuple items => .ok items
  | set items => .ok (items.map scalar)
  | dict entries => .ok (entries.map fun (k, _) => scalar k)
  | scalar _ => .error .wrongKind

def entries : Value → Except ShapeError Entries
  | dict entries => .ok entries
  | _ => .error .notAMapping

/-- A member of an update given as pairs. -/
def toPair (v : Value) : Except ShapeError (Scalar × Value) := do
  match ← v.members with
  | [scalar k, x] => return (k, x)
  | [_, _] => throw .wrongKind
  | _ => throw .wrongLength

end Value

namespace Entries

/-- The entries of a mapping or of a sequence of pairs. -/
def ofValue : Value → Except ShapeError Entries
  | .dict es => .ok es
  | v => do
    let pairs ← (← v.members).mapM Value.toPair
    return ofWrites pairs

/-- Entries overwritten by those of a mapping or of a sequence of pairs. A null, false, zero or
    empty update changes nothing. -/
def update (entries : Entries) (changes : Value) : Except ShapeError Entries :=
  if changes.isTruthy then do return (← ofValue changes).foldl (fun es (k, v) => es.put k v) entries
  else .ok entries

end Entries
end SearchBox

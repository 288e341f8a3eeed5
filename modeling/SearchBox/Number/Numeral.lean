import SearchBox.Number.Binary64
import SearchBox.Text.Blank
import SearchBox.Text.Digits

/-!
  SearchBox.Number.Numeral — numbers as people write them: integers and decimals with digits
  of any script, a sign, and low lines between digits. Integers of more than 4300 digits are
  refused.
-/

namespace SearchBox.Number

open SearchBox.Text

/-- The number of digits above which an integer is neither read nor written. -/
def digitLimit : Nat := 4300

def startsWithDigit : List Char → Bool
  | [] => false
  | c :: _ => (decimalValue? c).isSome

/-- Reads digits up to the first other character, a low line between two digits passed over.
    Answers the digits' values and the rest; `seen` says whether a digit stands right before. -/
def digitsFrom (seen : Bool) : List Char → List Nat × List Char
  | [] => ([], [])
  | c :: rest =>
    match decimalValue? c with
    | some d => (digitsFrom true rest).map (d :: ·) id
    | none => if c = '_' && seen && startsWithDigit rest then digitsFrom false rest else ([], c :: rest)

def digitsWithLowLines (s : List Char) : List Nat × List Char :=
  digitsFrom false s

def ofDigits (base : Nat) (digits : List Nat) : Nat :=
  digits.foldl (fun n d => n * base + d) 0

def signOf : List Char → Bool × List Char
  | '-' :: rest => (true, rest)
  | '+' :: rest => (false, rest)
  | s => (false, s)

def signed (negative : Bool) (n : Nat) : Int :=
  if negative then -n else n

/-- An integer with white space around it. -/
def readInteger? (s : List Char) : Option Int :=
  let (negative, body) := signOf (strip s)
  match digitsWithLowLines body with
  | ([], _) => none
  | (ds, []) => if ds.length ≤ digitLimit then some (signed negative (ofDigits 10 ds)) else none
  | _ => none

def lowerAscii (s : List Char) : List Char :=
  s.map Char.toLower

/-- The exponent part of a decimal, `e` and an integer, or nothing. -/
def readExponent? : List Char → Option Int
  | [] => some 0
  | c :: rest =>
    if c = 'e' ∨ c = 'E' then
      let (negative, body) := signOf rest
      match digitsWithLowLines body with
      | ([], _) => none
      | (ds, []) => some (signed negative (ofDigits 10 ds))
      | _ => none
    else none

/-- A decimal with white space around it, or one of the words for infinity and for no number. -/
def readDecimal? (s : List Char) : Option Binary64 :=
  let (negative, body) := signOf (strip s)
  let word := String.ofList (lowerAscii body)
  if word = "inf" ∨ word = "infinity" then some (.infinite negative)
  else if word = "nan" then some .nan
  else
    let (whole, rest) := digitsWithLowLines body
    let (tail, rest) :=
      match rest with
      | '.' :: after => digitsWithLowLines after
      | _ => ([], rest)
    if whole.isEmpty && tail.isEmpty then none
    else
      (readExponent? rest).map fun exponent =>
        Binary64.ofDecimal negative (ofDigits 10 (whole ++ tail)) (exponent - tail.length)

def integerText (n : Int) : List Char :=
  if n < 0 then '-' :: Nat.toDigits 10 n.natAbs else Nat.toDigits 10 n.natAbs

def tooLongMessage (digits : Nat) : String :=
  "Exceeds the limit (4300 digits) for integer string conversion: value has " ++
    String.ofList (integerText digits) ++
    " digits; use sys.set_int_max_str_digits() to increase the limit"

def isWritable (n : Int) : Bool :=
  n.natAbs < tenTo digitLimit

inductive WriteError where
  | tooManyDigits
  deriving DecidableEq, Repr

def WriteError.message : WriteError → String
  | tooManyDigits =>
    "Exceeds the limit (4300 digits) for integer string conversion; " ++
      "use sys.set_int_max_str_digits() to increase the limit"

/-- The digits of a natural number, with zeros in front up to a width. -/
def paddedDigits (n width : Nat) : List Char :=
  let text := Nat.toDigits 10 n
  List.replicate (width - text.length) '0' ++ text

end SearchBox.Number

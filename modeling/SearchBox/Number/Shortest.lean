import SearchBox.Number.Numeral

/-!
  SearchBox.Number.Shortest — the text of a floating-point number: the fewest decimal digits
  that read back as the same number, and of those the ones nearest to it. The digits are found
  on one decimal grid after another, from one digit to seventeen: on each grid the two
  neighbours of the number are tried.
-/

namespace SearchBox.Number

/-- A number as a quotient, between the two ends of the interval of quotients that round to it. -/
structure Rounding where
  low : Nat
  value : Nat
  high : Nat
  den : Nat
  /-- The ends belong to the interval when the mantissa is even. -/
  closed : Bool

def Rounding.of (mantissa : Nat) (exponent : Int) : Rounding :=
  let up := twoTo exponent.toNat
  let below := if mantissa = twoTo 52 ∧ exponent > Binary64.leastExponent then 1 else 2
  { low := (4 * mantissa - below) * up
    value := 4 * mantissa * up
    high := (4 * mantissa + 2) * up
    den := 4 * twoTo (-exponent).toNat
    closed := mantissa % 2 = 0 }

/-- How far right of the leading digit of a quotient below one the point stands. -/
def leadingZeros : Nat → Nat → Nat → Nat
  | 0, _, _ => 0
  | fuel + 1, num, den => if num * 10 < den then leadingZeros fuel (num * 10) den + 1 else 0

/-- The place of the point counted from before the first digit of a positive quotient. -/
def pointPlace (num den : Nat) : Int :=
  if den ≤ num then (Nat.toDigits 10 (num / den)).length else -(leadingZeros 400 num den : Int)

/-- A decimal of `count` digits that rounds to the number, the nearer one of two. -/
def Rounding.onGrid? (r : Rounding) (place : Int) (count : Nat) : Option Nat :=
  let up := tenTo (count - place).toNat
  let unit := r.den * tenTo (place - count).toNat
  let inside (digits : Nat) : Bool :=
    let n := digits * unit
    if r.closed then r.low * up ≤ n ∧ n ≤ r.high * up else r.low * up < n ∧ n < r.high * up
  let floor := r.value * up / unit
  let rest := r.value * up % unit
  match inside floor, inside (floor + 1) with
  | true, false => some floor
  | false, true => some (floor + 1)
  | true, true =>
    some (if 2 * rest < unit then floor else if unit < 2 * rest then floor + 1 else floor + floor % 2)
  | false, false => none

/-- The digits of the first grid that has a hit, from `count` digits on. -/
def Rounding.firstGrid (r : Rounding) (place : Int) : Nat → Nat → Nat × Nat
  | 0, count => (r.value * tenTo (count - place).toNat / (r.den * tenTo (place - count).toNat), count)
  | fuel + 1, count =>
    match r.onGrid? place count with
    | some digits => (digits, count)
    | none => r.firstGrid place fuel (count + 1)

/-- The shortest digits of a positive number, without zeros at the end, and the place of the
    point before or after them. -/
def shortestDigits (mantissa : Nat) (exponent : Int) : List Char × Int :=
  let r := Rounding.of mantissa exponent
  let place := pointPlace r.value r.den
  let (digits, count) := r.firstGrid place 17 1
  let text := Nat.toDigits 10 digits
  ((text.reverse.dropWhile (· = '0')).reverse, place + (text.length - count))

/-- How a number is written: positionally if the point's place is above `least` and at most
    `greatest`, else with an exponent of at least `exponentWidth` digits. -/
structure FloatFormat where
  least : Int
  greatest : Int
  exponentWidth : Nat
  nan : List Char
  infinity : List Char

/-- Numbers from 0.0001 up to but not including 1e16 are written positionally. -/
def FloatFormat.plain : FloatFormat where
  least := -4
  greatest := 16
  exponentWidth := 2
  nan := "nan".toList
  infinity := "inf".toList

def FloatFormat.positive (f : FloatFormat) (digits : List Char) (place : Int) : List Char :=
  if f.least < place ∧ place ≤ f.greatest then
    if place ≤ 0 then '0' :: '.' :: List.replicate (-place).toNat '0' ++ digits
    else
      let whole := digits.take place.toNat
      let tail := digits.drop place.toNat
      whole ++ List.replicate (place.toNat - whole.length) '0' ++ '.' ::
        (if tail.isEmpty then ['0'] else tail)
  else
    let mantissa :=
      match digits with
      | [] => []
      | [d] => [d]
      | d :: more => d :: '.' :: more
    let exponent := place - 1
    mantissa ++ 'e' :: (if exponent < 0 then '-' else '+') :: paddedDigits exponent.natAbs f.exponentWidth

def FloatFormat.text (f : FloatFormat) : Binary64 → List Char
  | .nan => f.nan
  | .infinite negative => (if negative then ['-'] else []) ++ f.infinity
  | .finite negative m e =>
    let magnitude :=
      if m = 0 then "0.0".toList
      else
        let (digits, place) := shortestDigits m e
        f.positive digits place
    (if negative then ['-'] else []) ++ magnitude

end SearchBox.Number

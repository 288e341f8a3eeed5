import SearchBox.Number.Power

/-!
  SearchBox.Number.Binary64 — floating-point numbers of 64 bits as exact data. A finite number
  is a mantissa of at most 53 bits times a power of two; `nearest` rounds a quotient of natural
  numbers to the nearest of them, a tie going to the even mantissa. All of it is exact
  arithmetic on natural numbers.
-/

namespace SearchBox.Number

/-- A quotient rounded to the nearest natural number, ties to even. -/
def divNearest (num den : Nat) : Nat :=
  let q := num / den
  let twice := 2 * (num % den)
  if twice < den then q else if den < twice then q + 1 else q + q % 2

inductive Binary64 where
  | nan
  | infinite (negative : Bool)
  /-- The number `mantissa * 2 ^ exponent` with a sign, which zero has too. -/
  | finite (negative : Bool) (mantissa : Nat) (exponent : Int)
  deriving DecidableEq, Repr, Inhabited

namespace Binary64

/-- The least exponent, that of the subnormal numbers. -/
def leastExponent : Int := -1074

def greatestExponent : Int := 971

/-- The integer part of the binary logarithm of a positive quotient. -/
def log2Quotient (num den : Nat) : Int :=
  let guess : Int := num.log2 - den.log2
  if den * twoTo guess.toNat ≤ num * twoTo (-guess).toNat then guess else guess - 1

/-- The number nearest to `num / den`, infinite where no finite number is near enough. -/
def nearest (negative : Bool) (num den : Nat) : Binary64 :=
  if num = 0 then finite negative 0 leastExponent
  else
    let exponent := max (log2Quotient num den - 52) leastExponent
    let mantissa := divNearest (num * twoTo (-exponent).toNat) (den * twoTo exponent.toNat)
    let (mantissa, exponent) :=
      if mantissa = twoTo 53 then (twoTo 52, exponent + 1) else (mantissa, exponent)
    if exponent > greatestExponent then infinite negative else finite negative mantissa exponent

def ofInt (n : Int) : Binary64 :=
  nearest (n < 0) n.natAbs 1

/-- The number nearest to `digits * 10 ^ exponent`. Exponents beyond every finite number are
    decided without raising ten to them. -/
def ofDecimal (negative : Bool) (digits : Nat) (exponent : Int) : Binary64 :=
  let size : Int := (Nat.toDigits 10 digits).length + exponent
  if digits = 0 ∨ size < -400 then finite negative 0 leastExponent
  else if size > 400 then infinite negative
  else nearest negative (digits * tenTo exponent.toNat) (tenTo (-exponent).toNat)

def divNat : Binary64 → Nat → Binary64
  | nan, _ => nan
  | infinite negative, _ => infinite negative
  | finite negative m e, d => nearest negative (m * twoTo e.toNat) (d * twoTo (-e).toNat)

def negate : Binary64 → Binary64
  | nan => nan
  | infinite negative => infinite !negative
  | finite negative m e => finite (!negative) m e

def add : Binary64 → Binary64 → Binary64
  | nan, _ => nan
  | _, nan => nan
  | infinite a, infinite b => if a = b then infinite a else nan
  | infinite a, _ => infinite a
  | _, infinite b => infinite b
  | finite a m e, finite b p q =>
    let least := min e q
    let part (negative : Bool) (n : Nat) (exponent : Int) : Int :=
      let n : Int := n * twoTo (exponent - least).toNat
      if negative then -n else n
    let sum := part a m e + part b p q
    nearest (if sum = 0 then a && b else sum < 0) (sum.natAbs * twoTo least.toNat) (twoTo (-least).toNat)

def mulNat : Binary64 → Nat → Binary64
  | nan, _ => nan
  | infinite negative, _ => infinite negative
  | finite negative m e, n => nearest negative (m * n * twoTo e.toNat) (twoTo (-e).toNat)

/-- The integer part, toward zero, of a finite number. -/
def truncate? : Binary64 → Option Int
  | finite negative m e =>
    let n := m * twoTo e.toNat / twoTo (-e).toNat
    some (if negative then -n else n)
  | _ => none

def integer? : Binary64 → Option Int
  | finite negative m e =>
    let n := m * twoTo e.toNat
    let d := twoTo (-e).toNat
    if n % d = 0 then some (if negative then -(n / d : Nat) else (n / d : Nat)) else none
  | _ => none

/-- The part after the point of a finite number's magnitude, multiplied by `scale` in
    floating point and then rounded to a natural number, ties to even. -/
def scaledFraction : Binary64 → Nat → Nat
  | finite _ m e, scale =>
    let d := twoTo (-e).toNat
    match nearest false (m * twoTo e.toNat % d * scale) d with
    | finite _ p q => divNearest (p * twoTo q.toNat) (twoTo (-q).toNat)
    | _ => 0
  | _, _ => 0

def isZero : Binary64 → Bool
  | finite _ m _ => m = 0
  | _ => false

end Binary64
end SearchBox.Number

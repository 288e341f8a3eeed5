import SearchBox.Text.LowerCase
import SearchBox.Value
import SearchBox.Yaml.Error
import SearchBox.Yaml.ImpliedTag

/-!
  SearchBox.Yaml.ScalarValue — the values of scalars by their tags. A tag that is written out
  takes forms that would not imply it, and refuses those that it cannot read.
-/

namespace SearchBox.Yaml

open SearchBox.Calendar SearchBox.Number SearchBox.Text

def colonParts (part : List Char) : List Char → List (List Char)
  | [] => [part.reverse]
  | ':' :: rest => part.reverse :: colonParts [] rest
  | c :: rest => colonParts (c :: part) rest

def withoutLowLines (s : List Char) : List Char :=
  s.filter (· ≠ '_')

/-! ## Numbers -/

/-- The value of a digit of a base up to sixteen. -/
def digitIn? (base : Nat) (c : Char) : Option Nat :=
  let value :=
    match decimalValue? c with
    | some d => some d
    | none =>
      if 'a' ≤ c ∧ c ≤ 'f' then some (c.toNat - 87)
      else if 'A' ≤ c ∧ c ≤ 'F' then some (c.toNat - 55)
      else none
  value.filter (· < base)

/-- The letter that may stand after a zero in front of the digits of a base. -/
def baseLetter (base : Nat) : Char :=
  if base = 2 then 'b' else if base = 8 then 'o' else 'x'

/-- An integer of base two, eight or sixteen, with white space around it. -/
def integerIn (base : Nat) (s : List Char) : Except YamlError Int :=
  let (negative, body) := signOf (strip s)
  let digits :=
    match body with
    | '0' :: letter :: rest => if letter.toLower = baseLetter base then rest else body
    | _ => body
  match digits.mapM (digitIn? base) with
  | some (d :: ds) => .ok (signed negative (ofDigits base (d :: ds)))
  | _ => .error (.badInteger base s)

def decimalInteger (s : List Char) : Except YamlError Int :=
  match readInteger? s with
  | some n => .ok n
  | none =>
    match digitsWithLowLines (signOf (strip s)).2 with
    | (digits, []) =>
      .error (if digitLimit < digits.length then .integerTooLong digits.length else .badInteger 10 s)
    | _ => .error (.badInteger 10 s)

/-- The integer that parts in sixties give, the first of them the highest. -/
def sixties (parts : List (List Char)) : Except YamlError Int := do
  return (← parts.mapM decimalInteger).foldl (fun n d => 60 * n + d) 0

def unsignedInteger (s : List Char) : Except YamlError Int :=
  match s with
  | [] => .error .emptyNumber
  | ['0'] => .ok 0
  | '0' :: 'b' :: rest => integerIn 2 rest
  | '0' :: 'x' :: rest => integerIn 16 rest
  | '0' :: _ => integerIn 8 s
  | _ => if s.contains ':' then sixties (colonParts [] s) else decimalInteger s

/-- An integer, low lines passed over. A zero in front makes it octal. -/
def integerOf (s : List Char) : Except YamlError Int :=
  match withoutLowLines s with
  | [] => .error .emptyNumber
  | s => do
    let (negative, body) := signOf s
    let n ← unsignedInteger body
    return if negative then -n else n

def decimal (s : List Char) : Except YamlError Binary64 :=
  match readDecimal? s with
  | some x => .ok x
  | none => .error (.badDecimal s)

/-- The number that parts in sixties give, the last of them the lowest and added first. -/
def decimalSixties (parts : List (List Char)) : Except YamlError Binary64 := do
  let parts ← parts.mapM decimal
  return (parts.reverse.foldl (fun (sum, base) x => (Binary64.add sum (x.mulNat base), base * 60))
    (Binary64.ofInt 0, 1)).1

/-- A decimal, low lines passed over. -/
def decimalOf (s : List Char) : Except YamlError Binary64 :=
  match lower (withoutLowLines s) with
  | [] => .error .emptyNumber
  | s => do
    let (negative, body) := signOf s
    let x ←
      if body = ".inf".toList then pure (.infinite false)
      else if body = ".nan".toList then pure .nan
      else if body.contains ':' then decimalSixties (colonParts [] body)
      else decimal body
    return if negative then x.negate else x

/-! ## Truth values -/

def truthOf (s : List Char) : Except YamlError Bool :=
  let word := String.ofList (lower s)
  if word = "yes" ∨ word = "true" ∨ word = "on" then .ok true
  else if word = "no" ∨ word = "false" ∨ word = "off" then .ok false
  else .error (.unknownTruth (lower s))

/-! ## Times -/

def digitsValue (s : List Char) : Nat :=
  ofDigits 10 (s.map fun c => c.toNat - 48)

def dateOf (t : TimestampDigits) : Except YamlError Date :=
  let year := digitsValue t.year
  let month := digitsValue t.month
  if year = 0 then .error (.yearOutside 0)
  else if month = 0 ∨ 12 < month then .error .noSuchMonth
  else
    match Date.of? year month (digitsValue t.day) with
    | some d => .ok d
    | none => .error .noSuchDay

/-- The microseconds of the first six digits of a fraction. -/
def fractionOf (s : List Char) : Nat :=
  let digits := s.take 6
  digitsValue (digits ++ List.replicate (6 - digits.length) '0')

def timeOf (t : TimeDigits) : Except YamlError TimeOfDay :=
  let time : TimeOfDay := {
    hour := digitsValue t.hour
    minute := digitsValue t.minute
    second := digitsValue t.second
    micro := fractionOf t.fraction }
  if 24 ≤ time.hour then .error .noSuchHour
  else if 60 ≤ time.minute then .error .noSuchMinute
  else if 60 ≤ time.second then .error .noSuchSecond
  else .ok time

/-- The offset of a time in microseconds, nothing if it has none. -/
def offsetOf (t : TimeDigits) : Except YamlError (Option Int) :=
  if t.zone = ' ' then .ok none
  else
    let minutes : Int := digitsValue t.zoneHour * 60 + digitsValue t.zoneMinute
    let micros := (if t.zone = '-' then -minutes else minutes) * 60 * microsPerSecond
    if -microsPerDay < micros ∧ micros < microsPerDay then .ok (some micros) else .error (.offsetOutside micros)

def timestampOf (s : List Char) : Except YamlError Scalar :=
  match timestampDigits? (dropFinalBreak s) with
  | none => .error .noTimestamp
  | some digits =>
    match digits.time with
    | none => Scalar.date <$> dateOf digits
    | some time => do
      let offset ← offsetOf time
      let wall := WallTime.on (← dateOf digits) (← timeOf time)
      match offset with
      | none => return .time (.floating wall)
      | some offset => return .time (.fixed ⟨wall, offset, ""⟩)

/-! ## Bytes -/

def sixBits? (c : Char) : Option Nat :=
  if 'A' ≤ c ∧ c ≤ 'Z' then some (c.toNat - 65)
  else if 'a' ≤ c ∧ c ≤ 'z' then some (c.toNat - 71)
  else if '0' ≤ c ∧ c ≤ '9' then some (c.toNat + 4)
  else if c = '+' then some 62
  else if c = '/' then some 63
  else none

/-- The bytes of a text in base 64. Other characters are passed over. `held` is the number of
    characters since the last whole group, `bits` what they leave over, and `pads` counts the
    equals signs right before. -/
def base64 (held bits pads : Nat) : List Char → Except YamlError (List UInt8)
  | [] => if held = 0 then .ok [] else .error .malformed
  | c :: rest =>
    if c = '=' then
      if 2 ≤ held then (if 4 ≤ held + (pads + 1) then .ok [] else base64 held bits (pads + 1) rest)
      else base64 held bits pads rest
    else
      match sixBits? c with
      | none => base64 held bits pads rest
      | some n =>
        match held with
        | 0 => base64 1 n 0 rest
        | 1 => do return UInt8.ofNat (bits * 4 + n / 16) :: (← base64 2 (n % 16) 0 rest)
        | 2 => do return UInt8.ofNat (bits * 16 + n / 4) :: (← base64 3 (n % 4) 0 rest)
        | _ => do return UInt8.ofNat (bits * 64 + n) :: (← base64 0 0 0 rest)

def bytesOf (s : List Char) : Except YamlError (List UInt8) :=
  if s.all (·.toNat < 128) then base64 0 0 0 s else .error .malformed

/-! ## By tag -/

/-- The value of a scalar's text. Tags of no scalar are refused. -/
def scalarValue (tag : String) (s : List Char) : Except YamlError Scalar :=
  if tag = ownTag "str" then .ok (.text (String.ofList s))
  else if tag = ownTag "null" then .ok .null
  else if tag = ownTag "bool" then Scalar.bool <$> truthOf s
  else if tag = ownTag "int" then Scalar.int <$> integerOf s
  else if tag = ownTag "float" then Scalar.float <$> decimalOf s
  else if tag = ownTag "timestamp" then timestampOf s
  else if tag = ownTag "binary" then Scalar.bytes <$> bytesOf s
  else .error .malformed

end SearchBox.Yaml

import SearchBox.Number.Numeral
import SearchBox.Value

/-!
  SearchBox.Json.Read — JSON texts as values. Beyond the standard, the words for infinity and
  for no number are read, and a key that is repeated keeps its first place and its last value.
  Each function answers what it read and the rest of the text; `fuel` bounds the number of
  calls and is never used up when it exceeds the length of the text.
-/

namespace SearchBox.Json

open SearchBox.Number

inductive ReadError where
  | expectingValue
  | expectingKey
  | expectingColon
  | expectingComma
  | unterminatedText
  | controlCharacter
  | badEscape
  | badCodeEscape
  | extraData
  | byteOrderMark
  | integerTooLong (digits : Nat)
  deriving DecidableEq, Repr

/-- What is wrong with the text. A number that is too long is no fault of the text. -/
def ReadError.message : ReadError → String
  | expectingValue => "Expecting value"
  | expectingKey => "Expecting property name enclosed in double quotes"
  | expectingColon => "Expecting ':' delimiter"
  | expectingComma => "Expecting ',' delimiter"
  | unterminatedText => "Unterminated string starting at"
  | controlCharacter => "Invalid control character at"
  | badEscape => "Invalid \\escape"
  | badCodeEscape => "Invalid \\uXXXX escape"
  | extraData => "Extra data"
  | byteOrderMark => "Unexpected UTF-8 BOM (decode using utf-8-sig)"
  | integerTooLong digits => tooLongMessage digits

def isGap (c : Char) : Bool :=
  c = ' ' || c = '\t' || c = '\n' || c = '\r'

def skipGap (s : List Char) : List Char :=
  s.dropWhile isGap

/-! ## Texts -/

def hexValue? (c : Char) : Option Nat :=
  if '0' ≤ c ∧ c ≤ '9' then some (c.toNat - 48)
  else if 'a' ≤ c ∧ c ≤ 'f' then some (c.toNat - 87)
  else if 'A' ≤ c ∧ c ≤ 'F' then some (c.toNat - 55)
  else none

/-- Four hexadecimal digits, which may not end the text. -/
def readCode? : List Char → Option (Nat × List Char)
  | a :: b :: c :: d :: e :: rest => do
    let digits ← [a, b, c, d].mapM hexValue?
    return (ofDigits 16 digits, e :: rest)
  | _ => none

/-- The second half of a pair of codes that stands for one character. -/
def readLowHalf? : List Char → Option (Nat × List Char)
  | '\\' :: 'u' :: rest =>
    match readCode? rest with
    | some (n, after) => if 0xDC00 ≤ n ∧ n < 0xE000 then some (n, after) else none
    | none => none
  | _ => none

/-- Whether a text has a code escape for half of a pair without its other half. `afterHigh`:
    the text follows the escape of a first half. -/
def holdsHalfPair (afterHigh : Bool) : List Char → Bool
  | [] => afterHigh
  | '\\' :: 'u' :: a :: b :: c :: d :: rest =>
    match [a, b, c, d].mapM hexValue? with
    | none => afterHigh || holdsHalfPair false rest
    | some digits =>
      let code := ofDigits 16 digits
      if 0xDC00 ≤ code ∧ code < 0xE000 then !afterHigh || holdsHalfPair false rest
      else afterHigh || holdsHalfPair (0xD800 ≤ code ∧ code < 0xDC00) rest
  | '\\' :: _ :: rest => afterHigh || holdsHalfPair false rest
  | _ :: rest => afterHigh || holdsHalfPair false rest

/-- A code escape after its `u`. Half of a pair without its other half, which no text here can
    hold, is read as the replacement character. -/
def readEscapedCode? (s : List Char) : Option (Char × List Char) := do
  let (n, rest) ← readCode? s
  if 0xD800 ≤ n ∧ n < 0xDC00 then
    match readLowHalf? rest with
    | some (low, after) => return (Char.ofNat (0x10000 + (n - 0xD800) * 0x400 + (low - 0xDC00)), after)
    | none => return ('\ufffd', rest)
  else if 0xDC00 ≤ n ∧ n < 0xE000 then return ('\ufffd', rest)
  else return (Char.ofNat n, rest)

def shortEscape? : Char → Option Char
  | '"' => some '"'
  | '\\' => some '\\'
  | '/' => some '/'
  | 'b' => some '\x08'
  | 'f' => some '\x0c'
  | 'n' => some '\n'
  | 'r' => some '\r'
  | 't' => some '\t'
  | _ => none

/-- The text up to its closing quote, of which `done` holds the characters read, in reverse. -/
def readTextFrom : Nat → List Char → List Char → Except ReadError (String × List Char)
  | 0, _, _ => .error .unterminatedText
  | _, _, [] => .error .unterminatedText
  | _, done, '"' :: rest => .ok (String.ofList done.reverse, rest)
  | _, _, ['\\'] => .error .unterminatedText
  | fuel + 1, done, '\\' :: 'u' :: rest =>
    match readEscapedCode? rest with
    | some (c, after) => readTextFrom fuel (c :: done) after
    | none => .error .badCodeEscape
  | fuel + 1, done, '\\' :: e :: rest =>
    match shortEscape? e with
    | some c => readTextFrom fuel (c :: done) rest
    | none => .error .badEscape
  | fuel + 1, done, c :: rest =>
    if c.toNat < 32 then .error .controlCharacter else readTextFrom fuel (c :: done) rest

def readText (s : List Char) : Except ReadError (String × List Char) :=
  readTextFrom (s.length + 1) [] s

/-! ## Numbers -/

def spanDigits (s : List Char) : List Char × List Char :=
  (s.takeWhile Char.isDigit, s.dropWhile Char.isDigit)

def digitValues (s : List Char) : List Nat :=
  s.map fun c => c.toNat - 48

/-- The digits of the whole part: a zero alone, or digits that start with another one. -/
def readWhole? : List Char → Option (List Char × List Char)
  | '0' :: rest => some (['0'], rest)
  | s => if (spanDigits s).1.isEmpty then none else some (spanDigits s)

def readFraction? : List Char → Option (List Char × List Char)
  | '.' :: rest => if (spanDigits rest).1.isEmpty then none else some (spanDigits rest)
  | _ => none

def readExponentPart? : List Char → Option (Int × List Char)
  | c :: rest =>
    if c = 'e' ∨ c = 'E' then
      let (negative, body) := signOf rest
      let (digits, after) := spanDigits body
      if digits.isEmpty then none else some (signed negative (ofDigits 10 (digitValues digits)), after)
    else none
  | [] => none

/-- A number after its sign. It is an integer unless a point or an exponent is written. -/
def readNumber (negative : Bool) (s : List Char) : Except ReadError (Value × List Char) :=
  match readWhole? s with
  | none => .error .expectingValue
  | some (whole, rest) =>
    let fraction := readFraction? rest
    let afterFraction := (fraction.map (·.2)).getD rest
    let exponent := readExponentPart? afterFraction
    if fraction.isNone && exponent.isNone then
      if whole.length ≤ digitLimit then
        .ok (.int (signed negative (ofDigits 10 (digitValues whole))), rest)
      else .error (.integerTooLong whole.length)
    else
      let decimals := (fraction.map (·.1)).getD []
      let (power, after) := exponent.getD (0, afterFraction)
      .ok (.float (Binary64.ofDecimal negative (ofDigits 10 (digitValues (whole ++ decimals)))
        (power - decimals.length)), after)

/-! ## Values -/

def literals : List (String × Value) :=
  [("null", .null), ("true", .bool true), ("false", .bool false), ("NaN", .float .nan),
   ("Infinity", .float (.infinite false)), ("-Infinity", .float (.infinite true))]

def dropLiteral? (literal : String) (s : List Char) : Option (List Char) :=
  if literal.toList.isPrefixOf s then some (s.drop literal.toList.length) else none

def readLiteral? (s : List Char) : Option (Value × List Char) :=
  literals.findSome? fun (word, v) => (dropLiteral? word s).map (v, ·)

def readScalar (s : List Char) : Except ReadError (Value × List Char) :=
  match s with
  | '"' :: rest => do
    let (t, after) ← readText rest
    return (.text t, after)
  | _ =>
    match readLiteral? s with
    | some found => .ok found
    | none =>
      match s with
      | '-' :: rest => readNumber true rest
      | _ => readNumber false s

mutual

/-- A value with no white space before it. -/
def readValue : Nat → List Char → Except ReadError (Value × List Char)
  | 0, _ => .error .expectingValue
  | fuel + 1, '[' :: rest =>
    match skipGap rest with
    | ']' :: after => .ok (.list [], after)
    | inside => do
      let (items, after) ← readItems fuel inside
      return (.list items, after)
  | fuel + 1, '\x7b' :: rest =>
    match skipGap rest with
    | '\x7d' :: after => .ok (.dict [], after)
    | inside => do
      let (writes, after) ← readEntries fuel inside
      return (.dict (Entries.ofWrites writes), after)
  | _ + 1, s => readScalar s

/-- The items of a list up to its end, at least one. -/
def readItems : Nat → List Char → Except ReadError (List Value × List Char)
  | 0, _ => .error .expectingValue
  | fuel + 1, s => do
    let (v, rest) ← readValue fuel s
    match skipGap rest with
    | ']' :: after => return ([v], after)
    | ',' :: after =>
      let (vs, left) ← readItems fuel (skipGap after)
      return (v :: vs, left)
    | _ => throw .expectingComma

/-- The entries of a mapping up to its end, at least one. -/
def readEntries : Nat → List Char → Except ReadError (List (Scalar × Value) × List Char)
  | 0, _ => .error .expectingKey
  | fuel + 1, '"' :: s => do
    let (key, rest) ← readText s
    match skipGap rest with
    | ':' :: afterColon =>
      let (v, rest) ← readValue fuel (skipGap afterColon)
      match skipGap rest with
      | '\x7d' :: after => return ([(.text key, v)], after)
      | ',' :: after =>
        let (more, left) ← readEntries fuel (skipGap after)
        return ((.text key, v) :: more, left)
      | _ => throw .expectingComma
    | _ => throw .expectingColon
  | _ + 1, _ => .error .expectingKey

end

/-- A whole document: one value with white space around it. -/
def read (s : List Char) : Except ReadError Value :=
  match s with
  | '\ufeff' :: _ => .error .byteOrderMark
  | _ => do
    let (v, rest) ← readValue (2 * s.length + 2) (skipGap s)
    if (skipGap rest).isEmpty then return v else throw .extraData

end SearchBox.Json

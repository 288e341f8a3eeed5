import SearchBox.Number.Numeral

/-!
  SearchBox.Yaml.ImpliedTag — the tags that plain scalars without one have by their form, as
  YAML 1.1 defines them: truth values, numbers, null, times, and the two keys with a meaning of
  their own. All other plain scalars are texts.
-/

namespace SearchBox.Yaml

open SearchBox.Number

def ownTag (name : String) : String :=
  "tag:yaml.org,2002:" ++ name

def truthWords : List String :=
  ["yes", "Yes", "YES", "no", "No", "NO", "true", "True", "TRUE", "false", "False", "FALSE",
   "on", "On", "ON", "off", "Off", "OFF"]

def nullWords : List String :=
  ["", "~", "null", "Null", "NULL"]

def isDigitOrLine (c : Char) : Bool :=
  c.isDigit || c = '_'

/-- What follows the longest run of numbers below 60, each with a colon in front. -/
def dropSixties : List Char → List Char
  | ':' :: a :: rest =>
    if !a.isDigit then ':' :: a :: rest
    else
      match rest with
      | b :: later => if a ≤ '5' && b.isDigit then dropSixties later else dropSixties (b :: later)
      | [] => []
  | s => s

def isSixties (s : List Char) : Bool :=
  s.head? = some ':' && (dropSixties s).isEmpty

def isNonempty (p : Char → Bool) (s : List Char) : Bool :=
  !s.isEmpty && s.all p

def isHexOrLine (c : Char) : Bool :=
  isDigitOrLine c || 'a' ≤ c && c ≤ 'f' || 'A' ≤ c && c ≤ 'F'

/-- An integer of base two, eight, sixteen or ten, or in sixties. -/
def isInteger (s : List Char) : Bool :=
  match (signOf s).2 with
  | '0' :: 'b' :: rest => isNonempty (fun c => c = '0' || c = '1' || c = '_') rest
  | '0' :: 'x' :: rest => isNonempty isHexOrLine rest
  | '0' :: rest => rest.all fun c => isDigitOrLine c && c ≠ '8' && c ≠ '9'
  | c :: rest =>
    let after := rest.dropWhile isDigitOrLine
    c.isDigit && (after.isEmpty || isSixties after)
  | [] => false

def isExponent : List Char → Bool
  | [] => true
  | e :: sign :: digits =>
    (e = 'e' || e = 'E') && (sign = '-' || sign = '+') && isNonempty Char.isDigit digits
  | _ => false

/-- Digits and low lines that start with a digit, and what follows them. -/
def afterDigits? : List Char → Option (List Char)
  | c :: rest => if c.isDigit then some (rest.dropWhile isDigitOrLine) else none
  | [] => none

/-- A decimal with a point, in sixties with a point, or a word for infinity or no number. -/
def isDecimal (s : List Char) : Bool :=
  let body := (signOf s).2
  let word := String.ofList s
  let bodyWord := String.ofList body
  bodyWord = ".inf" || bodyWord = ".Inf" || bodyWord = ".INF" ||
    word = ".nan" || word = ".NaN" || word = ".NAN" ||
    (match s with
      | '.' :: rest => (afterDigits? rest).any isExponent
      | _ => false) ||
    (match afterDigits? body with
      | some ('.' :: rest) => isExponent (rest.dropWhile isDigitOrLine)
      | some (':' :: rest) =>
        match dropSixties (':' :: rest) with
        | '.' :: decimals => decimals.all isDigitOrLine
        | _ => false
      | _ => false)

/-! ## Times -/

structure TimeDigits where
  hour : List Char
  minute : List Char
  second : List Char
  fraction : List Char
  /-- The sign of the offset, or a `Z`; a blank if there is none. -/
  zone : Char
  zoneHour : List Char
  zoneMinute : List Char

structure TimestampDigits where
  year : List Char
  month : List Char
  day : List Char
  time : Option TimeDigits

/-- A run of at least `least` and at most `most` digits, and what follows it. -/
def takeDigits? (least most : Nat) (s : List Char) : Option (List Char × List Char) :=
  let run := (s.take most).takeWhile Char.isDigit
  if least ≤ run.length then some (run, s.drop run.length) else none

def dropChar? (c : Char) : List Char → Option (List Char)
  | d :: rest => if c = d then some rest else none
  | [] => none

def isGapChar (c : Char) : Bool :=
  c = ' ' || c = '\t'

def zoneDigits? (s : List Char) : Option (Char × List Char × List Char) :=
  match s.dropWhile isGapChar with
  | [] => if s.isEmpty then some (' ', [], []) else none
  | ['Z'] => some ('Z', [], [])
  | sign :: rest =>
    if sign = '-' || sign = '+' then do
      let (hour, rest) ← takeDigits? 1 2 rest
      match rest with
      | [] => return (sign, hour, [])
      | ':' :: rest => do
        let (minute, rest) ← takeDigits? 2 2 rest
        if rest.isEmpty then return (sign, hour, minute) else none
      | _ => none
    else none

/-- The time of day after a date and what separates the two. -/
def timeDigits? (s : List Char) : Option TimeDigits := do
  let s ← match s with
    | [] => none
    | c :: rest =>
      if c = 'T' || c = 't' then some rest
      else if isGapChar c then some (rest.dropWhile isGapChar)
      else none
  let (hour, s) ← takeDigits? 1 2 s
  let (minute, s) ← takeDigits? 2 2 (← dropChar? ':' s)
  let (second, s) ← takeDigits? 2 2 (← dropChar? ':' s)
  let (fraction, s) :=
    match s with
    | '.' :: rest => (rest.takeWhile Char.isDigit, rest.dropWhile Char.isDigit)
    | _ => ([], s)
  let (zone, zoneHour, zoneMinute) ← zoneDigits? s
  return { hour, minute, second, fraction, zone, zoneHour, zoneMinute }

def timestampDigits? (s : List Char) : Option TimestampDigits := do
  let (year, s) ← takeDigits? 4 4 s
  let (month, s) ← takeDigits? 1 2 (← dropChar? '-' s)
  let (day, s) ← takeDigits? 1 2 (← dropChar? '-' s)
  if s.isEmpty then return ⟨year, month, day, none⟩
  return ⟨year, month, day, some (← timeDigits? s)⟩

/-- A date on its own has all its digits. -/
def isTimestamp (s : List Char) : Bool :=
  match timestampDigits? s with
  | some t => t.time.isSome || t.month.length = 2 && t.day.length = 2
  | none => false

/-- The text without an end of line at its end, if anything else is left. -/
def dropFinalBreak (s : List Char) : List Char :=
  if s.getLast? = some '\n' && 1 < s.length then s.dropLast else s

def impliedTag (s : List Char) : String :=
  let s := dropFinalBreak s
  let word := String.ofList s
  if truthWords.contains word then ownTag "bool"
  else if isDecimal s then ownTag "float"
  else if isInteger s then ownTag "int"
  else if word = "<<" then ownTag "merge"
  else if nullWords.contains word then ownTag "null"
  else if isTimestamp s then ownTag "timestamp"
  else if word = "=" then ownTag "value"
  else if word = "!" || word = "&" || word = "*" then ownTag "yaml"
  else ownTag "str"

end SearchBox.Yaml

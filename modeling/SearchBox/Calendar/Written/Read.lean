import SearchBox.Calendar.Written.Draft

/-!
  SearchBox.Calendar.Written.Read — the pieces of a written date read from left to right into
  a draft. What a piece means is decided by the piece itself, the pieces next to it and what
  has been read before; the first reading that fits is taken.
-/

namespace SearchBox.Calendar.Written

open SearchBox.Number SearchBox.Text

/-- A draft and the number of pieces read beyond the one at hand. -/
abbrev Step := Except WrittenError (Draft × Nat)

def natural? := Draft.natural?

/-- Seconds with up to six places; further digits are cut off. -/
def secondsOf (t : Token) : Except WrittenError (Nat × Nat) :=
  if t.contains '.' then do
    let whole ← natural? (t.takeWhile (· ≠ '.'))
    let tail := (t.dropWhile (· ≠ '.')).drop 1
    let micro ← natural? ((tail ++ List.replicate (6 - tail.length) '0').take 6)
    return (whole, micro)
  else do return (← natural? t, 0)

/-- Minutes, and seconds for the part after the point. -/
def Draft.setMinutes (d : Draft) (n : Decimal) : Except WrittenError Draft := do
  let second ← n.sixtieths?
  return { d with minute := some n.floor, second := second }

def hourOfHalf (hour half : Nat) : Nat :=
  if hour < 12 ∧ half = 1 then hour + 12 else if hour = 12 ∧ half = 0 then 0 else hour

def Draft.setUnit (d : Draft) (t : Token) (n : Decimal) : Nat → Except WrittenError Draft
  | 0 => do
    let minute ← n.sixtieths?
    return { d with hour := some n.floor, minute := minute.or d.minute }
  | 1 => d.setMinutes n
  | 2 => do
    let (second, micro) ← secondsOf t
    return { d with second := some second, micro := some micro }
  | _ => .ok d

/-- The unit of a number and the pieces read up to it: the unit named after the number, or the
    one below the unit named before it. -/
def unitOf? (before rest : List Token) : Option (Nat × Nat) :=
  match rest.head?.bind unit? with
  | some u => some (u, 1)
  | none =>
    match rest with
    | [' '] :: x :: _ =>
      match unit? x with
      | some u => some (u, 2)
      | none => (before.head?.bind unit?).map fun u => (u + 1, 0)
    | _ =>
      match before.head?.bind unit? with
      | some u => some (u + 1, 0)
      | none =>
        match before, rest with
        | [' '] :: x :: _, [] => (unit? x).map fun u => (u + 1, 0)
        | _, _ => none

def Draft.addMonthOrToken (d : Draft) (t : Token) : Except WrittenError Draft :=
  match month? t with
  | some m => d.addMonth m
  | none => d.addToken t

def isDateSeparator (t : Token) : Bool :=
  t = ['-'] || t = ['/'] || t = ['.']

/-- The numbers of a date with separators, after its first number and separator. -/
def Draft.addSeparated (d : Draft) (separator : Token) : List Token → Step
  | [] => .ok (d, 1)
  | x :: more =>
    if isFiller x then .ok (d, 1)
    else do
      let d ← if x.all isDigit then d.addToken x
        else
          match month? x with
          | some m => d.addMonth m
          | none => throw .unreadable
      match more with
      | s :: after =>
        if s = separator then
          match after with
          | y :: _ => return (← d.addMonthOrToken y, 4)
          | [] => throw .unreadable
        else return (d, 2)
      | [] => return (d, 2)

/-- Hours, minutes and perhaps seconds with colons between them, after the first colon. -/
def Draft.setClock (d : Draft) (hour : Nat) (m : Token) (more : List Token) : Step := do
  let n ← match Decimal.read? m with
    | some n => pure n
    | none => throw .unreadable
  let d ← { d with hour := some hour }.setMinutes n
  match more with
  | [':'] :: s :: _ =>
    let (second, micro) ← secondsOf s
    return ({ d with second := some second, micro := some micro }, 4)
  | _ => return (d, 2)

/-- The digits of a time without colons: hours and minutes, and seconds if there are more. -/
def Draft.setRunningClock (d : Draft) (t : Token) : Except WrittenError Draft := do
  let hour ← natural? (t.take 2)
  let minute ← natural? ((t.drop 2).take 2)
  let (second, micro) ← secondsOf (t.drop 4)
  return { d with hour := some hour, minute := some minute, second := some second, micro := some micro }

/-- The digits of a date without separators, with the digits of a time after them. -/
def Draft.setRunningDate (d : Draft) (t : Token) : Except WrittenError Draft := do
  let d ← d.addYearToken (t.take 4)
  let d ← d.addToken ((t.drop 4).take 2)
  let d ← d.addToken ((t.drop 6).take 2)
  if t.length ≤ 8 then return d
  let hour ← natural? ((t.drop 8).take 2)
  let minute ← natural? ((t.drop 10).take 2)
  let d := { d with hour := some hour, minute := some minute }
  if t.length ≤ 12 then return d
  return { d with second := some (← natural? (t.drop 12)) }

/-- Whether a number after a whole date is a time without colons. -/
def Draft.awaitsClock (d : Draft) (t : Token) (rest : List Token) : Bool :=
  d.numbers.length = 3 && (t.length = 2 || t.length = 4) && d.hour.isNone &&
    match rest with
    | [] => true
    | x :: _ => x ≠ [':'] && (unit? x).isNone

def Draft.readNumber (d : Draft) (before : List Token) (t : Token) (n : Decimal) (rest : List Token) :
    Step :=
  if d.awaitsClock t rest then do
    let hour ← natural? (t.take 2)
    let minute ← if t.length = 4 then some <$> natural? (t.drop 2) else pure d.minute
    return ({ d with hour := some hour, minute := minute }, 0)
  else if t.length = 6 ∨ 6 < t.length ∧ t.idxOf '.' = 6 then
    if d.numbers.isEmpty && !t.contains '.' then do
      let d ← d.addToken (t.take 2)
      let d ← d.addToken ((t.drop 2).take 2)
      return (← d.addToken (t.drop 4), 0)
    else do return (← d.setRunningClock t, 0)
  else if t.length = 8 ∨ t.length = 12 ∨ t.length = 14 then do return (← d.setRunningDate t, 0)
  else
    match unitOf? before rest with
    | some (u, used) => do return (← d.setUnit t n u, used)
    | none =>
      match rest with
      | [] => do return (← d.addDecimal n, 1)
      | s :: more =>
        match s, more with
        | [':'], m :: after => d.setClock n.floor m after
        | _, _ =>
          if isDateSeparator s then do (← d.addToken t).addSeparated s more
          else if isFiller s then
            match more.head?.bind halfDay? with
            | some half => .ok ({ d with hour := some (hourOfHalf n.floor half) }, 2)
            | none => do return (← d.addDecimal n, 1)
          else
            match halfDay? s with
            | some half =>
              if n.isBelow 24 then .ok ({ d with hour := some (hourOfHalf n.floor half) }, 1)
              else if d.couldBeDay n then do return (← d.addDecimal n, 0)
              else .error .unreadable
            | none => if d.couldBeDay n then do return (← d.addDecimal n, 0) else .error .unreadable

/-- The year of a number that may lack its century: the one less than fifty years after the
    current year, or at most fifty before it. -/
def withCentury (currentYear n : Nat) : Nat :=
  if 100 ≤ n then n
  else
    let year := n + currentYear / 100 * 100
    if currentYear + 50 ≤ year then year - 100
    else if year + 50 < currentYear then year + 100
    else year

/-- The name of a month, with what may follow it: a day and year after separators, or `of` and
    a year. -/
def Draft.readMonth (d : Draft) (currentYear month : Nat) (rest : List Token) : Step := do
  let d ← d.addMonth month
  match rest with
  | [' '] :: word :: [' '] :: y :: _ =>
    if lower word = ['o', 'f'] then
      if y.all isDigit then
        let n ← natural? y
        let year := withCentury currentYear n
        return (← d.addYear year (2 < (Nat.toDigits 10 year).length), 4)
      return (d, 4)
    return (d, 0)
  | s :: more =>
    if s = ['-'] ∨ s = ['/'] then
      match more with
      | [] => throw .unreadable
      | x :: more =>
        let d ← d.addToken x
        match more with
        | s' :: after =>
          if s' = s then
            match after with
            | y :: _ => return (← d.addToken y, 4)
            | [] => throw .unreadable
          return (d, 2)
        | [] => return (d, 2)
    return (d, 0)
  | [] => return (d, 0)

/-- Whether a piece can be a zone's name: a few capitals after an hour. -/
def Draft.couldBeZone (d : Draft) (offset : Option Int) (t : Token) : Bool :=
  d.hour.isSome && d.zoneName.isNone && offset.isNone && t.length ≤ 5 &&
    (t.all Char.isUpper || isUniversalName t)

def isSign (t : Token) : Bool :=
  t = ['+'] || t = ['-']

/-- A zone's name. A sign after it counts the other way round, and a name of universal time is
    then none. -/
def Draft.readZone (d : Draft) (t : Token) (rest : List Token) : Draft :=
  if (rest.head?.map isSign).getD false then
    { d with zoneName := if isUniversalWord t then none else some t, offset := none, reversed := true }
  else { d with zoneName := some t, offset := if t = ['z'] then some 0 else none }

/-- An offset after its sign, and the pieces it takes: four digits, hours and minutes with a
    colon, or hours. -/
def offsetOf : List Token → Except WrittenError (Int × Nat)
  | [] => .error .unreadable
  | x :: rest => do
    if x.length = 4 then
      let h ← natural? (x.take 2)
      let m ← natural? (x.drop 2)
      return ((h * 3600 + m * 60 : Nat), 1)
    match rest with
    | [':'] :: more =>
      let h ← natural? x
      match more with
      | y :: _ =>
        let m ← natural? y
        return ((h * 3600 + m * 60 : Nat), 3)
      | [] => throw .unreadable
    | _ =>
      if x.length ≤ 2 then
        let h ← natural? x
        return ((h * 3600 : Nat), 1)
      throw .unreadable

/-- An offset, and the name of its zone in parentheses. -/
def Draft.readOffset (d : Draft) (sign : Token) (rest : List Token) : Step := do
  let (seconds, used) ← offsetOf rest
  let ahead := (sign = ['+']) != d.reversed
  let d := { d with offset := some (if ahead then seconds else -seconds), reversed := false }
  match rest.drop used with
  | j :: ['('] :: name :: [')'] :: _ =>
    if isFiller j && 3 ≤ name.length && d.couldBeZone none name then
      return ({ d with zoneName := some name }, used + 4)
    return (d, used)
  | _ => return (d, used)

/-- Words that are read as a number without being one of the calendar's. -/
def isNumberWord (t : Token) : Bool :=
  ["nan", "inf", "infinity"].contains (String.ofList (lowerAscii t))

def Draft.readToken (d : Draft) (currentYear : Nat) (before : List Token) (t : Token) (rest : List Token) :
    Step :=
  match Decimal.read? t with
  | some n => d.readNumber before t n rest
  | none =>
    if isNumberWord t then .error .unreadable
    else
      match weekday? t with
      | some w => .ok ({ d with weekday := some w }, 0)
      | none =>
        match month? t with
        | some m => d.readMonth currentYear m rest
        | none =>
          match halfDay? t, d.hour with
          | some half, some hour =>
            if hour ≤ 12 then .ok ({ d with hour := some (hourOfHalf hour half) }, 0) else .error .unreadable
          | some _, none => .error .unreadable
          | none, _ =>
            if d.couldBeZone d.offset t then .ok (d.readZone t rest, 0)
            else if d.hour.isSome && isSign t then d.readOffset t rest
            else if isFiller t then .ok (d, 0)
            else .error .unreadable

/-- All pieces; `used` counts those that an earlier piece was read with. -/
def readFrom (currentYear : Nat) (d : Draft) (before : List Token) : Nat → List Token → Except WrittenError Draft
  | _, [] => .ok d
  | used + 1, t :: rest => readFrom currentYear d (t :: before) used rest
  | 0, t :: rest => do
    let (d, used) ← d.readToken currentYear before t rest
    readFrom currentYear d (t :: before) used rest

def draftOf (currentYear : Nat) (s : List Char) : Except WrittenError Draft :=
  readFrom currentYear {} [] 0 (tokens s)

end SearchBox.Calendar.Written

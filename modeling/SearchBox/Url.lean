import SearchBox.Text.LowerCase

/-!
  SearchBox.Url — the host of a URL. The authority stands between two slashes and the next
  slash, question mark or hash sign; its host is what is left without user, port and brackets.
  Brackets have to hold an address of version 6 or of a later version. A host must not hold
  characters that decompose into one that would end it.
-/

namespace SearchBox.Url

open SearchBox.Text

/-- The parts before and after the first occurrence of a character, if it occurs. -/
def cutAt (c : Char) (s : List Char) : List Char × Option (List Char) :=
  match s.dropWhile (· ≠ c) with
  | [] => (s, none)
  | _ :: after => (s.takeWhile (· ≠ c), some after)

/-- What stands after the last occurrence of a character, the whole if it does not occur. -/
def afterLast (c : Char) (s : List Char) : List Char :=
  (s.reverse.takeWhile (· ≠ c)).reverse

def splitAt (c : Char) : List Char → List (List Char)
  | [] => [[]]
  | d :: rest =>
    if d = c then [] :: splitAt c rest
    else
      match splitAt c rest with
      | part :: parts => (d :: part) :: parts
      | [] => [[d]]

/-! ## Addresses -/

def isHexDigit (c : Char) : Bool :=
  c.isDigit || 'a' ≤ c && c ≤ 'f' || 'A' ≤ c && c ≤ 'F'

def isOctet (s : List Char) : Bool :=
  !s.isEmpty && s.all Char.isDigit && s.length ≤ 3 && (s = ['0'] || s.head? ≠ some '0') &&
    s.foldl (fun n c => n * 10 + (c.toNat - 48)) 0 ≤ 255

def isAddress4 (s : List Char) : Bool :=
  let parts := splitAt '.' s
  parts.length = 4 && parts.all isOctet

def isGroup (s : List Char) : Bool :=
  !s.isEmpty && s.length ≤ 4 && s.all isHexDigit

/-- The groups of an address with its last part in the form of version 4 as two groups. -/
def withoutAddress4 (parts : List (List Char)) : Option (List (List Char)) :=
  match parts.getLast? with
  | some last =>
    if last.contains '.' then
      if isAddress4 last then some (parts.dropLast ++ [['0'], ['0']]) else none
    else some parts
  | none => none

/-- Whether parts between colons are an address: eight groups, or fewer with one empty part
    that stands for the missing ones. At an end the empty part counts with its colon. -/
def areGroups (parts : List (List Char)) : Bool :=
  let inner := (parts.drop 1).dropLast
  match inner.countP (·.isEmpty) with
  | 0 => parts.length = 8 && parts.all isGroup
  | 1 =>
    let high := parts.takeWhile (!·.isEmpty)
    let startsEmpty := (parts.head?.map (·.isEmpty)).getD false
    let low := parts.reverse.takeWhile (!·.isEmpty)
    let endsEmpty := (parts.getLast?.map (·.isEmpty)).getD false
    let secondEmpty := (inner.head?.map (·.isEmpty)).getD false
    let lastInnerEmpty := (inner.getLast?.map (·.isEmpty)).getD false
    (!startsEmpty || secondEmpty) && (!endsEmpty || lastInnerEmpty) &&
      high.all isGroup && low.all isGroup && high.length + low.length < 8
  | _ => false

/-- An address of version 6, perhaps with a zone after a percent sign. -/
def isAddress6 (s : List Char) : Bool :=
  let (address, zone) := cutAt '%' s
  let parts := splitAt ':' address
  !s.contains '/' && zone.all (fun z => !z.isEmpty && !z.contains '%') && 3 ≤ parts.length &&
    match withoutAddress4 parts with
    | some parts => parts.length ≤ 9 && areGroups parts
    | none => false

/-- An address of a later version: its number, a point and anything. -/
def isLaterAddress (s : List Char) : Bool :=
  match s with
  | 'v' :: rest =>
    let number := rest.takeWhile isHexDigit
    match rest.drop number.length with
    | '.' :: _ :: _ => !number.isEmpty
    | _ => false
  | _ => false

def isBracketed (s : List Char) : Bool :=
  if s.head? = some 'v' then isLaterAddress s else isAddress6 s

/-! ## The authority -/

/-- Characters that decompose into a slash, question mark, hash sign, at sign or colon. -/
def treacherous : List Nat :=
  [0x2047, 0x2048, 0x2049, 0x2100, 0x2101, 0x2105, 0x2106, 0x2A74, 0xFE13, 0xFE16, 0xFE55, 0xFE56,
   0xFE5F, 0xFE6B, 0xFF03, 0xFF0F, 0xFF1A, 0xFF1F, 0xFF20]

def isSchemeChar (c : Char) : Bool :=
  c.isAlphanum || c = '+' || c = '-' || c = '.'

def dropScheme (s : List Char) : List Char :=
  match cutAt ':' s with
  | (scheme, some rest) =>
    if (scheme.head?.map Char.isAlpha).getD false && scheme.all isSchemeChar then rest else s
  | (_, none) => s

/-- Control characters and spaces in front are dropped, tabs and ends of line everywhere. -/
def cleaned (s : List Char) : List Char :=
  (s.dropWhile (·.toNat ≤ 32)).filter fun c => c ≠ '\t' && c ≠ '\r' && c ≠ '\n'

/-- The authority of a URL, empty if it has none. -/
def authority (s : List Char) : List Char :=
  match dropScheme (cleaned s) with
  | '/' :: '/' :: rest => rest.takeWhile fun c => c ≠ '/' && c ≠ '?' && c ≠ '#'
  | _ => []

/-- Whether an authority's brackets are a pair that holds an address, or absent. -/
def bracketsFit (authority : List Char) : Bool :=
  match authority.contains '[', authority.contains ']' with
  | false, false => true
  | true, true => isBracketed (cutAt ']' ((cutAt '[' authority).2.getD [])).1
  | _, _ => false

/-- The host named by an authority: without user and port, the zone of an address as written
    and all else lower-cased. -/
def hostOf (authority : List Char) : List Char :=
  let place := afterLast '@' authority
  let host :=
    match cutAt '[' place with
    | (_, some bracketed) => (cutAt ']' bracketed).1
    | (_, none) => (cutAt ':' place).1
  match cutAt '%' host with
  | (name, some zone) => lower name ++ '%' :: zone
  | (name, none) => lower name

/-- The host of a URL, empty if it has none or is malformed. -/
def host (s : List Char) : List Char :=
  let a := authority s
  if bracketsFit a && a.all (!treacherous.contains ·.toNat) then hostOf a else []

end SearchBox.Url

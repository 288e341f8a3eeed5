import SearchBox.Number.Numeral
import SearchBox.Text.Quoted

/-!
  SearchBox.Text.Utf8 — bytes read as UTF-8, strictly: no overlong forms, no surrogates,
  nothing above U+10FFFF. The first fault ends the reading and is reported with its place.
-/

namespace SearchBox.Text

open SearchBox.Number

inductive Utf8Fault where
  | badStart
  | badContinuation
  | endOfData
  deriving DecidableEq, Repr

structure Utf8Error where
  fault : Utf8Fault
  /-- The byte at which the faulty sequence starts. -/
  byte : UInt8
  place : Nat
  length : Nat
  deriving DecidableEq, Repr

def Utf8Error.message (e : Utf8Error) : String :=
  let reason :=
    match e.fault with
    | .badStart => "invalid start byte"
    | .badContinuation => "invalid continuation byte"
    | .endOfData => "unexpected end of data"
  let digits (n : Nat) : String := String.ofList (integerText n)
  let what :=
    if e.length = 1 then
      "byte 0x" ++ String.ofList (hexDigits 2 e.byte.toNat) ++ " in position " ++ digits e.place
    else "bytes in position " ++ digits e.place ++ "-" ++ digits (e.place + e.length - 1)
  "'utf-8' codec can't decode " ++ what ++ ": " ++ reason

/-- How many bytes follow a byte that starts a character, and the range of the first of them. -/
def utf8Lead (b : Nat) : Option (Nat × Nat × Nat) :=
  if b < 0x80 then some (0, 0, 0)
  else if b < 0xC2 then none
  else if b < 0xE0 then some (1, 0x80, 0xBF)
  else if b = 0xE0 then some (2, 0xA0, 0xBF)
  else if b = 0xED then some (2, 0x80, 0x9F)
  else if b < 0xF0 then some (2, 0x80, 0xBF)
  else if b = 0xF0 then some (3, 0x90, 0xBF)
  else if b < 0xF4 then some (3, 0x80, 0xBF)
  else if b = 0xF4 then some (3, 0x80, 0x8F)
  else none

/-- The value that the bits of a starting byte contribute. -/
def utf8LeadBits (b more : Nat) : Nat :=
  match more with
  | 0 => b
  | 1 => b - 0xC0
  | 2 => b - 0xE0
  | _ => b - 0xF0

/-- Reads `more` continuation bytes, the first of them in the given range; `seen` counts the
    bytes of the sequence so far. Answers the code point, or the fault and the bytes at fault. -/
def continueUtf8 (low high value seen : Nat) : Nat → List UInt8 → Except (Utf8Fault × Nat) Nat
  | 0, _ => .ok value
  | _ + 1, [] => .error (.endOfData, seen)
  | more + 1, b :: rest =>
    if low ≤ b.toNat ∧ b.toNat ≤ high then
      continueUtf8 0x80 0xBF (value * 64 + (b.toNat - 0x80)) (seen + 1) more rest
    else .error (.badContinuation, seen)

/-- The characters of bytes; `place` is that of the front and `skip` bytes belong to the last
    character. -/
def decodeUtf8From (place : Nat) : Nat → List UInt8 → Except Utf8Error (List Char)
  | _, [] => .ok []
  | skip + 1, _ :: rest => decodeUtf8From (place + 1) skip rest
  | 0, b :: rest =>
    match utf8Lead b.toNat with
    | none => .error ⟨.badStart, b, place, 1⟩
    | some (more, low, high) =>
      match continueUtf8 low high (utf8LeadBits b.toNat more) 1 more rest with
      | .error (fault, length) => .error ⟨fault, b, place, length⟩
      | .ok code => do return Char.ofNat code :: (← decodeUtf8From (place + 1) more rest)

def decodeUtf8 (bytes : List UInt8) : Except Utf8Error (List Char) :=
  decodeUtf8From 0 0 bytes

/-- Every way to end a line as a line feed. -/
def withLineFeeds : List Char → List Char
  | [] => []
  | '\r' :: '\n' :: rest => '\n' :: withLineFeeds rest
  | '\r' :: rest => '\n' :: withLineFeeds rest
  | c :: rest => c :: withLineFeeds rest

end SearchBox.Text

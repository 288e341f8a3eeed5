import SearchBox.Calendar.Moment
import SearchBox.Number.Binary64

/-!
  SearchBox.Value — values as documents hold them: scalars, lists, sets and mappings. A
  mapping keeps its entries in order. A key occurs once: writing to it again replaces the
  value and leaves the entry in its place. Numbers that are equal are one key, whatever their
  kind.
-/

namespace SearchBox

open SearchBox.Calendar SearchBox.Number

/-- A time as a document gives it, with or without an offset. -/
inductive Timestamp where
  | floating (wall : WallTime)
  | fixed (moment : Moment)
  deriving DecidableEq, Repr

inductive Scalar where
  | null
  | bool (b : Bool)
  | int (n : Int)
  | float (x : Binary64)
  | text (s : String)
  | bytes (bs : List UInt8)
  | date (d : Date)
  | time (t : Timestamp)
  deriving DecidableEq

namespace Scalar

/-- The form in which equal keys are the same: whole numbers as integers, times with an offset
    in universal time. -/
def keyForm : Scalar → Scalar
  | bool b => int (if b then 1 else 0)
  | float x =>
    match x.integer? with
    | some n => int n
    | none => float x
  | time (.fixed m) => if m.offsetUsable then time (.fixed (.universal m.instant)) else time (.fixed m)
  | s => s

def sameKey (a b : Scalar) : Bool :=
  a.keyForm = b.keyForm

@[simp] theorem sameKey_self (k : Scalar) : k.sameKey k = true := by
  simp [sameKey]

end Scalar

inductive Value where
  | scalar (s : Scalar)
  | list (items : List Value)
  | tuple (items : List Value)
  | set (items : List Scalar)
  | dict (entries : List (Scalar × Value))
  deriving Inhabited

namespace Value

@[match_pattern] abbrev null : Value := scalar .null
@[match_pattern] abbrev bool (b : Bool) : Value := scalar (.bool b)
@[match_pattern] abbrev int (n : Int) : Value := scalar (.int n)
@[match_pattern] abbrev float (x : Binary64) : Value := scalar (.float x)
@[match_pattern] abbrev text (s : String) : Value := scalar (.text s)

/-- Values count as true unless they are null, false, zero or empty. -/
def isTruthy : Value → Bool
  | scalar .null => false
  | scalar (.bool b) => b
  | scalar (.int n) => n ≠ 0
  | scalar (.float x) => !x.isZero
  | scalar (.text s) => s ≠ ""
  | scalar (.bytes bs) => !bs.isEmpty
  | scalar (.date _) => true
  | scalar (.time _) => true
  | list items => !items.isEmpty
  | tuple items => !items.isEmpty
  | set items => !items.isEmpty
  | dict entries => !entries.isEmpty

def text? : Value → Option String
  | text s => some s
  | _ => none

def items? : Value → Option (List Value)
  | list items => some items
  | tuple items => some items
  | _ => none

end Value

/-- Entries in order, each key once. -/
abbrev Entries := List (Scalar × Value)

namespace Entries

/-- Writes a value under a key: in place if the key is there, else at the end. -/
def put (key : Scalar) (value : Value) : Entries → Entries
  | [] => [(key, value)]
  | (k, v) :: rest => if k.sameKey key then (k, value) :: rest else (k, v) :: put key value rest

def ofWrites (writes : List (Scalar × Value)) : Entries :=
  writes.foldl (fun entries (k, v) => put k v entries) []

def find? (key : Scalar) : Entries → Option Value
  | [] => none
  | (k, v) :: rest => if k.sameKey key then some v else find? key rest

@[simp] theorem find?_put_self (key : Scalar) (value : Value) (es : Entries) :
    find? key (put key value es) = some value := by
  induction es with
  | nil => simp [put, find?]
  | cons e rest ih =>
    obtain ⟨k, v⟩ := e
    by_cases h : k.sameKey key <;> simp [put, find?, h, ih]

theorem find?_put_of_sameKey_eq_false {key other : Scalar} (h : key.sameKey other = false) (value : Value)
    (es : Entries) : find? other (put key value es) = find? other es := by
  induction es with
  | nil => simp [put, find?, h]
  | cons e rest ih =>
    obtain ⟨k, v⟩ := e
    by_cases hk : k.sameKey key
    · have hother : k.sameKey other = false := by
        simp only [Scalar.sameKey, decide_eq_true_eq, decide_eq_false_iff_not] at hk h ⊢
        rwa [hk]
      simp [put, find?, hk, hother]
    · simp [put, find?, hk, ih]

def get? (entries : Entries) (name : String) : Option Value :=
  entries.find? (.text name)

def getOrNull (entries : Entries) (name : String) : Value :=
  (entries.get? name).getD .null

end Entries
end SearchBox

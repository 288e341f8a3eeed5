import SearchBox.Record

/-!
  SearchBox.Search.Arrange — the order of results: as stored, or by creation time with the
  newest or the oldest first. Records without a creation time come last. Records created at
  the same instant, and those without a time, keep the order they had.
-/

namespace SearchBox.Search

open SearchBox.Calendar

inductive Order where
  | store
  | newest
  | oldest
  deriving DecidableEq, Repr

namespace Order

def name : Order → String
  | store => "store"
  | newest => "newest"
  | oldest => "oldest"

def all : List Order :=
  [store, newest, oldest]

def ofName? (name : String) : Option Order :=
  all.find? (·.name = name)

theorem ofName?_name (o : Order) : ofName? o.name = some o := by
  cases o <;> decide

def allows (order : Order) (a b : Moment) : Bool :=
  match order with
  | newest => b.instant ≤ a.instant
  | _ => a.instant ≤ b.instant

end Order

inductive ArrangeError where
  | badInstant (cause : InstantError)
  | notComparable (cause : CalendarError)
  deriving DecidableEq, Repr

/-- Whether all moments compare with each other: their offsets can be computed with, or are
    all the same. -/
def areComparable : List Moment → Bool
  | [] => true
  | m :: ms => (m :: ms).all (·.offsetUsable) || ms.all fun n => n.offset = m.offset && n.label = m.label

def arrange {α : Type} (createdAt : α → Except InstantError (Option Moment)) (order : Order)
    (records : List α) : Except ArrangeError (List α) :=
  if order = .store then .ok records
  else do
    let timed ← (records.mapM fun r => do return (← createdAt r, r)).mapError .badInstant
    let dated := timed.filterMap fun (t, r) => t.map (·, r)
    let undated := timed.filterMap fun (t, r) => if t.isNone then some r else none
    if areComparable (dated.map (·.1)) then
      return (dated.mergeSort fun a b => order.allows a.1 b.1).map (·.2) ++ undated
    throw (.notComparable .offsetOutside)

end SearchBox.Search

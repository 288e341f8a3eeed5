import SearchBox.Log
import SearchBox.Query.Compile
import SearchBox.Query.Literal
import SearchBox.Query.Stored
import SearchBox.Search.Arrange
import SearchBox.Search.Scan

/-!
  SearchBox.Search — one search: the query is compiled, the records are scanned, what matches
  is put in order, and the result is cut to a limit.
-/

namespace SearchBox.Search

open SearchBox.Calendar SearchBox.Log SearchBox.Number SearchBox.Query SearchBox.Text

inductive SearchError where
  | notCompiled (cause : CompileError)
  | notScanned (cause : ScanError)
  | notArranged (cause : ArrangeError)
  | unknownOrder (name : String)
  deriving DecidableEq, Repr

def MatchError.message : MatchError → String
  | noText cause => cause.message
  | badInstant cause => cause.message
  | offCalendar cause => cause.message
  | noKind reason => reason
  | kindEnded reason => reason

def SearchError.message : SearchError → String
  | notCompiled .missingValue => "tuple index out of range"
  | notCompiled .numberTooLong => InstantError.numberTooLong.message
  | notScanned (.noMatch cause) => cause.message
  | notScanned .zeroChunk => "range() arg 3 must not be zero"
  | notScanned .chunkEnded => "generator raised StopIteration"
  | notArranged (.badInstant cause) => cause.message
  | notArranged (.notComparable cause) => cause.message
  | unknownOrder name => "Unsupported sort order: " ++ name

structure Result where
  query : Value
  filter : Filter
  items : List Record
  /-- The number of records looked at. -/
  scanned : Nat
  /-- The number of records that match, before the limit. -/
  matched : Nat

structure Service where
  matcher : Matcher
  workload : Workload := {}

def countText (n : Nat) : String :=
  String.ofList (integerText n)

/-- The filter of a query of any kind. Only texts ask for anything. -/
def compileLogged (clock : Clock) (lexicon : Lexicon) (query : Value) : Logged SearchError Filter := do
  match query with
  | .text s =>
    let f ← Logged.ofExcept ((compile clock lexicon s).mapError .notCompiled)
    if !isBlankText s.toList then
      note .debug ("Compiled query " ++ String.ofList query.literal ++ " -> " ++ String.ofList f.literal)
    return f
  | _ => return {}

def Service.scanLogged (s : Service) (f : Filter) (records : List Record) :
    Logged SearchError (List Record) := do
  if !s.workload.isInline f records then
    let parts ← Logged.ofExcept ((s.workload.chunksOf records).mapError .notScanned)
    note .debug ("Scanning " ++ countText records.length ++ " records in " ++ countText parts.length ++
      " shards (workers=" ++ String.ofList (integerText s.workload.workers) ++ ")")
  Logged.ofExcept ((scan s.workload s.matcher f records).mapError .notScanned)

def arrangeNamed (clock : Clock) (order : String) (records : List Record) :
    Except SearchError (List Record) :=
  match Order.ofName? order with
  | none => .error (.unknownOrder order)
  | some order => (arrange (Record.createdAt clock) order records).mapError .notArranged

/-- The first records up to a limit; -1 is none. Another negative limit leaves that many off
    at the end. -/
def cutTo {α : Type} (limit : Int) (items : List α) : List α :=
  if limit = -1 then items
  else if 0 ≤ limit then items.take limit.toNat
  else items.take (items.length - limit.natAbs)

theorem cutTo_isPrefix {α : Type} (limit : Int) (items : List α) : cutTo limit items <+: items := by
  unfold cutTo
  split
  · exact List.prefix_refl _
  · split <;> exact List.take_prefix _ _

def Service.search (s : Service) (query : Value) (records : List Record) (order : String) (limit : Int) :
    Logged SearchError Result := do
  let f ← compileLogged s.matcher.clock s.matcher.lexicon query
  let found ← s.scanLogged f records
  note .info ("Matched " ++ countText found.length ++ " of " ++ countText records.length ++ " records")
  let ordered ← Logged.ofExcept (arrangeNamed s.matcher.clock order found)
  return {
    query := query
    filter := f
    items := cutTo limit ordered
    scanned := records.length
    matched := found.length }

end SearchBox.Search

import SearchBox.Search.Gate

/-!
  SearchBox.Search.Scan — the records that match a filter, in the order they are given. With
  more than one worker and more records than fit one chunk, the records are cut into chunks,
  each chunk is scanned on its own, and the results are put together in the order of the
  chunks. An empty filter keeps every record unseen, so that one without a text is no error.
  The results of chunks are handed out by an iteration, which an error that signals the end of
  an iteration may not leave: from a chunk it comes out as another one.
-/

namespace SearchBox.Search

open SearchBox.Query

structure Workload where
  workers : Int := 1
  chunkSize : Int := 2000
  deriving DecidableEq, Repr

def scanChunk (m : Matcher) (f : Filter) (records : List Record) : Except MatchError (List Record) :=
  if f.isEmpty then .ok records else records.filterM (m.accepts f)

/-- The list cut into pieces of `size + 1`, the last one perhaps shorter; `fuel` is at least the
    list's length. -/
def chunksFrom {α : Type} (size : Nat) : Nat → List α → List (List α)
  | 0, _ => []
  | _, [] => []
  | fuel + 1, xs => xs.take (size + 1) :: chunksFrom size fuel (xs.drop (size + 1))

theorem flatten_chunksFrom {α : Type} (size fuel : Nat) (xs : List α) (h : xs.length ≤ fuel) :
    (chunksFrom size fuel xs).flatten = xs := by
  induction fuel generalizing xs with
  | zero => simp [chunksFrom, List.length_eq_zero_iff.1 (Nat.le_zero.1 h)]
  | succ fuel ih =>
    cases xs with
    | nil => simp [chunksFrom]
    | cons x rest =>
      rw [chunksFrom, List.flatten_cons, ih, List.take_append_drop]
      · simp only [List.length_drop, List.length_cons] at h ⊢
        omega
      · simp

/-- The list cut into chunks. Of a negative size there are none. -/
def chunks {α : Type} (size : Int) (xs : List α) : List (List α) :=
  if size < 0 then [] else chunksFrom (size.toNat - 1) xs.length xs

theorem flatten_chunks {α : Type} {size : Int} (h : 0 ≤ size) (xs : List α) : (chunks size xs).flatten = xs := by
  rw [chunks, if_neg (by omega)]
  exact flatten_chunksFrom _ _ _ (Nat.le_refl _)

def Workload.isInline (w : Workload) (f : Filter) (records : List Record) : Bool :=
  w.workers ≤ 1 || (records.length : Int) ≤ w.chunkSize || f.isEmpty

inductive ScanError where
  | noMatch (cause : MatchError)
  | zeroChunk
  /-- A test in a chunk has signalled the end of an iteration. -/
  | chunkEnded
  deriving DecidableEq, Repr

/-- How the error of a test in a chunk comes out. -/
def ScanError.ofChunk : MatchError → ScanError
  | .kindEnded _ => .chunkEnded
  | e => .noMatch e

def Workload.chunksOf (w : Workload) (records : List Record) : Except ScanError (List (List Record)) :=
  if w.chunkSize = 0 then .error .zeroChunk else .ok (chunks w.chunkSize records)

def scanChunks (m : Matcher) (f : Filter) (parts : List (List Record)) :
    Except ScanError (List Record) := do
  return (← (parts.mapM (scanChunk m f)).mapError .ofChunk).flatten

def scan (w : Workload) (m : Matcher) (f : Filter) (records : List Record) :
    Except ScanError (List Record) :=
  if w.isInline f records then (scanChunk m f records).mapError .noMatch
  else do scanChunks m f (← w.chunksOf records)

end SearchBox.Search

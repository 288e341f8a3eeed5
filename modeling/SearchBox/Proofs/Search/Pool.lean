import Mathlib.Logic.Relation
import SearchBox.Proofs.Search.Scan

/-!
  SearchBox.Proofs.Search.Pool — a scan by several workers. Each chunk is a job that tests its
  records in turn; the jobs go on in any order and at any pace. The answers are handed out chunk
  by chunk by an iteration, to which an error that signals the end of an iteration means
  something, so that another error comes out in its place. Whoever does a step, what the pool
  will come to stays the same (`promised_of_step`): it is what testing one record after the
  other comes to, the error of the first failing record included, but for that one error
  (`scanLogged_any_order`).

  The other way in which scans differ from testing one record after another is the empty filter,
  which keeps records unseen. `scanLogged_number` and `scanLogged_ended` are one input for each.
-/

namespace SearchBox.Search

open SearchBox.Log SearchBox.Query

/-- The scan of a chunk on its way. -/
structure Job where
  /-- The records that are not tested yet. -/
  rest : List Record
  /-- The records that have matched so far, or the error that has stopped the scan. -/
  outcome : Except MatchError (List Record)

def Job.start (part : List Record) : Job :=
  ⟨part, .ok []⟩

/-- One test in one of the jobs. -/
inductive PoolStep (m : Matcher) (f : Filter) : List Job → List Job → Prop where
  | matching (before after : List Job) {r : Record} {later kept : List Record} (h : m.explain f r = .ok none) :
      PoolStep m f (before ++ ⟨r :: later, .ok kept⟩ :: after) (before ++ ⟨later, .ok (kept ++ [r])⟩ :: after)
  | other (before after : List Job) {r : Record} {later kept : List Record} {g : Gate}
      (h : m.explain f r = .ok (some g)) :
      PoolStep m f (before ++ ⟨r :: later, .ok kept⟩ :: after) (before ++ ⟨later, .ok kept⟩ :: after)
  | failing (before after : List Job) {r : Record} {later kept : List Record} {e : MatchError}
      (h : m.explain f r = .error e) :
      PoolStep m f (before ++ ⟨r :: later, .ok kept⟩ :: after) (before ++ ⟨later, .error e⟩ :: after)

/-- The answer of the pool once it can be read: chunk by chunk, up to the first error. -/
def answer? : List Job → Option (Except ScanError (List Record))
  | [] => some (.ok [])
  | ⟨_, .error e⟩ :: _ => some (.error (.ofChunk e))
  | ⟨_ :: _, .ok _⟩ :: _ => none
  | ⟨[], .ok kept⟩ :: later => (answer? later).map (·.map (kept ++ ·))

/-! ## What a pool comes to -/

section Pool

variable (m : Matcher) (f : Filter)

def Job.promised (j : Job) : Except MatchError (List Record) := do
  return (← j.outcome) ++ (← oneByOne m f j.rest)

def promised : List Job → Except MatchError (List Record)
  | [] => .ok []
  | j :: later => do return (← j.promised m f) ++ (← promised later)

variable {m f}

theorem promised_append_cons {j j' : Job} (h : j.promised m f = j'.promised m f) (before after : List Job) :
    promised m f (before ++ j :: after) = promised m f (before ++ j' :: after) := by
  induction before with
  | nil => rw [List.nil_append, List.nil_append, promised, promised, h]
  | cons i before ih => rw [List.cons_append, List.cons_append, promised, promised, ih]

/-- A step of any job leaves what the pool comes to as it is. -/
theorem promised_of_step {jobs later : List Job} (h : PoolStep m f jobs later) :
    promised m f later = promised m f jobs := by
  cases h with
  | matching before after h =>
    refine promised_append_cons ?_ before after
    simp only [Job.promised, oneByOne, h]
    rename_i rest kept
    cases oneByOne m f rest <;> simp [bind, Except.bind, pure, Except.pure]
  | other before after h =>
    refine promised_append_cons ?_ before after
    simp only [Job.promised, oneByOne, h]
    rename_i rest kept g
    cases oneByOne m f rest <;> simp [bind, Except.bind, pure, Except.pure]
  | failing before after h =>
    refine promised_append_cons ?_ before after
    simp only [Job.promised, oneByOne, h]
    rfl

theorem promised_of_run {jobs later : List Job} (h : Relation.ReflTransGen (PoolStep m f) jobs later) :
    promised m f later = promised m f jobs := by
  induction h with
  | refl => rfl
  | tail _ hstep ih => rw [promised_of_step hstep, ih]

theorem promised_start (parts : List (List Record)) :
    promised m f (parts.map Job.start) = oneByOne m f parts.flatten := by
  induction parts with
  | nil => rfl
  | cons part later ih =>
    rw [List.map_cons, promised, ih, List.flatten_cons, oneByOne_append]
    congr 1
    show (do return [] ++ (← oneByOne m f part)) = _
    cases oneByOne m f part <;> rfl

theorem promised_of_answer {jobs : List Job} {a : Except ScanError (List Record)} (h : answer? jobs = some a) :
    (promised m f jobs).mapError .ofChunk = a := by
  fun_induction answer? jobs generalizing a with
  | case1 =>
    cases h
    rfl
  | case2 rest e later =>
    cases h
    rfl
  | case3 => cases h
  | case4 kept later ih =>
    obtain ⟨b, hb, rfl⟩ := Option.map_eq_some_iff.1 h
    rw [promised, ← ih hb]
    cases promised m f later <;>
      simp [Job.promised, oneByOne, bind, Except.bind, pure, Except.pure, Except.map]

/-! ## Runs come to an end -/

def remaining (jobs : List Job) : Nat :=
  (jobs.flatMap Job.rest).length

theorem remaining_lt_of_step {jobs later : List Job} (h : PoolStep m f jobs later) :
    remaining later < remaining jobs := by
  unfold remaining
  cases h <;> rw [List.flatMap_append, List.flatMap_append, List.flatMap_cons, List.flatMap_cons] <;>
    simp only [List.length_append, List.length_cons] <;> omega

theorem PoolStep.cons {jobs later : List Job} (h : PoolStep m f jobs later) (j : Job) :
    PoolStep m f (j :: jobs) (j :: later) := by
  cases h with
  | matching before after h => exact .matching (j :: before) after h
  | other before after h => exact .other (j :: before) after h
  | failing before after h => exact .failing (j :: before) after h

/-- A pool without an answer has a job that can go on. -/
theorem exists_step_of_no_answer {jobs : List Job} (h : answer? jobs = none) : ∃ later, PoolStep m f jobs later := by
  fun_induction answer? jobs with
  | case1 => cases h
  | case2 => cases h
  | case3 r rest kept after =>
    rcases hr : m.explain f r with e | _ | g
    · exact ⟨_, .failing [] after hr⟩
    · exact ⟨_, .matching [] after hr⟩
    · exact ⟨_, .other [] after hr⟩
  | case4 kept after ih =>
    obtain ⟨later, hstep⟩ := ih (by simpa using h)
    exact ⟨_, hstep.cons _⟩

/-- Every run can be carried on until the pool has an answer. -/
theorem exists_answer (jobs : List Job) :
    ∃ later a, Relation.ReflTransGen (PoolStep m f) jobs later ∧ answer? later = some a := by
  induction hn : remaining jobs using Nat.strongRecOn generalizing jobs with
  | ind n ih =>
    cases ha : answer? jobs with
    | some a => exact ⟨jobs, a, .refl, ha⟩
    | none =>
      obtain ⟨next, hstep⟩ := exists_step_of_no_answer (m := m) (f := f) ha
      obtain ⟨later, a, hrun, hanswer⟩ := ih _ (hn ▸ remaining_lt_of_step hstep) next rfl
      exact ⟨later, a, .head hstep hrun, hanswer⟩

end Pool

theorem mapError_notScanned_iff {x : Except ScanError (List Record)} {y : Except MatchError (List Record)} :
    x.mapError SearchError.notScanned = y.mapError (fun e => .notScanned (.noMatch e)) ↔ x = y.mapError .noMatch := by
  cases x <;> cases y <;> simp

/-- A scan comes to what testing one record after the other comes to, just if the filter is not
    empty or meets records that can be tested, and no chunk signals the end of an iteration. So does
    a pool of workers that scan the chunks in any order, but for the error that such a signal is
    given as: whatever its jobs have done, an answer that it has is this one, and it can always go
    on to have it. -/
theorem scanLogged_any_order (s : Service) (f : Filter) (records : List Record)
    (hsize : 1 ≤ s.workload.chunkSize) :
    (∀ log, ((s.scanLogged f records).run.run log).1 = if f.isEmpty then .ok records else
      (oneByOne s.matcher f records).mapError fun e => .notScanned (s.workload.errorOf f records e)) ∧
    (∀ log, ((s.scanLogged f records).run.run log).1 =
        (oneByOne s.matcher f records).mapError (fun e => .notScanned (.noMatch e)) ↔
      IsScannedAlike s.workload s.matcher f records) ∧
    ∀ jobs, Relation.ReflTransGen (PoolStep s.matcher f) ((chunks s.workload.chunkSize records).map Job.start) jobs →
      (∀ a, answer? jobs = some a → a = (oneByOne s.matcher f records).mapError .ofChunk) ∧
      ∃ later, Relation.ReflTransGen (PoolStep s.matcher f) jobs later ∧
        answer? later = some ((oneByOne s.matcher f records).mapError .ofChunk) := by
  refine ⟨fun log => ?_, fun log => ?_, fun jobs hrun => ?_⟩
  · rw [scanLogged_eq s f records log hsize]
    cases hf : f.isEmpty with
    | true =>
      rw [scan_of_isEmpty _ hf]
      rfl
    | false =>
      rw [scan_eq hsize hf]
      cases oneByOne s.matcher f records <;> rfl
  · rw [scanLogged_eq s f records log hsize, ← scan_eq_iff hsize]
    exact mapError_notScanned_iff
  · have hpromised : promised s.matcher f jobs = oneByOne s.matcher f records := by
      rw [promised_of_run hrun, promised_start, flatten_chunks (by omega)]
    refine ⟨fun a ha => by rw [← hpromised, promised_of_answer ha], ?_⟩
    obtain ⟨later, a, hmore, ha⟩ := exists_answer (m := s.matcher) (f := f) jobs
    refine ⟨later, hmore, ?_⟩
    rw [ha, ← hpromised, ← promised_of_run hmore, promised_of_answer ha]

/-- With two workers, and types that cannot be told, the first record that is asked for its
    type ends the scan, whichever chunk is scanned first. -/
theorem scanLogged_any_order_two_chunks :
    let s : Service := ⟨⟨⟨.universal 0, .utc⟩, .builtin, fun _ => .error (.noKind "no type")⟩, ⟨2, 1⟩⟩
    let f : Filter := { terms := ["red"], types := ["note"] }
    let records : List Record :=
      [.other .null "", .mapping [(.text "title", .text "red hat")], .mapping [(.text "title", .text "red shoes")]]
    1 ≤ s.workload.chunkSize ∧
      (∀ log, ((s.scanLogged f records).run.run log).1 = .error (.notScanned (.noMatch (.noKind "no type")))) ∧
      IsScannedAlike s.workload s.matcher f records ∧
      ∀ jobs, Relation.ReflTransGen (PoolStep s.matcher f) ((chunks 1 records).map Job.start) jobs →
        ∀ a, answer? jobs = some a → a = .error (.noMatch (.noKind "no type")) := by
  intro s f records
  have hsize : 1 ≤ s.workload.chunkSize := by decide
  have hone : oneByOne s.matcher f records = .error (.noKind "no type") := by rfl
  obtain ⟨hscan, halike, hpool⟩ := scanLogged_any_order s f records hsize
  have hanswer : ∀ log, ((s.scanLogged f records).run.run log).1 = .error (.notScanned (.noMatch (.noKind "no type"))) := by
    intro log
    rw [hscan log, hone]
    rfl
  refine ⟨hsize, hanswer, (halike []).1 ?_, fun jobs hrun a ha => ?_⟩
  · rw [hanswer, hone]
    rfl
  · rw [(hpool jobs hrun).1 a ha, hone]
    rfl

/-- A scan that asks for nothing keeps a record whose title is too long a number to be written, and
    testing that record fails. -/
theorem scanLogged_number :
    let s : Service := ⟨.standard ⟨.universal 0, .utc⟩ .builtin Record.kind, {}⟩
    (∀ log, ((s.scanLogged {} [.overlong]).run.run log).1 = .ok [.overlong]) ∧
      oneByOne s.matcher {} [.overlong] = .error (.noText .tooManyDigits) := by
  intro s
  refine ⟨fun log => ?_, ?_⟩
  · rw [scanLogged_eq s {} _ log (by decide), scan_of_isEmpty _ rfl]
    rfl
  · rw [oneByOne, explain_of_not_isSearchable s.matcher {} Record.not_isSearchable_overlong]
    rfl

/-- What tells types may say so as an iteration says that it is at its end. In chunks another error
    comes of it. -/
theorem scanLogged_ended :
    let m : Matcher := ⟨⟨.universal 0, .utc⟩, .builtin, fun _ => .error (.kindEnded "no type")⟩
    let f : Filter := { types := ["note"] }
    let records : List Record := [.mapping [], .mapping []]
    (∀ log, (((Service.mk m ⟨2, 1⟩).scanLogged f records).run.run log).1 = .error (.notScanned .chunkEnded)) ∧
      (∀ log, (((Service.mk m {}).scanLogged f records).run.run log).1 =
        .error (.notScanned (.noMatch (.kindEnded "no type")))) ∧
      oneByOne m f records = .error (.kindEnded "no type") := by
  intro m f records
  refine ⟨fun log => ?_, fun log => ?_, rfl⟩
  · rw [scanLogged_eq _ f records log (by decide)]
    rfl
  · rw [scanLogged_eq _ f records log (by decide)]
    rfl

end SearchBox.Search

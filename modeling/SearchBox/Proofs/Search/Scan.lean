import SearchBox.Proofs.Search.Gates
import SearchBox.Search

/-!
  SearchBox.Proofs.Search.Scan — a scan tests the records one after another. The specification
  is `oneByOne`: the records that match in their order, or the error of the first record that
  cannot be tested. A scan in one go comes out as it says, and so does one in chunks, where the
  error is given as chunks give it (`scan_eq`). This is not always the same error
  (`ofChunk_eq_iff`), and an empty filter keeps also what cannot be tested; but for these two
  ways a scan is `oneByOne` (`scan_eq_iff`).
-/

namespace SearchBox.Search

open SearchBox.Log SearchBox.Query

/-! ## One record after another -/

def oneByOne (m : Matcher) (f : Filter) : List Record → Except MatchError (List Record)
  | [] => .ok []
  | r :: later => do
    let failing ← m.explain f r
    let kept ← oneByOne m f later
    return if failing.isNone then r :: kept else kept

section OneByOne

variable {m : Matcher} {f : Filter}

theorem oneByOne_append (a b : List Record) :
    oneByOne m f (a ++ b) = do return (← oneByOne m f a) ++ (← oneByOne m f b) := by
  induction a with
  | nil => cases h : oneByOne m f b <;> simp [oneByOne, h, bind, Except.bind, pure, Except.pure]
  | cons r later ih =>
    rw [List.cons_append, oneByOne, ih, oneByOne]
    rcases m.explain f r with e | failing
    · rfl
    · cases oneByOne m f later
      · rfl
      · cases oneByOne m f b
        · rfl
        · cases failing <;> rfl

/-- The list when all records can be tested. -/
theorem oneByOne_eq_ok {records : List Record} (h : ∀ r ∈ records, ∃ failing, m.explain f r = .ok failing) :
    oneByOne m f records = .ok (records.filter fun r => m.explain f r = .ok none) := by
  induction records with
  | nil => rfl
  | cons r later ih =>
    obtain ⟨⟨failing, hr⟩, hlater⟩ := List.forall_mem_cons.1 h
    rw [oneByOne, ih hlater, hr]
    cases failing <;> simp [hr, bind, Except.bind, pure, Except.pure]

theorem exists_explain_of_oneByOne {records found : List Record} (h : oneByOne m f records = .ok found) :
    ∀ r ∈ records, ∃ failing, m.explain f r = .ok failing := by
  induction records generalizing found with
  | nil => exact fun r hr => by cases hr
  | cons r later ih =>
    obtain ⟨failing, hr, h⟩ := bind_eq_ok.1 h
    obtain ⟨kept, hkept, -⟩ := bind_eq_ok.1 h
    exact List.forall_mem_cons.2 ⟨⟨failing, hr⟩, ih hkept⟩

/-- With an empty filter all records are kept, if they can all be tested. -/
theorem oneByOne_of_isEmpty {records : List Record} (hf : f.isEmpty = true) (h : ∀ r ∈ records, r.IsSearchable) :
    oneByOne m f records = .ok records := by
  have hnone : ∀ r ∈ records, m.explain f r = .ok none := fun r hr => explain_of_isEmpty m (h r hr) hf
  rw [oneByOne_eq_ok fun r hr => ⟨none, hnone r hr⟩]
  exact congrArg Except.ok (List.filter_eq_self.2 fun r hr => decide_eq_true (hnone r hr))

/-! ## Chunks -/

/-- The library's filter keeps what has matched so far in reverse. -/
theorem filterAuxM_accepts (records kept : List Record) :
    List.filterAuxM (m.accepts f) records kept = (oneByOne m f records).map (·.reverse ++ kept) := by
  induction records generalizing kept with
  | nil => rfl
  | cons r later ih =>
    rw [List.filterAuxM, oneByOne, Matcher.accepts]
    rcases m.explain f r with e | failing
    · rfl
    · show List.filterAuxM (m.accepts f) later _ = _
      rw [ih]
      cases oneByOne m f later
      · rfl
      · cases failing <;> simp [bind, Except.bind, pure, Except.pure, Except.map]

theorem filterM_accepts (records : List Record) : records.filterM (m.accepts f) = oneByOne m f records := by
  rw [List.filterM, filterAuxM_accepts]
  cases oneByOne m f records <;> simp [bind, Except.bind, pure, Except.pure, Except.map]

theorem scanChunk_of_isEmpty (hf : f.isEmpty = true) (records : List Record) : scanChunk m f records = .ok records :=
  if_pos hf

theorem scanChunk_of_not_isEmpty (hf : f.isEmpty = false) (records : List Record) :
    scanChunk m f records = oneByOne m f records := by
  rw [scanChunk, if_neg (by rw [hf]; exact Bool.false_ne_true), filterM_accepts]

theorem mapM_scanChunk (hf : f.isEmpty = false) (parts : List (List Record)) :
    (do return (← parts.mapM (scanChunk m f)).flatten) = oneByOne m f parts.flatten := by
  induction parts with
  | nil => rfl
  | cons part later ih =>
    rw [List.mapM_cons, List.flatten_cons, oneByOne_append, ← ih, scanChunk_of_not_isEmpty hf]
    cases oneByOne m f part
    · rfl
    · cases later.mapM (scanChunk m f) <;> rfl

/-! ## Scans -/

/-- How the error of a test comes out of a scan. -/
def Workload.errorOf (w : Workload) (f : Filter) (records : List Record) : MatchError → ScanError :=
  if w.isInline f records then .noMatch else .ofChunk

/-- A scan with an empty filter is never shared out. -/
theorem isInline_of_isEmpty (w : Workload) (hf : f.isEmpty = true) (records : List Record) :
    w.isInline f records = true := by
  rw [Workload.isInline, hf, Bool.or_true]

theorem scan_of_isEmpty (w : Workload) (hf : f.isEmpty = true) (records : List Record) :
    scan w m f records = .ok records := by
  rw [scan, if_pos (isInline_of_isEmpty w hf records), scanChunk_of_isEmpty hf]
  rfl

theorem scan_eq {w : Workload} (hsize : 1 ≤ w.chunkSize) (hf : f.isEmpty = false) (records : List Record) :
    scan w m f records = (oneByOne m f records).mapError (w.errorOf f records) := by
  unfold scan Workload.errorOf
  split
  · rw [scanChunk_of_not_isEmpty hf]
  · have hparts : w.chunksOf records = .ok (chunks w.chunkSize records) := if_neg (by omega)
    have hall := mapM_scanChunk (m := m) hf (chunks w.chunkSize records)
    rw [flatten_chunks (by omega)] at hall
    rw [hparts, ← hall]
    show scanChunks m f _ = _
    unfold scanChunks
    cases (chunks w.chunkSize records).mapM (scanChunk m f) <;> rfl

/-- Chunks change the error that signals the end of an iteration, and no other one. -/
theorem ofChunk_eq_iff {e : MatchError} : ScanError.ofChunk e = .noMatch e ↔ ∀ reason, e ≠ .kindEnded reason := by
  cases e <;> simp [ScanError.ofChunk]

/-- A scan with a filter that asks for nothing only meets records that can be tested, and no test
    in a chunk ends with the error that signals the end of an iteration. -/
structure IsScannedAlike (w : Workload) (m : Matcher) (f : Filter) (records : List Record) : Prop where
  searchable : f.isEmpty = true → ∀ r ∈ records, r.IsSearchable
  unended : w.isInline f records = false → ∀ reason, oneByOne m f records ≠ .error (.kindEnded reason)

/-- When a scan comes to what testing one record after another comes to. -/
theorem scan_eq_iff {w : Workload} (hsize : 1 ≤ w.chunkSize) {records : List Record} :
    scan w m f records = (oneByOne m f records).mapError .noMatch ↔ IsScannedAlike w m f records := by
  cases hf : f.isEmpty with
  | true =>
    rw [scan_of_isEmpty w hf]
    constructor
    · intro h
      refine ⟨fun _ r hr => ?_, fun hshared => ?_⟩
      · obtain ⟨failing, hexplain⟩ := exists_explain_of_oneByOne (mapError_eq_ok.1 h.symm) r hr
        exact isSearchable_of_explain hexplain
      · rw [isInline_of_isEmpty w hf] at hshared
        cases hshared
    · intro h
      rw [oneByOne_of_isEmpty hf (h.searchable hf)]
      rfl
  | false =>
    have hempty : f.isEmpty = true → ∀ r ∈ records, r.IsSearchable := by
      intro hempty
      rw [hf] at hempty
      cases hempty
    rw [scan_eq hsize hf, Workload.errorOf]
    cases hinline : w.isInline f records with
    | true =>
      refine ⟨fun _ => ⟨hempty, fun hshared => ?_⟩, fun _ => rfl⟩
      rw [hinline] at hshared
      cases hshared
    | false =>
      cases hone : oneByOne m f records with
      | ok found => exact ⟨fun _ => ⟨hempty, fun _ _ => by rw [hone]; nofun⟩, fun _ => rfl⟩
      | error e =>
        show Except.error (ScanError.ofChunk e) = .error (.noMatch e) ↔ _
        rw [Except.error.injEq, ofChunk_eq_iff]
        constructor
        · intro h
          refine ⟨hempty, fun _ reason hreason => h reason ?_⟩
          rw [hone] at hreason
          exact Except.error.inj hreason
        · rintro h reason rfl
          exact h.unended hinline reason hone

/-- A scan finds what testing one record after another finds, if that has an answer. -/
theorem scan_of_oneByOne {w : Workload} (hsize : 1 ≤ w.chunkSize) {records found : List Record}
    (h : oneByOne m f records = .ok found) : scan w m f records = .ok found := by
  have halike : IsScannedAlike w m f records := by
    refine ⟨fun _ r hr => ?_, fun _ reason => by rw [h]; nofun⟩
    obtain ⟨failing, hexplain⟩ := exists_explain_of_oneByOne h r hr
    exact isSearchable_of_explain hexplain
  rw [(scan_eq_iff hsize).2 halike, h]
  rfl

end OneByOne

/-! ## With messages -/

/-- Messages change nothing about what a scan finds. -/
theorem scanLogged_eq (s : Service) (f : Filter) (records : List Record) (log : List Entry)
    (hsize : 1 ≤ s.workload.chunkSize) :
    ((s.scanLogged f records).run.run log).1 = (scan s.workload s.matcher f records).mapError .notScanned := by
  unfold Service.scanLogged
  split
  · rw [show s.workload.chunksOf records = .ok (chunks s.workload.chunkSize records) from if_neg (by omega)]
    cases scan s.workload s.matcher f records <;> rfl
  · cases scan s.workload s.matcher f records <;> rfl

end SearchBox.Search

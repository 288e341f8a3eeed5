import SearchBox.Proofs.Search.Arrange
import SearchBox.Proofs.Search.Scan
import SearchBox.Record.Kind

/-!
  SearchBox.Proofs.Search.Beside — one query next to another one. A search that returns has the
  records that match, in order (`search_eq`). With two plain queries side by side it keeps of
  the first one's results those that match the second one too, whichever comes first
  (`search_beside`), if the records can be written. An empty query asks for nothing, so that its
  search returns records that cannot, and the search for more does not return
  (`search_beside_number`).
-/

namespace SearchBox.Search

open SearchBox.Calendar SearchBox.Log SearchBox.Query

/-! ## Answers -/

/-- What a computation comes to after some messages. -/
def answerOf {ε α : Type} (x : Logged ε α) (log : List Entry) : Except ε α :=
  (x.run.run log).1

section Answer

variable {ε α β : Type}

theorem answerOf_bind {x : Logged ε α} {a : α} {log : List Entry} (h : answerOf x log = .ok a)
    (k : α → Logged ε β) : ∃ log', answerOf (x >>= k) log = answerOf (k a) log' := by
  refine ⟨(x.run.run log).2, ?_⟩
  show ((ExceptT.bindCont k (x.run.run log).1).run (x.run.run log).2).1 = _
  rw [show (x.run.run log).1 = .ok a from h]
  rfl

theorem answerOf_bind_error {x : Logged ε α} {e : ε} {log : List Entry} (h : answerOf x log = .error e)
    (k : α → Logged ε β) : answerOf (x >>= k) log = .error e := by
  show ((ExceptT.bindCont k (x.run.run log).1).run (x.run.run log).2).1 = _
  rw [show (x.run.run log).1 = .error e from h]
  rfl

theorem answerOf_bind_eq_ok {x : Logged ε α} {k : α → Logged ε β} {log : List Entry} {b : β}
    (h : answerOf (x >>= k) log = .ok b) : ∃ a log', answerOf x log = .ok a ∧ answerOf (k a) log' = .ok b := by
  cases hx : answerOf x log with
  | error e =>
    rw [answerOf_bind_error hx] at h
    cases h
  | ok a =>
    obtain ⟨log', hlog⟩ := answerOf_bind hx k
    exact ⟨a, log', rfl, hlog ▸ h⟩

theorem answerOf_bind_eq_error {x : Logged ε α} {k : α → Logged ε β} {log : List Entry} {e : ε}
    (h : answerOf (x >>= k) log = .error e) :
    answerOf x log = .error e ∨ ∃ a log', answerOf (k a) log' = .error e := by
  cases hx : answerOf x log with
  | error e' =>
    rw [answerOf_bind_error hx] at h
    cases h
    exact .inl rfl
  | ok a =>
    obtain ⟨log', hlog⟩ := answerOf_bind hx k
    exact .inr ⟨a, log', hlog ▸ h⟩

theorem answerOf_map (f : α → β) (x : Logged ε α) (log : List Entry) :
    answerOf (f <$> x) log = (answerOf x log).map f := by
  show (((f <$> x).run).run log).1 = _
  rw [ExceptT.run_map]
  rfl

theorem answerOf_note (level : Level) (message : String) (k : Unit → Logged ε β) (log : List Entry) :
    ∃ log', answerOf (note level message >>= k) log = answerOf (k ()) log' :=
  answerOf_bind rfl k

end Answer

/-! ## One search -/

theorem compileLogged_eq {clock : Clock} {lexicon : Lexicon} {query : String} {f : Filter}
    (h : compile clock lexicon query = .ok f) (log : List Entry) :
    answerOf (compileLogged clock lexicon (.text query)) log = .ok f := by
  have hf : answerOf (Logged.ofExcept ((compile clock lexicon query).mapError SearchError.notCompiled)) log = .ok f := by
    rw [h]
    rfl
  unfold compileLogged
  obtain ⟨log', hlog⟩ := answerOf_bind hf _
  rw [hlog]
  split <;> rfl

/-- A search comes to the matching records in order. -/
theorem search_eq {s : Service} {query : String} {f : Filter} {records found : List Record}
    (hsize : 1 ≤ s.workload.chunkSize) (hcompile : compile s.matcher.clock s.matcher.lexicon query = .ok f)
    (hfound : oneByOne s.matcher f records = .ok found) (o : Order) (limit : Int) (log : List Entry) :
    answerOf (s.search (.text query) records o.name limit) log =
      ((arrange (Record.createdAt s.matcher.clock) o found).mapError SearchError.notArranged).map fun ordered =>
        { query := .text query, filter := f, items := cutTo limit ordered, scanned := records.length,
          matched := found.length } := by
  unfold Service.search
  obtain ⟨log₁, h₁⟩ := answerOf_bind (compileLogged_eq hcompile log) _
  rw [h₁]
  have hscan : answerOf (s.scanLogged f records) log₁ = .ok found := by
    rw [answerOf, scanLogged_eq s f records log₁ hsize, scan_of_oneByOne hsize hfound]
    rfl
  obtain ⟨log₂, h₂⟩ := answerOf_bind hscan _
  rw [h₂]
  obtain ⟨log₃, h₃⟩ := answerOf_note .info _ _ log₂
  have harranged : arrangeNamed s.matcher.clock o.name found =
      (arrange (Record.createdAt s.matcher.clock) o found).mapError .notArranged := by
    rw [arrangeNamed, Order.ofName?_name]
  rw [h₃, harranged]
  cases arrange (Record.createdAt s.matcher.clock) o found <;> rfl

/-- A search fails where its scan does. -/
theorem search_eq_error {s : Service} {query : String} {f : Filter} {records : List Record} {e : ScanError}
    (hsize : 1 ≤ s.workload.chunkSize) (hcompile : compile s.matcher.clock s.matcher.lexicon query = .ok f)
    (hscan : scan s.workload s.matcher f records = .error e) (o : Order) (limit : Int) (log : List Entry) :
    answerOf (s.search (.text query) records o.name limit) log = .error (.notScanned e) := by
  unfold Service.search
  obtain ⟨log', h⟩ := answerOf_bind (compileLogged_eq hcompile log) _
  rw [h]
  refine answerOf_bind_error ?_ _
  rw [answerOf, scanLogged_eq s f records log' hsize, hscan]
  rfl

/-! ## Two queries side by side -/

def Service.standard (clock : Clock) (lexicon : Lexicon) (workload : Workload) : Service :=
  ⟨Matcher.standard clock lexicon Record.kind, workload⟩

section Beside

variable {s : Service} {f g h : Filter} {q q₁ : String} {records : List Record}

/-- The records that match, for a filter that only has lists of values. -/
theorem oneByOne_of_sameBeside (hr : ∀ x ∈ records, x.IsWritable) (hkind : ∀ x ∈ records, ∃ kind, s.matcher.kind x = .ok kind)
    (hf : f.SameBeside {}) :
    oneByOne s.matcher f records = .ok (records.filter fun r => s.matcher.explain f r = .ok none) := by
  refine oneByOne_eq_ok fun x hx => ?_
  obtain ⟨kind, hkind⟩ := hkind x hx
  exact explain_total hf (hr x hx) hkind

theorem filter_of_isUnion (hr : ∀ x ∈ records, x.IsWritable) (hkind : ∀ x ∈ records, ∃ kind, s.matcher.kind x = .ok kind)
    (hu : h.IsUnion f g) (hdisjoint : ∀ p, p.isAnyOf = true → f.part p = [] ∨ g.part p = [])
    (hh : h.SameBeside {}) (hf : f.SameBeside {}) (hg : g.SameBeside {}) :
    (records.filter fun x => s.matcher.explain h x = .ok none) =
      (records.filter fun x => s.matcher.explain f x = .ok none).filter
        fun x => s.matcher.explain g x = .ok none := by
  rw [List.filter_filter]
  refine List.filter_congr fun x hx => ?_
  obtain ⟨kind, hkind⟩ := hkind x hx
  rw [← Bool.decide_and, decide_eq_decide, and_comm]
  exact explain_of_isUnion (hr x hx) hkind hu hdisjoint hh hf hg

/-- A search for two filters in one keeps of the results for the first what matches the second. -/
theorem search_of_isUnion (hwritable : ∀ x ∈ records, x.IsWritable)
    (hkind : ∀ x ∈ records, ∃ kind, s.matcher.kind x = .ok kind) (hsize : 1 ≤ s.workload.chunkSize) {o : Order}
    (hq : compile s.matcher.clock s.matcher.lexicon q = .ok h)
    (hq₁ : compile s.matcher.clock s.matcher.lexicon q₁ = .ok f)
    (hu : h.IsUnion f g) (hdisjoint : ∀ p, p.isAnyOf = true → f.part p = [] ∨ g.part p = [])
    (hh : h.SameBeside {}) (hf : f.SameBeside {}) (hg : g.SameBeside {}) {log : List Entry} {r : Result}
    (hr : answerOf (s.search (.text q₁) records o.name (-1)) log = .ok r) (log' : List Entry) :
    ∃ r', answerOf (s.search (.text q) records o.name (-1)) log' = .ok r' ∧
      r'.items = r.items.filter fun x => s.matcher.explain g x = .ok none := by
  rw [search_eq hsize hq₁ (oneByOne_of_sameBeside hwritable hkind hf)] at hr
  rw [search_eq hsize hq (oneByOne_of_sameBeside hwritable hkind hh),
    filter_of_isUnion hwritable hkind hu hdisjoint hh hf hg]
  cases hordered : arrange (Record.createdAt s.matcher.clock) o
      (records.filter fun x => s.matcher.explain f x = .ok none) with
  | error e =>
    rw [hordered] at hr
    cases hr
  | ok ordered =>
    rw [hordered] at hr
    cases hr
    rw [arrange_filter _ hordered]
    exact ⟨_, rfl, rfl⟩

end Beside

/-- Two plain queries of which no list wants one value of each, and records that can be written: when
    the first query's search returns, a search for both of them returns what of its results matches
    the second one, in the same order, whichever query is written first. -/
theorem search_beside (clock : Clock) (lexicon : Lexicon) (workload : Workload) (hsize : 1 ≤ workload.chunkSize)
    {records : List Record} (hwritable : ∀ r ∈ records, r.IsWritable) (o : Order) {q₁ q₂ : String} (h₁ : IsPlain q₁.toList) (h₂ : IsPlain q₂.toList) :
    let s := Service.standard clock lexicon workload
    ∃ f₁ f₂, compile clock lexicon q₁ = .ok f₁ ∧ compile clock lexicon q₂ = .ok f₂ ∧
      ((∀ p, p.isAnyOf = true → f₁.part p = [] ∨ f₂.part p = []) → ∀ log r,
        answerOf (s.search (.text q₁) records o.name (-1)) log = .ok r → ∀ log', ∃ r₁₂ r₂₁,
          answerOf (s.search (.text (q₁ ++ " " ++ q₂)) records o.name (-1)) log' = .ok r₁₂ ∧
          answerOf (s.search (.text (q₂ ++ " " ++ q₁)) records o.name (-1)) log' = .ok r₂₁ ∧
          r₁₂.items = r.items.filter (fun x => s.matcher.explain f₂ x = .ok none) ∧ r₂₁.items = r₁₂.items) := by
  intro s
  have hkind : ∀ r ∈ records, ∃ kind, s.matcher.kind r = .ok kind := by
    intro r hr
    obtain ⟨kind, hkind⟩ := (hwritable r hr).exists_kind
    exact ⟨kind, mapError_eq_ok.2 hkind⟩
  obtain ⟨f₁, hf₁, hlisted₁, -⟩ := compile_of_isPlain clock lexicon h₁
  obtain ⟨f₂, hf₂, hlisted₂, -⟩ := compile_of_isPlain clock lexicon h₂
  obtain ⟨g, hg, hlisted, hunion⟩ := compile_beside clock lexicon h₁ h₂ hf₁ hf₂
  obtain ⟨g', hg', hlisted', hunion'⟩ := compile_beside clock lexicon h₂ h₁ hf₂ hf₁
  have hswap : g'.IsUnion f₁ f₂ := fun p v => (hunion' p v).trans or_comm
  refine ⟨f₁, f₂, hf₁, hf₂, fun hdisjoint log r hr log' => ?_⟩
  obtain ⟨r₁₂, h₁₂, hitems₁₂⟩ :=
    search_of_isUnion hwritable hkind hsize hg hf₁ hunion hdisjoint hlisted hlisted₁ hlisted₂ hr log'
  obtain ⟨r₂₁, h₂₁, hitems₂₁⟩ :=
    search_of_isUnion hwritable hkind hsize hg' hf₁ hswap hdisjoint hlisted' hlisted₁ hlisted₂ hr log'
  exact ⟨r₁₂, r₂₁, h₁₂, h₂₁, hitems₁₂, hitems₂₁.trans hitems₁₂.symm⟩

/-- Of two red things, the one on sale is left, in whichever order the words are typed. -/
theorem search_beside_red_sale :
    let s := Service.standard ⟨.universal 0, .utc⟩ .builtin {}
    let records : List Record :=
      [.mapping [(.text "title", .text "red shoes"), (.text "tags", .list [.text "sale"])],
       .mapping [(.text "title", .text "red hat")]]
    IsPlain "red".toList ∧ IsPlain "#sale".toList ∧ (∀ r ∈ records, r.IsWritable) ∧ ∃ r r₁₂ r₂₁,
      answerOf (s.search (.text "red") records Order.newest.name (-1)) [] = .ok r ∧
      answerOf (s.search (.text ("red" ++ " " ++ "#sale")) records Order.newest.name (-1)) [] = .ok r₁₂ ∧
      answerOf (s.search (.text ("#sale" ++ " " ++ "red")) records Order.newest.name (-1)) [] = .ok r₂₁ ∧
      r₁₂.items = r.items.filter
        (fun x => s.matcher.explain { tags := ["sale"], freeText := "" } x = .ok none) ∧
      r₂₁.items = r₁₂.items := by
  intro s records
  have h₁ : IsPlain "red".toList := ⟨by decide, by decide, by decide⟩
  have h₂ : IsPlain "#sale".toList := ⟨by decide, by decide, by decide⟩
  have hwritable : ∀ r ∈ records, r.IsWritable := by decide
  have hred : compile ⟨.universal 0, .utc⟩ .builtin "red" = .ok { terms := ["red"], freeText := "red" } := by
    decide +kernel
  have hsale : compile ⟨.universal 0, .utc⟩ .builtin "#sale" = .ok { tags := ["sale"], freeText := "" } := by
    decide +kernel
  have hok : (answerOf (s.search (.text "red") records Order.newest.name (-1)) []).isOk = true := by
    decide +kernel
  obtain ⟨f₁, f₂, hf₁, hf₂, h⟩ :=
    search_beside ⟨.universal 0, .utc⟩ .builtin {} (by decide) hwritable .newest h₁ h₂
  rw [hred] at hf₁
  rw [hsale] at hf₂
  cases hf₁
  cases hf₂
  cases hr : answerOf (s.search (.text "red") records Order.newest.name (-1)) [] with
  | error e =>
    rw [hr] at hok
    cases hok
  | ok r =>
    obtain ⟨r₁₂, r₂₁, h₁₂, h₂₁, hitems⟩ := h (fun p _ => by cases p <;> simp [Filter.part]) [] r hr []
    exact ⟨h₁, h₂, hwritable, r, r₁₂, r₂₁, rfl, h₁₂, h₂₁, hitems⟩

/-- The search for nothing returns a record whose title is too long a number to be written, and the
    search for more does not return. -/
theorem search_beside_number :
    let s := Service.standard ⟨.universal 0, .utc⟩ .builtin {}
    IsPlain "".toList ∧ IsPlain "00".toList ∧
      compile ⟨.universal 0, .utc⟩ .builtin "" = .ok {} ∧
      compile ⟨.universal 0, .utc⟩ .builtin "00" = .ok { terms := ["00"], freeText := "00" } ∧
      (answerOf (s.search (.text "") [.overlong] Order.store.name (-1)) []).isOk = true ∧
      answerOf (s.search (.text ("" ++ " " ++ "00")) [.overlong] Order.store.name (-1)) [] =
        .error (.notScanned (.noMatch (.noText .tooManyDigits))) := by
  intro s
  have hcompile : compile ⟨.universal 0, .utc⟩ .builtin ("" ++ " " ++ "00") = .ok { terms := ["00"], freeText := "00" } := by
    decide +kernel
  have hscan : scan s.workload s.matcher { terms := ["00"], freeText := "00" } [.overlong] =
      .error (.noMatch (.noText .tooManyDigits)) := by
    rw [scan_eq (by decide) rfl]
    rw [oneByOne, explain_of_not_isSearchable s.matcher _ Record.not_isSearchable_overlong]
    rfl
  refine ⟨⟨by decide, by decide, by decide⟩, ⟨by decide, by decide, by decide⟩, by decide, by decide +kernel, rfl, ?_⟩
  exact search_eq_error (by decide) hcompile hscan .store (-1) []

end SearchBox.Search

import SearchBox.Search.Arrange

/-!
  SearchBox.Proofs.Search.Arrange — putting records in order and leaving some out do not get
  in each other's way. A stable sort puts an element in front of all that may come after it
  (`mergeSort_cons_split`), so sorting commutes with filtering (`filter_mergeSort`), and so
  does every order of results (`arrange_filter`).
-/

namespace SearchBox.Search

open SearchBox.Calendar

/-! ## Stable sorting -/

section Stable

variable {α : Type} {le : α → α → Bool}

/-- Where a list goes over from a property to its opposite, it can be cut in one place only. -/
theorem cut_unique {q : α → Bool} {l₁ l₂ m₁ m₂ : List α} (h : l₁ ++ l₂ = m₁ ++ m₂) (hl₁ : ∀ b ∈ l₁, q b = true)
    (hl₂ : ∀ b ∈ l₂, q b = false) (hm₁ : ∀ b ∈ m₁, q b = true) (hm₂ : ∀ b ∈ m₂, q b = false) :
    l₁ = m₁ ∧ l₂ = m₂ := by
  have front : ∀ {a b : List α}, (∀ c ∈ a, q c = true) → (∀ c ∈ b, q c = false) → (a ++ b).filter q = a := by
    intro a b ha hb
    rw [List.filter_append, List.filter_eq_self.2 ha, List.filter_eq_nil_iff.2 fun c hc => by simp [hb c hc],
      List.append_nil]
  have hfront : l₁ = m₁ := by rw [← front hl₁ hl₂, h, front hm₁ hm₂]
  exact ⟨hfront, List.append_cancel_left (hfront ▸ h)⟩

/-- A stable sort puts an element after all that it must not come before, and before the rest. -/
theorem mergeSort_cons_split (trans : ∀ a b c, le a b → le b c → le a c) (total : ∀ a b, le a b || le b a) (a : α)
    (l : List α) :
    ∃ l₁ l₂, (a :: l).mergeSort le = l₁ ++ a :: l₂ ∧ l.mergeSort le = l₁ ++ l₂ ∧
      (∀ b ∈ l₁, le a b = false) ∧ ∀ b ∈ l₂, le a b = true := by
  obtain ⟨l₁, l₂, hcons, hl, hbefore⟩ := List.mergeSort_cons trans total a l
  refine ⟨l₁, l₂, hcons, hl, fun b hb => by simpa using hbefore b hb, fun b hb => ?_⟩
  have hsorted := List.pairwise_mergeSort trans total (a :: l)
  rw [hcons] at hsorted
  exact (List.pairwise_cons.1 (List.pairwise_append.1 hsorted).2.1).1 b hb

theorem filter_mergeSort (trans : ∀ a b c, le a b → le b c → le a c) (total : ∀ a b, le a b || le b a)
    (p : α → Bool) (l : List α) : (l.mergeSort le).filter p = (l.filter p).mergeSort le := by
  induction l with
  | nil => simp
  | cons a l ih =>
    obtain ⟨l₁, l₂, hcons, hl, hbefore, hafter⟩ := mergeSort_cons_split trans total a l
    rw [hl, List.filter_append] at ih
    rw [hcons, List.filter_append]
    by_cases ha : p a = true
    · obtain ⟨m₁, m₂, hcons', hm, hbefore', hafter'⟩ := mergeSort_cons_split trans total a (l.filter p)
      obtain ⟨hfront, hback⟩ := cut_unique (q := fun b => !le a b) (ih.trans hm)
        (fun b hb => by simp [hbefore b ((List.mem_filter.1 hb).1)])
        (fun b hb => by simp [hafter b ((List.mem_filter.1 hb).1)])
        (fun b hb => by simp [hbefore' b hb]) (fun b hb => by simp [hafter' b hb])
      rw [List.filter_cons_of_pos ha, List.filter_cons_of_pos ha, hcons', hfront, hback]
    · rw [List.filter_cons_of_neg ha, List.filter_cons_of_neg ha, ih]

end Stable

/-! ## Orders of results -/

theorem Order.allows_trans (o : Order) (a b c : Moment) (hab : o.allows a b) (hbc : o.allows b c) : o.allows a c := by
  cases o <;> simp only [allows, decide_eq_true_eq] at hab hbc ⊢ <;> omega

theorem Order.allows_total (o : Order) (a b : Moment) : o.allows a b || o.allows b a := by
  cases o <;> simp only [allows, Bool.or_eq_true, decide_eq_true_eq] <;> omega

theorem filter_mergeSort_allows {α : Type} (o : Order) (p : Moment × α → Bool) (dated : List (Moment × α)) :
    (dated.mergeSort fun a b => o.allows a.1 b.1).filter p = (dated.filter p).mergeSort fun a b => o.allows a.1 b.1 :=
  filter_mergeSort (fun a b c => o.allows_trans a.1 b.1 c.1) (fun a b => o.allows_total a.1 b.1) p dated

/-- Moments that compare still do when some of them are left out. -/
theorem areComparable_of_sublist {ms ns : List Moment} (h : ns.Sublist ms) (hms : areComparable ms = true) :
    areComparable ns = true := by
  cases ns with
  | nil => rfl
  | cons n ns =>
    cases ms with
    | nil => cases h
    | cons m ms =>
      simp only [areComparable, Bool.or_eq_true, List.all_eq_true, Bool.and_eq_true, decide_eq_true_eq] at hms ⊢
      rcases hms with hms | hms
      · exact .inl fun k hk => hms k (h.subset hk)
      · have hall : ∀ k ∈ n :: ns, k.offset = m.offset ∧ k.label = m.label := fun k hk => by
          rcases List.mem_cons.1 (h.subset hk) with rfl | hk
          · exact ⟨rfl, rfl⟩
          · exact hms k hk
        obtain ⟨⟨hoffset, hlabel⟩, hns⟩ := List.forall_mem_cons.1 hall
        exact .inr fun k hk => ⟨(hns k hk).1.trans hoffset.symm, (hns k hk).2.trans hlabel.symm⟩

theorem filterMap_filter_comm {β γ : Type} {g : β → Option γ} {p : β → Bool} {q : γ → Bool}
    (h : ∀ b c, g b = some c → q c = p b) (l : List β) : (l.filter p).filterMap g = (l.filterMap g).filter q := by
  induction l with
  | nil => rfl
  | cons b l ih =>
    cases hg : g b with
    | none => by_cases hp : p b = true <;> simp [hp, hg, ih]
    | some c => by_cases hp : p b = true <;> simp [hp, hg, ih, h b c hg]

section Arrange

variable {α : Type} {createdAt : α → Except InstantError (Option Moment)}

theorem mapM_timed_filter {records : List α} {timed : List (Option Moment × α)} (p : α → Bool)
    (h : (records.mapM fun r => do return (← createdAt r, r)) = .ok timed) :
    ((records.filter p).mapM fun r => do return (← createdAt r, r)) = .ok (timed.filter fun e => p e.2) := by
  induction records generalizing timed with
  | nil =>
    cases h
    rfl
  | cons r records ih =>
    rw [List.mapM_cons] at h
    cases hr : createdAt r with
    | error e => rw [hr] at h; cases h
    | ok t =>
      rw [hr] at h
      cases hrest : records.mapM fun r => do return (← createdAt r, r) with
      | error e => rw [hrest] at h; cases h
      | ok rest =>
        rw [hrest] at h
        cases h
        by_cases hp : p r = true
        · rw [List.filter_cons, if_pos hp, List.filter_cons, if_pos hp, List.mapM_cons, hr, ih hrest]
          rfl
        · rw [List.filter_cons, if_neg hp, List.filter_cons, if_neg hp, ih hrest]

theorem filterMap_dated_filter (p : α → Bool) (timed : List (Option Moment × α)) :
    ((timed.filter fun e => p e.2).filterMap fun e => e.1.map (·, e.2)) =
      (timed.filterMap fun e => e.1.map (·, e.2)).filter fun e => p e.2 := by
  refine filterMap_filter_comm (fun e c hc => ?_) timed
  obtain ⟨m, -, rfl⟩ := Option.map_eq_some_iff.1 hc
  rfl

theorem filterMap_undated_filter (p : α → Bool) (timed : List (Option Moment × α)) :
    ((timed.filter fun e => p e.2).filterMap fun e => if e.1.isNone then some e.2 else none) =
      (timed.filterMap fun e => if e.1.isNone then some e.2 else none).filter p := by
  refine filterMap_filter_comm (fun e c hc => ?_) timed
  split at hc
  · cases hc
    rfl
  · cases hc

theorem arrange_of_ne_store {order : Order} (ho : order ≠ .store) {records : List α}
    {timed : List (Option Moment × α)} (h : (records.mapM fun r => do return (← createdAt r, r)) = .ok timed) :
    arrange createdAt order records =
      if areComparable ((timed.filterMap fun e => e.1.map (·, e.2)).map (·.1)) then
        .ok (((timed.filterMap fun e => e.1.map (·, e.2)).mergeSort fun a b => order.allows a.1 b.1).map (·.2) ++
          timed.filterMap fun e => if e.1.isNone then some e.2 else none)
      else .error (.notComparable .offsetOutside) := by
  rw [arrange, if_neg ho, h]
  rfl

/-- Records that are left out beforehand are those left out of the records in order. -/
theorem arrange_filter {order : Order} {records ordered : List α} (p : α → Bool)
    (h : arrange createdAt order records = .ok ordered) :
    arrange createdAt order (records.filter p) = .ok (ordered.filter p) := by
  by_cases horder : order = .store
  · rw [arrange, if_pos horder] at h ⊢
    cases h
    rfl
  · cases htimed : records.mapM fun r => do return (← createdAt r, r) with
    | error e =>
      rw [arrange, if_neg horder, htimed] at h
      cases h
    | ok timed =>
      rw [arrange_of_ne_store horder htimed] at h
      rw [arrange_of_ne_store horder (mapM_timed_filter p htimed), filterMap_dated_filter,
        filterMap_undated_filter]
      split at h
      · rename_i hcomparable
        cases h
        rw [if_pos (areComparable_of_sublist (List.filter_sublist.map _) hcomparable), ← filter_mergeSort_allows,
          List.filter_append, List.filter_map]
        rfl
      · cases h

end Arrange

end SearchBox.Search

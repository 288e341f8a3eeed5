import SearchBox.Proofs.Search.Created

/-!
  SearchBox.Proofs.Search.Ordered — records by time, and the first of them. Either order by time
  is one stable sort by the instants of creation, with no instant after all others
  (`arrange_eq_mergeSort`). So it is monotone, keeps ties as they were and does not mind records
  that are left out: the newest first are not the oldest first read backwards. A limit changes a
  search by what it cuts off its results (`search_cut`), and nothing is cut off without one
  (`length_of_search`). `arranged_by_time` has all of it.
-/

namespace SearchBox

open SearchBox.Calendar

/-- The instant at which a record was created, if it has a time. -/
def Record.instant? (clock : Clock) (r : Record) : Option Int :=
  (r.createdAt clock).toOption.join.map (·.instant)

theorem Record.instant?_of_createdAt {clock : Clock} {r : Record} {t : Option Moment} (h : r.createdAt clock = .ok t) :
    r.instant? clock = t.map (·.instant) := by
  rw [instant?, h]
  rfl

end SearchBox

namespace SearchBox.Search

open SearchBox.Calendar SearchBox.Log

/-! ## Stable sorting -/

section Stable

variable {α : Type} {le : α → α → Bool} {l : List α}

/-- Elements that may all come before each other stay where they are. -/
theorem mergeSort_of_ties (h : ∀ a ∈ l, ∀ b ∈ l, le a b = true) : l.mergeSort le = l :=
  List.mergeSort_of_pairwise (List.pairwise_of_forall_mem_list h)

/-- A list in which all with a property come first is those with it and then the others. -/
theorem filter_append_filter_not {q : α → Bool} (h : l.Pairwise fun a b => q b = true → q a = true) :
    (l.filter q) ++ (l.filter fun a => !q a) = l := by
  induction l with
  | nil => rfl
  | cons a l ih =>
    obtain ⟨ha, hl⟩ := List.pairwise_cons.1 h
    by_cases hq : q a = true
    · simp [hq, ih hl]
    · have hnone : ∀ b ∈ l, q b = false := fun b hb => by
        rw [Bool.eq_false_iff]
        exact fun hb' => hq (ha b hb hb')
      have hfront : l.filter q = [] := List.filter_eq_nil_iff.2 fun b hb => by simp [hnone b hb]
      have hback : l.filter (fun a => !q a) = l := List.filter_eq_self.2 fun b hb => by simp [hnone b hb]
      simp [hq, hfront, hback]

end Stable

/-! ## Orders by time -/

/-- Whether an instant may come before another one, where none comes after all others. -/
def Order.allowsInstants (o : Order) : Option Int → Option Int → Bool
  | some a, some b =>
    match o with
    | newest => b ≤ a
    | _ => a ≤ b
  | none, some _ => false
  | _, none => true

theorem Order.allowsInstants_trans (o : Order) (a b c : Option Int) (hab : o.allowsInstants a b = true)
    (hbc : o.allowsInstants b c = true) : o.allowsInstants a c = true := by
  cases a <;> cases b <;> cases c <;> cases o <;> simp only [allowsInstants, decide_eq_true_eq] at * <;>
    first | omega | contradiction

theorem Order.allowsInstants_total (o : Order) (a b : Option Int) :
    (o.allowsInstants a b || o.allowsInstants b a) = true := by
  cases a <;> cases b <;> cases o <;> simp only [allowsInstants, Bool.or_eq_true, decide_eq_true_eq] <;>
    first | omega | simp

theorem Order.allowsInstants_self (o : Order) (a : Option Int) : o.allowsInstants a a = true := by
  simpa using o.allowsInstants_total a a

theorem Order.isSome_of_allowsInstants {o : Order} {a b : Option Int} (h : o.allowsInstants a b = true)
    (hb : b.isSome = true) : a.isSome = true := by
  cases b with
  | none => cases hb
  | some b =>
    cases a with
    | none => cases h
    | some a => rfl

theorem Order.allowsInstants_some (o : Order) (m n : Moment) :
    o.allowsInstants (some m.instant) (some n.instant) = o.allows m n := by
  cases o <;> rfl

/-- Records with their times are the records, each with the time that is found for it. -/
theorem timed_eq {α : Type} {createdAt : α → Except InstantError (Option Moment)} {records : List α}
    {timed : List (Option Moment × α)} (h : (records.mapM fun r => do return (← createdAt r, r)) = .ok timed) :
    timed.map (·.2) = records ∧ ∀ e ∈ timed, createdAt e.2 = .ok e.1 := by
  induction records generalizing timed with
  | nil =>
    cases h
    exact ⟨rfl, nofun⟩
  | cons r records ih =>
    rw [List.mapM_cons] at h
    obtain ⟨e, he, h⟩ := bind_eq_ok.1 h
    obtain ⟨t, ht, he⟩ := bind_eq_ok.1 he
    obtain ⟨rest, hrest, h⟩ := bind_eq_ok.1 h
    cases he
    cases h
    obtain ⟨hmap, htimes⟩ := ih hrest
    exact ⟨congrArg (r :: ·) hmap, List.forall_mem_cons.2 ⟨ht, htimes⟩⟩

section ByTime

variable {clock : Clock} {o : Order} {records ordered : List Record} {timed : List (Option Moment × Record)}

def Order.allowsRecords (o : Order) (clock : Clock) (a b : Record) : Bool :=
  o.allowsInstants (a.instant? clock) (b.instant? clock)

theorem Order.allowsRecords_trans (o : Order) (a b c : Record) (hab : o.allowsRecords clock a b)
    (hbc : o.allowsRecords clock b c) : o.allowsRecords clock a c :=
  o.allowsInstants_trans _ _ _ hab hbc

theorem Order.allowsRecords_total (o : Order) (a b : Record) : o.allowsRecords clock a b || o.allowsRecords clock b a :=
  o.allowsInstants_total _ _

theorem dated_and_undated_eq (h : ∀ e ∈ timed, e.2.instant? clock = e.1.map (·.instant)) :
    (timed.filterMap fun e => e.1.map (·, e.2)).map (·.2) =
        (timed.map (·.2)).filter (fun r => (r.instant? clock).isSome) ∧
      (timed.filterMap fun e => if e.1.isNone then some e.2 else none) =
        (timed.map (·.2)).filter fun r => !(r.instant? clock).isSome := by
  induction timed with
  | nil => exact ⟨rfl, rfl⟩
  | cons e timed ih =>
    obtain ⟨he, htimed⟩ := List.forall_mem_cons.1 h
    obtain ⟨hdated, hundated⟩ := ih htimed
    obtain ⟨t, r⟩ := e
    cases t with
    | none =>
      have hr : r.instant? clock = none := he
      exact ⟨by simpa [hr] using hdated, by simpa [hr] using hundated⟩
    | some m =>
      have hr : r.instant? clock = some m.instant := he
      exact ⟨by simpa [hr] using hdated, by simpa [hr] using hundated⟩

/-- Moments are compared as the instants of their records are. -/
theorem map_mergeSort_dated (o : Order) (h : ∀ e ∈ timed, e.2.instant? clock = e.1.map (·.instant)) :
    ((timed.filterMap fun e => e.1.map (·, e.2)).mergeSort fun a b => o.allows a.1 b.1).map (·.2) =
      ((timed.filterMap fun e => e.1.map (·, e.2)).map (·.2)).mergeSort (o.allowsRecords clock) := by
  have hinstant : ∀ d ∈ timed.filterMap (fun e => e.1.map (·, e.2)), d.2.instant? clock = some d.1.instant := by
    intro d hd
    obtain ⟨e, he, hmap⟩ := List.mem_filterMap.1 hd
    obtain ⟨m, hm, rfl⟩ := Option.map_eq_some_iff.1 hmap
    rw [h e he, hm]
    rfl
  refine List.map_mergeSort fun a ha b hb => ?_
  rw [Order.allowsRecords, hinstant a ha, hinstant b hb, Order.allowsInstants_some]

/-- Records of one instant, or of none, stay as they were. -/
theorem mergeSort_of_same_instant {t : Option Int} (h : ∀ r ∈ records, r.instant? clock = t) :
    records.mergeSort (o.allowsRecords clock) = records := by
  apply mergeSort_of_ties
  intro a ha b hb
  rw [Order.allowsRecords, h a ha, h b hb]
  exact o.allowsInstants_self t

/-- Both orders by time sort records by their instants. -/
theorem arrange_eq_mergeSort (ho : o ≠ .store) (h : arrange (Record.createdAt clock) o records = .ok ordered) :
    ordered = records.mergeSort (o.allowsRecords clock) := by
  cases htimed : records.mapM fun r => do return (← Record.createdAt clock r, r) with
  | error e =>
    rw [arrange, if_neg ho, htimed] at h
    cases h
  | ok timed =>
    rw [arrange_of_ne_store ho htimed] at h
    split at h
    · cases h
      obtain ⟨hrecords, htimes⟩ := timed_eq htimed
      have hinstants : ∀ e ∈ timed, e.2.instant? clock = e.1.map (·.instant) :=
        fun e he => Record.instant?_of_createdAt (htimes e he)
      obtain ⟨hdated, hundated⟩ := dated_and_undated_eq hinstants
      have hnone : ∀ r ∈ records.filter (fun r => !(r.instant? clock).isSome), r.instant? clock = none :=
        fun r hr => by simpa using (List.mem_filter.1 hr).2
      -- The sorted list falls into its dated and its undated records, and each part is sorted for itself.
      rw [map_mergeSort_dated o hinstants, hdated, hundated, hrecords, ← mergeSort_of_same_instant (o := o) hnone,
        ← filter_mergeSort o.allowsRecords_trans o.allowsRecords_total,
        ← filter_mergeSort o.allowsRecords_trans o.allowsRecords_total]
      refine filter_append_filter_not ((List.pairwise_mergeSort o.allowsRecords_trans o.allowsRecords_total _).imp ?_)
      exact fun hab hb => Order.isSome_of_allowsInstants hab hb
    · cases h

theorem arrange_perm (h : arrange (Record.createdAt clock) o records = .ok ordered) : ordered.Perm records := by
  by_cases ho : o = .store
  · rw [arrange, if_pos ho] at h
    cases h
    exact .refl records
  · rw [arrange_eq_mergeSort ho h]
    exact List.mergeSort_perm _ _

/-- Records of one instant, and those of none, are found in the order they had. -/
theorem filter_arrange (ho : o ≠ .store) (h : arrange (Record.createdAt clock) o records = .ok ordered) (t : Option Int) :
    ordered.filter (fun r => r.instant? clock = t) = records.filter fun r => r.instant? clock = t := by
  rw [arrange_eq_mergeSort ho h, filter_mergeSort o.allowsRecords_trans o.allowsRecords_total]
  exact mergeSort_of_same_instant fun r hr => by simpa using (List.mem_filter.1 hr).2

end ByTime

/-! ## Limits -/

/-- A limit cuts the results of a search and changes nothing else. -/
theorem search_cut (s : Service) (query : Value) (records : List Record) (order : String) (limit : Int) :
    s.search query records order limit =
      (fun r => { r with items := cutTo limit r.items }) <$> s.search query records order (-1) := by
  simp only [Service.search, map_bind, map_pure]
  rfl

theorem length_of_arrangeNamed {clock : Clock} {order : String} {records ordered : List Record}
    (h : arrangeNamed clock order records = .ok ordered) : ordered.length = records.length := by
  unfold arrangeNamed at h
  split at h
  · cases h
  · exact (arrange_perm (mapError_eq_ok.1 h)).length_eq

theorem length_of_search {s : Service} {query : Value} {records : List Record} {order : String} {log : List Entry}
    {r : Result} (h : answerOf (s.search query records order (-1)) log = .ok r) : r.items.length = r.matched := by
  unfold Service.search at h
  obtain ⟨f, log₁, -, h⟩ := answerOf_bind_eq_ok h
  obtain ⟨found, log₂, -, h⟩ := answerOf_bind_eq_ok h
  obtain ⟨u, log₃, -, h⟩ := answerOf_bind_eq_ok h
  obtain ⟨ordered, log₄, hordered, h⟩ := answerOf_bind_eq_ok h
  cases h
  exact length_of_arrangeNamed hordered

/-- The results up to a limit are the first of all results. -/
theorem answerOf_search_limit (s : Service) (query : Value) (records : List Record) (order : String) (k : Nat)
    (log : List Entry) :
    answerOf (s.search query records order k) log =
      (answerOf (s.search query records order (-1)) log).map
        fun r => { r with items := r.items.take (min k r.matched) } := by
  rw [search_cut, answerOf_map]
  cases h : answerOf (s.search query records order (-1)) log with
  | error e => rfl
  | ok r =>
    have hcut : cutTo k r.items = r.items.take k := by
      rw [cutTo, if_neg (by omega), if_pos (by omega), Int.toNat_natCast]
    rw [Except.map, Except.map, hcut, List.take_eq_take_min, length_of_search h]

/-! ## By time -/

/-- Records with sound times are put in either order of time, and whenever records are: none is
    lost or added, each may come before all that stand after it, those of one instant and those
    of none are as they were, and any of the records could have been left out before as well as
    after. With a limit a search has the first of the results that it has without one. -/
theorem arranged_by_time (clock : Clock) (o : Order) (ho : o ≠ .store) :
    (∀ records : List Record, (∀ r ∈ records, r.HasSoundTime clock) →
      ∃ ordered, arrange (Record.createdAt clock) o records = .ok ordered) ∧
    (∀ records ordered : List Record, arrange (Record.createdAt clock) o records = .ok ordered →
      ordered.Perm records ∧
      ordered.Pairwise (fun a b => o.allowsInstants (a.instant? clock) (b.instant? clock) = true) ∧
      (∀ t : Option Int,
        ordered.filter (fun r => r.instant? clock = t) = records.filter fun r => r.instant? clock = t) ∧
      ∀ p : Record → Bool, arrange (Record.createdAt clock) o (records.filter p) = .ok (ordered.filter p)) ∧
    ∀ (s : Service) (query : Value) (records : List Record) (order : String) (k : Nat) (log : List Entry),
      answerOf (s.search query records order k) log =
        (answerOf (s.search query records order (-1)) log).map
          (fun r => { r with items := r.items.take (min k r.matched) }) ∧
      ∀ r, answerOf (s.search query records order (-1)) log = .ok r → r.items.length = r.matched := by
  refine ⟨fun records hsound => exists_arrange o hsound, ?_, ?_⟩
  · intro records ordered h
    refine ⟨arrange_perm h, ?_, filter_arrange ho h, fun p => arrange_filter p h⟩
    rw [arrange_eq_mergeSort ho h]
    exact List.pairwise_mergeSort o.allowsRecords_trans o.allowsRecords_total records
  · intro s query records order k log
    exact ⟨answerOf_search_limit s query records order k log, fun r => length_of_search⟩

/-- Two records of one instant with different offsets, and two without a time, keep their order
    with the newest first, and a search for the newest two has the first two of all. -/
theorem arranged_by_time_newest :
    let clock : Clock := ⟨.universal (738000 * microsPerDay), .utc⟩
    let record (id : String) (created : Value) : Record :=
      .mapping [(.text "id", .text id), (.text "createdAt", created)]
    let midnight := record "c" (.text "2024-05-01T00:00:00Z")
    let records : List Record := [record "a" .null, record "b" (.text "2024-05-01T02:00:00+02:00"), midnight,
      record "d" (.text "no date"), record "e" (.text "2024-05-02T00:00:00Z")]
    let s := Service.standard clock .builtin {}
    (∀ r ∈ records, r.HasSoundTime clock) ∧
      (∃ ordered, arrange (Record.createdAt clock) .newest records = .ok ordered ∧ ordered.Perm records ∧
        (ordered.filter fun r => r.instant? clock = midnight.instant? clock).map (·.textOf .id) = ["b", "c"] ∧
        (ordered.filter fun r => r.instant? clock = none).map (·.textOf .id) = ["a", "d"]) ∧
      ∃ r, answerOf (s.search (.text "") records "newest" (-1)) [] = .ok r ∧ r.items.length = r.matched ∧
        answerOf (s.search (.text "") records "newest" (2 : Nat)) [] =
          .ok { r with items := r.items.take (min 2 r.matched) } := by
  intro clock record midnight records s
  have hsound : ∀ r ∈ records, r.HasSoundTime clock := by decide +kernel
  have hsame : (records.filter fun r => r.instant? clock = midnight.instant? clock).map (·.textOf .id) = ["b", "c"] := by
    decide +kernel
  have hnone : (records.filter fun r => r.instant? clock = none).map (·.textOf .id) = ["a", "d"] := by
    decide +kernel
  have hok : (answerOf (s.search (.text "") records "newest" (-1)) []).isOk = true := by decide +kernel
  obtain ⟨hexists, harranged, hlimit⟩ := arranged_by_time clock .newest (by decide)
  obtain ⟨ordered, hordered⟩ := hexists records hsound
  obtain ⟨hperm, -, hties, -⟩ := harranged records ordered hordered
  rw [← hties] at hsame hnone
  obtain ⟨r, hr⟩ := exists_of_isOk hok
  obtain ⟨htwo, hlength⟩ := hlimit s (.text "") records "newest" 2 []
  rw [hr] at htwo
  exact ⟨hsound, ⟨ordered, hordered, hperm, hsame, hnone⟩, r, hr, hlength r hr, htwo⟩

end SearchBox.Search

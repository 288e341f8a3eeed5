import SearchBox.Proofs.Query.Rules

/-!
  SearchBox.Proofs.Query.Spans — where tokens stand. A sweep takes tokens from left to right,
  each off the front of what is left of the text, and blanks exactly their spans
  (`sweepAll_blanks`): what later rules see is the text itself wherever no token has been.
-/

namespace SearchBox.Query

open SearchBox.Text

/-! ## Places -/

def isCovered (ts : List Token) (i : Nat) : Bool :=
  ts.any fun t => t.start ≤ i && i < t.stop

theorem isCovered_iff {ts : List Token} {i : Nat} : isCovered ts i = true ↔ ∃ t ∈ ts, t.start ≤ i ∧ i < t.stop := by
  simp [isCovered]

@[simp] theorem isCovered_nil (i : Nat) : isCovered [] i = false := rfl

@[simp] theorem isCovered_cons (t : Token) (ts : List Token) (i : Nat) :
    isCovered (t :: ts) i = (t.start ≤ i && i < t.stop || isCovered ts i) := rfl

@[simp] theorem isCovered_append (ts us : List Token) (i : Nat) :
    isCovered (ts ++ us) i = (isCovered ts i || isCovered us i) := by
  simp [isCovered]

def blanked (ts : List Token) (s : List Char) : List Char :=
  s.mapIdx fun i c => if isCovered ts i then ' ' else c

@[simp] theorem blanked_nil (s : List Char) : blanked [] s = s :=
  List.ext_getElem? fun i => by simp [blanked]

@[simp] theorem length_blanked (ts : List Token) (s : List Char) : (blanked ts s).length = s.length := by
  simp [blanked]

theorem blanked_append (ts us : List Token) (s : List Char) : blanked (ts ++ us) s = blanked us (blanked ts s) := by
  unfold blanked
  rw [List.mapIdx_mapIdx]
  congr 1
  funext i c
  by_cases h : isCovered ts i = true <;> simp [h]

theorem getElem?_blanked (ts : List Token) (s : List Char) (i : Nat) :
    (blanked ts s)[i]? = s[i]?.map fun c => if isCovered ts i then ' ' else c := by
  simp [blanked]

/-- What is visible after blanking lies in no token and was visible before. -/
theorem isVisibleAt_blanked_iff {ts : List Token} {s : List Char} {i : Nat} :
    IsVisibleAt (blanked ts s) i ↔ isCovered ts i = false ∧ IsVisibleAt s i := by
  simp only [IsVisibleAt, getElem?_blanked, Option.mem_def, Option.map_eq_some_iff]
  constructor
  · rintro ⟨c, ⟨d, hd, rfl⟩, hc⟩
    cases hcov : isCovered ts i
    · rw [hcov] at hc
      exact ⟨rfl, d, hd, by simpa using hc⟩
    · rw [hcov, if_pos rfl] at hc
      cases hc
  · rintro ⟨hcov, c, hc, hv⟩
    exact ⟨c, ⟨c, hc, by simp [hcov]⟩, hv⟩

/-! ## One sweep -/

section Sweep

variable {kind : TokenKind} {rule : Rule}

/-- What the rule finds at the front of the rest of a text, told that a word can start there if
    white space stands before it. -/
def IsFoundIn (kind : TokenKind) (rule : Rule) (place taken : Nat) (ws : Bool) (s : List Char) (t : Token) : Prop :=
  ∃ pre rest f, s = pre ++ rest ∧ taken ≤ pre.length ∧ rule ((pre.getLast?.map isBlank).getD ws) rest = some f ∧
    t = ⟨kind, f.values.map fun v => String.ofList (lower v), place + pre.length, place + pre.length + f.length⟩

theorem IsFoundIn.cons {place taken : Nat} {c : Char} {s : List Char} {t : Token}
    (h : IsFoundIn kind rule (place + 1) taken (isBlank c) s t) (ws : Bool) :
    IsFoundIn kind rule place (taken + 1) ws (c :: s) t := by
  obtain ⟨pre, rest, f, rfl, hlen, hf, rfl⟩ := h
  have hadd : place + 1 + pre.length = place + (c :: pre).length := by
    simp only [List.length_cons]
    omega
  refine ⟨c :: pre, rest, f, rfl, by simpa using hlen, ?_, by rw [hadd]⟩
  cases pre with
  | nil => simpa using hf
  | cons d pre =>
    rw [List.getLast?_eq_some_getLast (List.cons_ne_nil d pre)] at hf
    rw [List.getLast?_cons_cons, List.getLast?_eq_some_getLast (List.cons_ne_nil d pre)]
    exact hf

theorem IsFoundIn.mono {place taken taken' : Nat} {ws : Bool} {s : List Char} {t : Token}
    (h : IsFoundIn kind rule place taken ws s t) (hle : taken' ≤ taken) : IsFoundIn kind rule place taken' ws s t := by
  obtain ⟨pre, rest, f, hs, hlen, hf⟩ := h
  exact ⟨pre, rest, f, hs, Nat.le_trans hle hlen, hf⟩

theorem isFoundIn_of_mem_sweep {place taken : Nat} {ws : Bool} {s : List Char} {t : Token}
    (h : t ∈ (sweep kind rule place taken ws s).1) : IsFoundIn kind rule place taken ws s t := by
  fun_induction sweep kind rule place taken ws s with
  | case1 => cases h
  | case2 place taken ws c rest ts b hsweep ih =>
    rw [hsweep] at ih
    exact (ih h).cons ws
  | case3 place ws c rest f hf ts b hsweep ih =>
    rw [hsweep] at ih
    rcases List.mem_cons.1 h with rfl | h
    · exact ⟨[], c :: rest, f, rfl, Nat.le_refl _, by simpa using hf, rfl⟩
    · exact ((ih h).cons ws).mono (Nat.zero_le _)
  | case4 place ws c rest hf ts b hsweep ih =>
    rw [hsweep] at ih
    exact ((ih h).cons ws).mono (Nat.zero_le _)

theorem le_start_of_mem_sweep {place taken : Nat} {ws : Bool} {s : List Char} {t : Token}
    (h : t ∈ (sweep kind rule place taken ws s).1) : place + taken ≤ t.start := by
  obtain ⟨pre, rest, f, -, hlen, -, rfl⟩ := isFoundIn_of_mem_sweep h
  show place + taken ≤ place + pre.length
  omega

theorem kind_of_mem_sweep {place taken : Nat} {ws : Bool} {s : List Char} {t : Token}
    (h : t ∈ (sweep kind rule place taken ws s).1) : t.kind = kind := by
  obtain ⟨pre, rest, f, -, -, -, rfl⟩ := isFoundIn_of_mem_sweep h
  rfl

theorem Rule.Takes.length_pos (h : rule.Takes IsEdged) {ws : Bool} {s : List Char} {f : Found}
    (hf : rule ws s = some f) : 0 < f.length := by
  obtain ⟨m, rest, -, hm, hedged⟩ := h ws s f hf
  exact hm ▸ hedged.isVisibleAt.1

theorem Rule.Takes.eq_none (h : rule.Takes IsEdged) (ws : Bool) {s : List Char} (hs : StartsBlank s) :
    rule ws s = none := by
  rw [Option.eq_none_iff_forall_not_mem]
  intro f hf
  obtain ⟨m, rest, rfl, -, ⟨c, hc, hv⟩, -⟩ := h ws s f hf
  rw [hs c (by simp [Option.mem_def.1 hc])] at hv
  cases hv

theorem sweep_of_isBlankText (hrule : rule.Takes IsEdged) (place : Nat) (ws : Bool) {gap : List Char}
    (hgap : isBlankText gap = true) : sweep kind rule place 0 ws gap = ([], gap) := by
  induction gap generalizing place ws with
  | nil => rfl
  | cons c gap ih =>
    obtain ⟨hc, hgap⟩ := List.forall_mem_cons.1 (isBlankText_iff.1 hgap)
    have hnone := hrule.eq_none ws (s := c :: gap) fun d hd => by cases hd; exact hc
    rw [sweep, hnone, ih (place + 1) (isBlank c) (isBlankText_iff.2 hgap)]

theorem pairwise_sweep (hrule : rule.Takes IsEdged) (place taken : Nat) (ws : Bool) (s : List Char) :
    (sweep kind rule place taken ws s).1.Pairwise fun a b => a.stop ≤ b.start := by
  fun_induction sweep kind rule place taken ws s with
  | case1 => exact .nil
  | case2 place taken ws c rest ts b hsweep ih => rwa [hsweep] at ih
  | case3 place ws c rest f hf ts b hsweep ih =>
    rw [hsweep] at ih
    refine List.pairwise_cons.2 ⟨fun t ht => ?_, ih⟩
    have := le_start_of_mem_sweep (show t ∈ (sweep kind rule (place + 1) (f.length - 1) (isBlank c) rest).1 by
      rwa [hsweep])
    have := hrule.length_pos hf
    show place + f.length ≤ t.start
    omega
  | case4 place ws c rest hf ts b hsweep ih => rwa [hsweep] at ih

theorem sweep_blanks (hrule : rule.Takes IsEdged) (place taken : Nat) (ws : Bool) (s : List Char) :
    (sweep kind rule place taken ws s).2 = s.mapIdx fun i c =>
      if i < taken || isCovered (sweep kind rule place taken ws s).1 (place + i) then ' ' else c := by
  fun_induction sweep kind rule place taken ws s with
  | case1 => rfl
  | case2 place taken ws c rest ts b hsweep ih =>
    rw [hsweep] at ih
    simp only at ih
    rw [ih, List.mapIdx_cons]
    simp [Nat.add_assoc, Nat.add_comm 1]
  | case3 place ws c rest f hf ts b hsweep ih =>
    rw [hsweep] at ih
    simp only at ih
    have hpos := hrule.length_pos hf
    rw [ih, List.mapIdx_cons]
    have hshift : ∀ i, (i < f.length - 1) = (place + (i + 1) < place + f.length) := fun i => by
      simp only [eq_iff_iff]
      omega
    simp [hpos, hshift, Nat.add_assoc, Nat.add_comm 1]
  | case4 place ws c rest hf ts b hsweep ih =>
    have hnot : isCovered ts place = false := by
      rw [Bool.eq_false_iff, Ne, isCovered_iff]
      rintro ⟨t, ht, hle, -⟩
      have := le_start_of_mem_sweep (show t ∈ (sweep kind rule (place + 1) 0 (isBlank c) rest).1 by rwa [hsweep])
      omega
    rw [hsweep] at ih
    simp only at ih
    rw [ih, List.mapIdx_cons]
    simp [hnot, Nat.add_assoc, Nat.add_comm 1]

/-- What still belongs to the last token is blanked, and the sweep goes on after it. -/
theorem sweep_taken (place : Nat) (ws : Bool) (m rest : List Char) :
    sweep kind rule place m.length ws (m ++ rest) =
      ((sweep kind rule (place + m.length) 0 ((m.getLast?.map isBlank).getD ws) rest).1,
        List.replicate m.length ' ' ++ (sweep kind rule (place + m.length) 0 ((m.getLast?.map isBlank).getD ws) rest).2) := by
  induction m generalizing place ws with
  | nil => rfl
  | cons c m ih =>
    have hlast : (m.getLast?.map isBlank).getD (isBlank c) = ((c :: m).getLast?.map isBlank).getD ws := by
      rw [List.getLast?_cons]
      cases m.getLast? <;> rfl
    rw [List.length_cons, List.cons_append, sweep, ih, hlast, Nat.add_assoc, Nat.add_comm 1, List.replicate_succ,
      List.cons_append]

/-- What a rule finds at the front is one token, and the sweep goes on after it. -/
theorem sweep_found {place : Nat} {ws : Bool} {m rest : List Char} {f : Found} (hne : m ≠ [])
    (hf : rule ws (m ++ rest) = some f) (hlen : f.length = m.length) :
    sweep kind rule place 0 ws (m ++ rest) =
      (⟨kind, f.values.map fun v => String.ofList (lower v), place, place + m.length⟩ ::
          (sweep kind rule (place + m.length) 0 (isBlank (m.getLast hne)) rest).1,
        List.replicate m.length ' ' ++ (sweep kind rule (place + m.length) 0 (isBlank (m.getLast hne)) rest).2) := by
  cases m with
  | nil => exact absurd rfl hne
  | cons c m =>
    have hlast : (m.getLast?.map isBlank).getD (isBlank c) = isBlank ((c :: m).getLast hne) := by
      cases m with
      | nil => rfl
      | cons d m => rw [List.getLast_cons_cons, List.getLast?_eq_some_getLast (List.cons_ne_nil d m)]; rfl
    have hlen' : f.length - 1 = m.length := by
      rw [hlen, List.length_cons]
      omega
    rw [List.cons_append] at hf ⊢
    rw [sweep, hf]
    simp only
    rw [hlen', sweep_taken, hlast, hlen, List.length_cons, Nat.add_assoc, Nat.add_comm 1, List.replicate_succ,
      List.cons_append]

end Sweep

/-! ## Tokens in a text -/

/-- A span that is not empty, lies in the text and is visible at both ends. -/
structure Token.IsWithin (t : Token) (s : List Char) : Prop where
  lt : t.start < t.stop
  le : t.stop ≤ s.length
  first : IsVisibleAt s t.start
  last : IsVisibleAt s (t.stop - 1)

def Token.IsSolidIn (t : Token) (s : List Char) : Prop :=
  ∀ i, t.start ≤ i → i < t.stop → IsVisibleAt s i

def Token.IsApart (a b : Token) : Prop :=
  a.stop ≤ b.start ∨ b.stop ≤ a.start

def Token.IsInside (a b : Token) : Prop :=
  b.start < a.start ∧ a.stop < b.stop

theorem Token.IsWithin.of_blanked {t : Token} {ts : List Token} {s : List Char} (h : t.IsWithin (blanked ts s)) :
    t.IsWithin s :=
  ⟨h.lt, length_blanked ts s ▸ h.le, (isVisibleAt_blanked_iff.1 h.first).2, (isVisibleAt_blanked_iff.1 h.last).2⟩

theorem Token.IsSolidIn.of_blanked {t : Token} {ts : List Token} {s : List Char}
    (h : t.IsSolidIn (blanked ts s)) : t.IsSolidIn s :=
  fun i hi hlt => (isVisibleAt_blanked_iff.1 (h i hi hlt)).2

/-- A token read after others are blanked starts and ends outside each of them, so that it lies
    apart from it or around it; around it only if it holds white space. -/
theorem Token.isApart_or_isInside {a t : Token} {ts : List Token} {s : List Char} (ha : a ∈ ts)
    (hlt : a.start < a.stop) (ht : t.IsWithin (blanked ts s)) :
    a.IsApart t ∨ a.IsInside t ∧ ¬ t.IsSolidIn (blanked ts s) := by
  have outside : ∀ i, IsVisibleAt (blanked ts s) i → ¬ (a.start ≤ i ∧ i < a.stop) := fun i hi hin => by
    have := (isVisibleAt_blanked_iff.1 hi).1
    rw [isCovered_iff.2 ⟨a, ha, hin⟩] at this
    cases this
  have hfirst := outside _ ht.first
  have hlast := outside _ ht.last
  have hpos := ht.lt
  by_cases hin : t.start < a.start ∧ a.stop < t.stop
  · refine .inr ⟨hin, fun hsolid => ?_⟩
    exact outside a.start (hsolid _ (by omega) (by omega)) ⟨Nat.le_refl _, hlt⟩
  · refine .inl ?_
    unfold Token.IsApart
    omega

theorem isWithin_of_mem_sweep {kind : TokenKind} {rule : Rule} {ws : Bool} {s : List Char} {t : Token}
    (hrule : rule.Takes IsEdged) (h : t ∈ (sweep kind rule 0 0 ws s).1) : t.IsWithin s := by
  obtain ⟨pre, rest, f, rfl, -, hf, rfl⟩ := isFoundIn_of_mem_sweep h
  obtain ⟨m, later, rfl, hm, hedged⟩ := hrule _ _ _ hf
  obtain ⟨hpos, hfirst, hlast⟩ := hedged.isVisibleAt
  refine ⟨?_, ?_, ?_, ?_⟩
  · show 0 + pre.length < 0 + pre.length + f.length
    omega
  · show 0 + pre.length + f.length ≤ _
    simp only [List.length_append]
    omega
  · show IsVisibleAt _ (0 + pre.length)
    simpa using hfirst.append pre later
  · show IsVisibleAt _ (0 + pre.length + f.length - 1)
    rw [show 0 + pre.length + f.length - 1 = pre.length + (m.length - 1) by omega]
    exact hlast.append pre later

theorem isSolidIn_of_mem_sweep {kind : TokenKind} {rule : Rule} {ws : Bool} {s : List Char} {t : Token}
    (hrule : rule.Takes IsSolid) (h : t ∈ (sweep kind rule 0 0 ws s).1) : t.IsSolidIn s := by
  obtain ⟨pre, rest, f, rfl, -, hf, rfl⟩ := isFoundIn_of_mem_sweep h
  obtain ⟨m, later, rfl, hm, hsolid⟩ := hrule _ _ _ hf
  intro i (hi : 0 + pre.length ≤ i) (hlt : i < 0 + pre.length + f.length)
  rw [show i = pre.length + (i - pre.length) by omega]
  exact (hsolid.isVisibleAt (by omega)).append pre later

/-! ## All sweeps -/

section SweepAll

variable {rs : List (TokenKind × Rule)}

@[simp] theorem sweepAll_nil (s : List Char) : sweepAll [] s = ([], s) := rfl

@[simp] theorem sweepAll_cons (kind : TokenKind) (rule : Rule) (rs : List (TokenKind × Rule)) (s : List Char) :
    sweepAll ((kind, rule) :: rs) s =
      ((sweep kind rule 0 0 true s).1 ++ (sweepAll rs (sweep kind rule 0 0 true s).2).1,
        (sweepAll rs (sweep kind rule 0 0 true s).2).2) := rfl

theorem sweep_eq_blanked {kind : TokenKind} {rule : Rule} (hrule : rule.Takes IsEdged) (ws : Bool) (s : List Char) :
    (sweep kind rule 0 0 ws s).2 = blanked (sweep kind rule 0 0 ws s).1 s := by
  rw [sweep_blanks hrule, blanked]
  simp

theorem sweepAll_of_isBlankText (hrs : ∀ r ∈ rs, r.2.Takes IsEdged) {gap : List Char} (hgap : isBlankText gap = true) :
    sweepAll rs gap = ([], gap) := by
  induction rs with
  | nil => rfl
  | cons r rs ih =>
    obtain ⟨kind, rule⟩ := r
    obtain ⟨hrule, hrs⟩ := List.forall_mem_cons.1 hrs
    rw [sweepAll_cons, sweep_of_isBlankText hrule 0 true hgap, ih hrs]
    rfl

/-- What is left of a text is the text with the spans of all tokens blanked. -/
theorem sweepAll_blanks (hrs : ∀ r ∈ rs, r.2.Takes IsEdged) (s : List Char) :
    (sweepAll rs s).2 = blanked (sweepAll rs s).1 s := by
  induction rs generalizing s with
  | nil => simp
  | cons r rs ih =>
    obtain ⟨kind, rule⟩ := r
    obtain ⟨hrule, hrs⟩ := List.forall_mem_cons.1 hrs
    rw [sweepAll_cons, ih hrs, sweep_eq_blanked hrule, ← blanked_append]

theorem kind_of_mem_sweepAll {s : List Char} {t : Token} (h : t ∈ (sweepAll rs s).1) : ∃ r ∈ rs, t.kind = r.1 := by
  induction rs generalizing s with
  | nil => cases h
  | cons r rs ih =>
    obtain ⟨kind, rule⟩ := r
    rw [sweepAll_cons] at h
    rcases List.mem_append.1 h with h | h
    · exact ⟨_, List.mem_cons_self, kind_of_mem_sweep h⟩
    · obtain ⟨r, hr, hk⟩ := ih h
      exact ⟨r, List.mem_cons_of_mem _ hr, hk⟩

/-- A token lies in the text, and is visible throughout unless its kind may hold white space. -/
theorem isWithin_of_mem_sweepAll
    (hrs : ∀ r ∈ rs, r.2.Takes IsEdged ∧ (r.1.isPorous = false → r.2.Takes IsSolid)) {s : List Char} {t : Token}
    (h : t ∈ (sweepAll rs s).1) : t.IsWithin s ∧ (t.kind.isPorous = false → t.IsSolidIn s) := by
  induction rs generalizing s with
  | nil => cases h
  | cons r rs ih =>
    obtain ⟨kind, rule⟩ := r
    obtain ⟨⟨hedged, hsolid⟩, hrs⟩ := List.forall_mem_cons.1 hrs
    rw [sweepAll_cons] at h
    rcases List.mem_append.1 h with h | h
    · refine ⟨isWithin_of_mem_sweep hedged h, fun hk => ?_⟩
      rw [kind_of_mem_sweep h] at hk
      exact isSolidIn_of_mem_sweep (hsolid hk) h
    · rw [sweep_eq_blanked hedged] at h
      obtain ⟨hin, hs⟩ := ih hrs h
      exact ⟨hin.of_blanked, fun hk => (hs hk).of_blanked⟩

/-- Two tokens lie apart, or the later one around the earlier one. -/
theorem pairwise_sweepAll
    (hrs : ∀ r ∈ rs, r.2.Takes IsEdged ∧ (r.1.isPorous = false → r.2.Takes IsSolid)) (s : List Char) :
    (sweepAll rs s).1.Pairwise fun a b =>
      a.IsApart b ∨ a.IsInside b ∧ b.kind.isPorous = true ∧ ∃ r ∈ rs.tail, b.kind = r.1 := by
  induction rs generalizing s with
  | nil => exact .nil
  | cons r rs ih =>
    obtain ⟨kind, rule⟩ := r
    obtain ⟨⟨hedged, -⟩, hrs⟩ := List.forall_mem_cons.1 hrs
    rw [sweepAll_cons]
    refine List.pairwise_append.2 ⟨(pairwise_sweep hedged 0 0 true s).imp fun h => .inl (.inl h), ?_, ?_⟩
    · refine (ih hrs _).imp fun h => h.imp id fun ⟨hin, hp, q, hq, hk⟩ => ⟨hin, hp, q, ?_, hk⟩
      exact List.mem_of_mem_tail hq
    · intro a ha b hb
      have hkind := kind_of_mem_sweepAll hb
      rw [sweep_eq_blanked hedged] at hb
      obtain ⟨hin, hs⟩ := isWithin_of_mem_sweepAll hrs hb
      rcases Token.isApart_or_isInside ha (isWithin_of_mem_sweep hedged ha).lt hin with h | ⟨h, hnot⟩
      · exact .inl h
      · refine .inr ⟨h, ?_, hkind⟩
        by_contra hp
        exact hnot (hs (Bool.eq_false_iff.2 hp))

end SweepAll

end SearchBox.Query

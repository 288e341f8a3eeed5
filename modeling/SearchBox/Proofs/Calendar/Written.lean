import SearchBox.Calendar.Written
import SearchBox.Proofs.Number.Numeral

/-!
  SearchBox.Proofs.Calendar.Written — when a number stops the reading of a written date. Only a
  number of minutes or hours is divided (`sixtieths?`), and only one of more digits than a result
  may have cannot be. The pieces of a text have no digits but the text's own, so a text with
  fewer digits is a date or is none (`divides_read`).
-/

namespace SearchBox.Calendar.Written

open SearchBox.Number SearchBox.Text

/-! ## Digits of pieces -/

/-- The number of decimal digits, of any script. -/
def digitCount (s : List Char) : Nat :=
  s.countP fun c => (decimalValue? c).isSome

theorem digitCount_cons (c : Char) (s : List Char) : digitCount (c :: s) = digitCount [c] + digitCount s := by
  simp only [digitCount, List.countP_cons, List.countP_nil]
  omega

theorem mem_cut_cons {c : Char} {rest : List Char} {t : Token} (h : t ∈ OpenToken.cut (c :: rest)) :
    t = [c] ∨ t ∈ OpenToken.cut rest ∨ ∃ u ∈ OpenToken.cut rest, t = c :: u := by
  unfold OpenToken.cut at h
  split at h
  · exact (List.mem_cons.1 h).imp id .inl
  split at h
  · rename_i d more u us hcut
    rw [hcut]
    split at h
    · exact (List.mem_cons.1 h).imp id .inl
    · rcases List.mem_cons.1 h with rfl | h
      · exact .inr (.inr ⟨u, List.mem_cons_self, rfl⟩)
      · exact .inr (.inl (List.mem_cons_of_mem _ h))
  · exact .inl (List.mem_singleton.1 h)

theorem digitCount_cut {s : List Char} {t : Token} (h : t ∈ OpenToken.cut s) : digitCount t ≤ digitCount s := by
  induction s generalizing t with
  | nil => cases h
  | cons c rest ih =>
    rw [digitCount_cons c rest]
    rcases mem_cut_cons h with rfl | h | ⟨u, hu, rfl⟩
    · omega
    · have := ih h
      omega
    · rw [digitCount_cons]
      have := ih hu
      omega

/-- A comma is no digit, and neither is the point it is written as. -/
theorem digitCount_point (s : List Char) : digitCount (s.map fun c => if c = ',' then '.' else c) = digitCount s := by
  rw [digitCount, digitCount, List.countP_map]
  refine List.countP_congr fun c _ => ?_
  by_cases hc : c = ','
  · subst hc
    decide
  · simp [hc]

theorem digitCount_close {o : OpenToken} {ended : Bool} {t : Token} (h : t ∈ o.close ended) :
    digitCount t ≤ digitCount o.reversed := by
  have hreverse : digitCount o.reversed.reverse = digitCount o.reversed := List.countP_reverse
  rw [← hreverse]
  unfold OpenToken.close at h
  simp only at h
  split at h
  · rw [List.mem_singleton.1 h]
  · rw [List.mem_singleton.1 h]
  · split at h
    · exact digitCount_cut h
    · rw [List.mem_singleton.1 h]
  · split at h
    · exact digitCount_cut h
    split at h
    · rw [List.mem_singleton.1 h]
    · rw [List.mem_singleton.1 h, digitCount_point]

theorem reversed_of_extend? {o o' : OpenToken} {c : Char} (h : o.extend? c = some o') : o'.reversed = c :: o.reversed := by
  unfold OpenToken.extend? at h
  simp only at h
  split at h
  all_goals
    split at h
    · cases h
      rfl
    · split at h
      · cases h
        rfl
      · cases h

theorem reversed_of_openToken {c : Char} {o : OpenToken} (h : openToken c = .inl o) : o.reversed = [c] := by
  unfold openToken at h
  split at h
  · cases h
    rfl
  · split at h
    · cases h
      rfl
    · split at h <;> cases h

theorem digitCount_openToken {c : Char} {t : Token} (h : openToken c = .inr t) : digitCount t ≤ digitCount [c] := by
  have hblank : digitCount [' '] = 0 := by decide
  unfold openToken at h
  split at h
  · cases h
  · split at h
    · cases h
    · split at h
      · cases h
        omega
      · cases h
        exact Nat.le_refl _

def openChars (o : Option OpenToken) : List Char :=
  (o.map (·.reversed)).getD []

/-- An open piece goes on, or the text is cut after it as it is cut from its start. -/
theorem tokensFrom_some (o : OpenToken) (c : Char) (rest : List Char) :
    tokensFrom (some o) (c :: rest) =
      ((o.extend? c).map fun o => tokensFrom (some o) rest).getD (o.close true ++ tokensFrom none (c :: rest)) := by
  rw [tokensFrom, tokensFrom]
  cases o.extend? c <;> rfl

theorem digitCount_tokensFrom {o : Option OpenToken} {s : List Char} {t : Token} (h : t ∈ tokensFrom o s) :
    digitCount t ≤ digitCount (openChars o) + digitCount s := by
  induction s generalizing o with
  | nil =>
    cases o with
    | none => cases h
    | some o => exact digitCount_close h
  | cons c rest ih =>
    have hnext : t ∈ tokensFrom none (c :: rest) → digitCount t ≤ digitCount (c :: rest) := by
      intro ht
      rw [digitCount_cons]
      rw [tokensFrom] at ht
      split at ht
      · rename_i o ho
        have := ih ht
        rwa [openChars, Option.map_some, Option.getD_some, reversed_of_openToken ho] at this
      · rename_i token htoken
        rcases List.mem_cons.1 ht with rfl | ht
        · have := digitCount_openToken htoken
          omega
        · have := ih ht
          simp only [openChars, Option.map_none, Option.getD_none] at this
          have hnil : digitCount [] = 0 := rfl
          omega
    cases o with
    | none =>
      have := hnext h
      omega
    | some o =>
      rw [tokensFrom_some] at h
      cases ho' : o.extend? c with
      | some o' =>
        rw [ho'] at h
        have := ih h
        simp only [openChars, Option.map_some, Option.getD_some, reversed_of_extend? ho'] at this ⊢
        rw [digitCount_cons] at this
        rw [digitCount_cons c rest]
        omega
      | none =>
        rw [ho'] at h
        rcases List.mem_append.1 h with h | h
        · have := digitCount_close h
          simp only [openChars, Option.map_some, Option.getD_some]
          omega
        · have := hnext h
          omega

/-- A piece has no more digits than its text. -/
theorem digitCount_tokens {s : List Char} {t : Token} (h : t ∈ tokens s) : digitCount t ≤ digitCount s := by
  have hpiece := digitCount_tokensFrom h
  have hnil : digitCount (openChars none) = 0 := rfl
  have hfilter : digitCount (s.filter (· ≠ '\x00')) ≤ digitCount s := List.filter_sublist.countP_le
  omega

/-! ## Long numbers -/

/-- No number was too long to be divided. -/
def Divides {α : Type} (x : Except WrittenError α) : Prop :=
  x ≠ .error .numberTooLong

theorem divides_ok {α : Type} (a : α) : Divides (Except.ok a) :=
  nofun

theorem divides_unreadable {α : Type} : Divides (Except.error (α := α) .unreadable) :=
  nofun

theorem Divides.bind {α β : Type} {x : Except WrittenError α} {k : α → Except WrittenError β} (hx : Divides x)
    (hk : ∀ a, x = .ok a → Divides (k a)) : Divides (x >>= k) := by
  cases x with
  | error e => exact fun h => hx (by cases h; rfl)
  | ok a => exact hk a rfl

theorem length_le_digitCount {s : List Char} {ds : List Nat} (h : s.mapM decimalValue? = some ds) :
    ds.length = digitCount s ∧ ∀ d ∈ ds, d < 10 := by
  induction s generalizing ds with
  | nil =>
    cases h
    exact ⟨rfl, fun d hd => by cases hd⟩
  | cons c s ih =>
    rw [List.mapM_cons] at h
    cases hd : decimalValue? c with
    | none =>
      rw [hd] at h
      cases h
    | some d =>
      rw [hd] at h
      cases hds : s.mapM decimalValue? with
      | none =>
        rw [hds] at h
        cases h
      | some rest =>
        rw [hds] at h
        cases h
        obtain ⟨hlen, hlt⟩ := ih hds
        refine ⟨?_, List.forall_mem_cons.2 ⟨decimalValue?_lt hd, hlt⟩⟩
        have hc : digitCount [c] = 1 := by simp [digitCount, hd]
        rw [digitCount_cons, hc, List.length_cons, hlen, Nat.add_comm]

theorem Divides.ite {α : Type} {p : Prop} [Decidable p] {x y : Except WrittenError α} (hx : Divides x)
    (hy : Divides y) : Divides (if p then x else y) := by
  split
  · exact hx
  · exact hy

theorem Decimal.floor_lt {t : Token} {n : Decimal} (h : Decimal.read? t = some n) : n.floor < 10 ^ digitCount t := by
  have hsplit : digitCount (t.takeWhile (· ≠ '.') ++ (t.dropWhile (· ≠ '.')).drop 1) ≤ digitCount t := by
    conv_rhs => rw [← List.takeWhile_append_dropWhile (p := fun c => decide (c ≠ '.')) (l := t)]
    rw [digitCount, digitCount, List.countP_append, List.countP_append]
    exact Nat.add_le_add_left (List.drop_sublist 1 _).countP_le _
  unfold Decimal.read? at h
  simp only at h
  split at h
  · cases h
  · rename_i ds _ hds
    cases h
    obtain ⟨hlen, hlt⟩ := length_le_digitCount hds
    calc
      ofDigits 10 ds / tenTo _ ≤ ofDigits 10 ds := Nat.div_le_self _ _
      _ < 10 ^ ds.length := ofDigits_lt hlt
      _ ≤ 10 ^ digitCount t := Nat.pow_le_pow_right (by decide) (by omega)
  · cases h

theorem divides_sixtieths? {t : Token} {n : Decimal} (h : Decimal.read? t = some n)
    (ht : digitCount t ≤ Decimal.precision) : Divides n.sixtieths? := by
  have hfloor : ¬ tenTo Decimal.precision ≤ n.floor :=
    Nat.not_le.2 (Nat.lt_of_lt_of_le (Decimal.floor_lt h) (Nat.pow_le_pow_right (by decide) ht))
  unfold Decimal.sixtieths?
  rw [if_neg hfloor]
  simp only
  split
  · exact divides_ok _
  · exact divides_ok _

/-! ## Pieces that are read -/

theorem divides_natural? (t : Token) : Divides (Draft.natural? t) := by
  unfold Draft.natural?
  split
  · split
    · exact divides_unreadable
    · exact divides_ok _
  · exact divides_unreadable

theorem divides_secondsOf (t : Token) : Divides (secondsOf t) := by
  unfold secondsOf
  split
  · refine (divides_natural? _).bind fun whole _ => (divides_natural? _).bind fun micro _ => divides_ok _
  · exact (divides_natural? _).bind fun whole _ => divides_ok _

section Drafts

variable (d : Draft)

theorem divides_addMonth (n : Nat) : Divides (d.addMonth n) := by
  unfold Draft.addMonth
  split
  · exact divides_unreadable
  · exact divides_ok _

theorem divides_addYear (n : Nat) (century : Bool) : Divides (d.addYear n century) := by
  unfold Draft.addYear
  split
  · exact divides_unreadable
  · exact divides_ok _

theorem divides_addToken (t : Token) : Divides (d.addToken t) := by
  refine (divides_natural? _).bind fun n _ => ?_
  split
  · exact divides_addYear _ _ _
  · exact divides_ok _

theorem divides_addYearToken (t : Token) : Divides (d.addYearToken t) :=
  (divides_natural? _).bind fun _ _ => divides_addYear _ _ _

theorem divides_addDecimal (n : Decimal) : Divides (d.addDecimal n) := by
  unfold Draft.addDecimal
  split
  · exact divides_addYear _ _ _
  · exact divides_ok _

theorem divides_addMonthOrToken (t : Token) : Divides (d.addMonthOrToken t) := by
  unfold Draft.addMonthOrToken
  split
  · exact divides_addMonth _ _
  · exact divides_addToken _ _

theorem divides_addSeparated (separator : Token) (ts : List Token) : Divides (d.addSeparated separator ts) := by
  unfold Draft.addSeparated
  split
  · exact divides_ok _
  split
  · exact divides_ok _
  extract_lets rest
  have hrest : ∀ d, Divides (rest d) := by
    intro d
    unfold rest
    split
    · split
      · split
        · exact (divides_addMonthOrToken _ _).bind fun _ _ => divides_ok _
        · exact divides_unreadable
      · exact divides_ok _
    · exact divides_ok _
  split
  · exact (divides_addToken _ _).bind fun d _ => hrest d
  · split
    · exact (divides_addMonth _ _).bind fun d _ => hrest d
    · exact divides_unreadable

theorem divides_setRunningClock (t : Token) : Divides (d.setRunningClock t) :=
  (divides_natural? _).bind fun _ _ => (divides_natural? _).bind fun _ _ => (divides_secondsOf _).bind fun _ _ =>
    divides_ok _

theorem divides_setRunningDate (t : Token) : Divides (d.setRunningDate t) := by
  refine (divides_addYearToken _ _).bind fun d _ => (divides_addToken _ _).bind fun d _ =>
    (divides_addToken _ _).bind fun d _ => ?_
  split
  · exact divides_ok _
  · refine (divides_natural? _).bind fun hour _ => (divides_natural? _).bind fun minute _ => ?_
    dsimp only
    split
    · exact divides_ok _
    · exact (divides_natural? _).bind fun _ _ => divides_ok _

theorem divides_readMonth (currentYear month : Nat) (rest : List Token) : Divides (d.readMonth currentYear month rest) := by
  refine (divides_addMonth _ _).bind fun d _ => ?_
  split
  · split
    · split
      · exact (divides_natural? _).bind fun _ _ => (divides_addYear _ _ _).bind fun _ _ => divides_ok _
      · exact divides_ok _
    · exact divides_ok _
  · split
    · split
      · exact divides_unreadable
      · refine (divides_addToken _ _).bind fun d _ => ?_
        split
        · split
          · split
            · exact (divides_addToken _ _).bind fun _ _ => divides_ok _
            · exact divides_unreadable
          · exact divides_ok _
        · exact divides_ok _
    · exact divides_ok _
  · exact divides_ok _

theorem divides_offsetOf (ts : List Token) : Divides (offsetOf ts) := by
  unfold offsetOf
  split
  · exact divides_unreadable
  split
  · exact (divides_natural? _).bind fun _ _ => (divides_natural? _).bind fun _ _ => divides_ok _
  split
  · refine (divides_natural? _).bind fun _ _ => ?_
    split
    · exact (divides_natural? _).bind fun _ _ => divides_ok _
    · exact divides_unreadable
  · split
    · exact (divides_natural? _).bind fun _ _ => divides_ok _
    · exact divides_unreadable

theorem divides_readOffset (sign : Token) (rest : List Token) : Divides (d.readOffset sign rest) := by
  refine (divides_offsetOf _).bind fun used _ => ?_
  dsimp only
  split
  · exact (divides_ok _).ite (divides_ok _)
  · exact divides_ok _

/-! ## Numbers that are divided -/

variable {d}

theorem divides_setMinutes {t : Token} {n : Decimal} (hn : Decimal.read? t = some n)
    (ht : digitCount t ≤ Decimal.precision) : Divides (d.setMinutes n) :=
  (divides_sixtieths? hn ht).bind fun _ _ => divides_ok _

theorem divides_setUnit {t : Token} {n : Decimal} (hn : Decimal.read? t = some n)
    (ht : digitCount t ≤ Decimal.precision) (unit : Nat) : Divides (d.setUnit t n unit) := by
  unfold Draft.setUnit
  split
  · exact (divides_sixtieths? hn ht).bind fun _ _ => divides_ok _
  · exact divides_setMinutes hn ht
  · exact (divides_secondsOf _).bind fun _ _ => divides_ok _
  · exact divides_ok _

theorem divides_setClock (hour : Nat) {m : Token} (hm : digitCount m ≤ Decimal.precision) (more : List Token) :
    Divides (d.setClock hour m more) := by
  unfold Draft.setClock
  cases hn : Decimal.read? m with
  | none => exact divides_unreadable
  | some n =>
    refine (divides_setMinutes hn hm).bind fun d _ => ?_
    split
    · exact (divides_secondsOf _).bind fun _ _ => divides_ok _
    · exact divides_ok _

theorem divides_addDay {n : Decimal} :
    Divides (if d.couldBeDay n then do return (← d.addDecimal n, 0) else .error .unreadable : Step) := by
  split
  · exact (divides_addDecimal _ _).bind fun _ _ => divides_ok _
  · exact divides_unreadable

theorem divides_readNumber {t : Token} {n : Decimal} (hn : Decimal.read? t = some n) (before : List Token)
    {rest : List Token} (hts : ∀ u ∈ t :: rest, digitCount u ≤ Decimal.precision) :
    Divides (d.readNumber before t n rest) := by
  obtain ⟨ht, hrest⟩ := List.forall_mem_cons.1 hts
  unfold Draft.readNumber
  split
  · refine (divides_natural? _).bind fun _ _ => ?_
    dsimp only
    split
    · exact (Divides.bind (divides_natural? _) fun _ _ => divides_ok _).bind fun _ _ => divides_ok _
    · exact divides_ok _
  split
  · split
    · exact (divides_addToken _ _).bind fun _ _ => (divides_addToken _ _).bind fun _ _ =>
        (divides_addToken _ _).bind fun _ _ => divides_ok _
    · exact (divides_setRunningClock _ _).bind fun _ _ => divides_ok _
  split
  · exact (divides_setRunningDate _ _).bind fun _ _ => divides_ok _
  split
  · exact (divides_setUnit hn ht _).bind fun _ _ => divides_ok _
  split
  · exact (divides_addDecimal _ _).bind fun _ _ => divides_ok _
  split
  · exact divides_setClock _ (hrest _ (List.mem_cons_of_mem _ List.mem_cons_self)) _
  split
  · exact (divides_addToken _ _).bind fun _ _ => divides_addSeparated _ _ _
  split
  · split
    · exact divides_ok _
    · exact (divides_addDecimal _ _).bind fun _ _ => divides_ok _
  split
  · split
    · exact divides_ok _
    · exact divides_addDay
  · exact divides_addDay

theorem divides_readToken (currentYear : Nat) (before : List Token) {t : Token} {rest : List Token}
    (hts : ∀ u ∈ t :: rest, digitCount u ≤ Decimal.precision) : Divides (d.readToken currentYear before t rest) := by
  unfold Draft.readToken
  split
  · rename_i n hn
    exact divides_readNumber hn before hts
  split
  · exact divides_unreadable
  split
  · exact divides_ok _
  split
  · exact divides_readMonth _ _ _ _
  split
  · split
    · exact divides_ok _
    · exact divides_unreadable
  · exact divides_unreadable
  split
  · exact divides_ok _
  split
  · exact divides_readOffset _ _ _
  split
  · exact divides_ok _
  · exact divides_unreadable

end Drafts

theorem divides_readFrom (currentYear : Nat) {ts : List Token} (hts : ∀ t ∈ ts, digitCount t ≤ Decimal.precision)
    (d : Draft) (before : List Token) (used : Nat) : Divides (readFrom currentYear d before used ts) := by
  induction ts generalizing d before used with
  | nil => cases used <;> exact divides_ok _
  | cons t rest ih =>
    obtain ⟨-, hrest⟩ := List.forall_mem_cons.1 hts
    cases used with
    | zero => exact (divides_readToken currentYear before hts).bind fun _ _ => ih hrest _ _ _
    | succ used => exact ih hrest _ _ _

/-! ## Dates -/

theorem divides_parts (d : Draft) : Divides d.parts := by
  unfold Draft.parts
  generalize (if d.yearPlace.isSome then 1 else 0) + (if d.monthPlace.isSome then 1 else 0) = known
  dsimp only
  split
  · exact divides_ok _
  · split <;> first | exact divides_ok _ | exact divides_unreadable

theorem divides_date (d : Draft) (currentYear : Nat) (fallback : Date) : Divides (d.date currentYear fallback) := by
  refine (divides_parts d).bind fun parts _ => ?_
  dsimp only
  split
  · exact divides_unreadable
  split
  · split
    · exact divides_ok _
    · exact divides_unreadable
  · exact divides_ok _

theorem divides_timeOfDay (d : Draft) : Divides d.timeOfDay := by
  unfold Draft.timeOfDay
  dsimp only
  split
  · exact divides_ok _
  · exact divides_unreadable

theorem divides_countsAsDaylight (zone : Zone) (w : WallTime) (earlier : Bool) :
    Divides (countsAsDaylight zone w earlier) := by
  unfold countsAsDaylight
  dsimp only
  split
  · exact divides_ok _
  split
  · exact divides_ok _
  split
  · exact divides_ok _
  · exact divides_unreadable

theorem divides_localTime (zone : Zone) (w : WallTime) (name : String) : Divides (localTime zone w name) := by
  exact (divides_countsAsDaylight _ _ _).bind fun _ _ => (divides_countsAsDaylight _ _ _).bind fun _ _ =>
    (divides_ok _).ite (divides_ok _)

/-- A text of no more digits than can be divided is a date or is none. -/
theorem divides_read (clock : Clock) (fallback : Date) {s : List Char} (hs : digitCount s ≤ Decimal.precision) :
    Divides (read clock fallback s) := by
  have hts : ∀ t ∈ tokens s, digitCount t ≤ Decimal.precision := fun t ht => Nat.le_trans (digitCount_tokens ht) hs
  unfold read
  refine (divides_readFrom _ hts _ _ _).bind fun d _ => divides_unreadable.ite ?_
  refine (divides_date _ _ _).bind fun date _ => (divides_timeOfDay _).bind fun time _ => ?_
  dsimp only
  split
  · exact divides_ok _
  · exact divides_ok _
  · exact (divides_localTime _ _ _).bind fun _ _ => divides_ok _
  · exact (divides_ok _).ite divides_unreadable

end SearchBox.Calendar.Written

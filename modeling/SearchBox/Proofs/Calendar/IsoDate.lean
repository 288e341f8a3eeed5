import SearchBox.Proofs.Calendar.IsoText
import SearchBox.Proofs.Calendar.Moment
import SearchBox.Proofs.Fallible

/-!
  SearchBox.Proofs.Calendar.IsoDate — dates in the form `2024-06-15`, with or without a time of day
  and an offset, are read as they are written (`read_isoDate`). The four digits in front are the
  year whatever their value, so that nothing comes from the current day, and an offset stands
  beside the time without moving it.
-/

namespace SearchBox.Calendar

/-- The name of universal time stands for universal time only. -/
def Zone.KeepsUniversalName (zone : Zone) : Prop :=
  "UTC" ∈ zone.names → zone = .utc

instance (zone : Zone) : Decidable zone.KeepsUniversalName :=
  inferInstanceAs (Decidable ("UTC" ∈ zone.names → zone = .utc))

theorem usualZones_keepUniversalName : ∀ text ∈ usualZones, (Zone.read? text).any (·.KeepsUniversalName) = true := by
  decide

end SearchBox.Calendar

namespace SearchBox.Calendar.Written

open SearchBox.Number SearchBox.Text

/-! ## Drafts -/

/-- What the marks of a zone tell; the capital letter is a name only. -/
def ZoneMark.addTo (z : ZoneMark) (d : Draft) : Draft :=
  match z with
  | .omitted => d
  | .universal capital => { d with zoneName := some [letter capital], offset := if capital then none else some 0 }
  | .offset _ _ _ => { d with offset := z.seconds? }

def IsoClock.addTimeTo (c : IsoClock) (d : Draft) : Draft :=
  let d := { d with hour := some c.time.hour, minute := some c.time.minute }
  match c.fineness with
  | .minutes => d
  | .seconds => { d with second := some c.time.second, micro := some 0 }
  | .micros => { d with second := some c.time.second, micro := some c.time.micro }

def IsoClock.addTo (c : IsoClock) (d : Draft) : Draft :=
  c.zone.addTo (c.addTimeTo d)

def dateDraft (d : Date) : Draft :=
  { numbers := [d.year, d.month, d.day], yearPlace := some 0, fullYear := true }

def IsoDate.draft (f : IsoDate) : Draft :=
  f.clock.elim (dateDraft f.date) (·.addTo (dateDraft f.date))

theorem all_isDigit_paddedDigits (n width : Nat) : (paddedDigits n width).all isDigit = true :=
  List.all_eq_true.2 fun _ hc => isDigit_of_isDigit (isDigit_of_mem_paddedDigits hc)

/-- A piece that can only be read as a number of two digits. -/
structure IsTwoDigits (t : Token) (n : Nat) : Prop where
  length : t.length = 2
  natural : Draft.natural? t = .ok n
  number : Decimal.read? t = some ⟨n, 0⟩
  digits : t.all isDigit = true
  filler : isFiller t = false
  month : month? t = none

theorem isTwoDigits {n : Nat} (hn : n < 100) : IsTwoDigits (paddedDigits n 2) n where
  length := length_paddedDigits (by decide) hn
  natural := natural?_paddedDigits (by decide) hn (by decide)
  number := read?_paddedDigits (by decide) hn
  digits := all_isDigit_paddedDigits n 2
  filler := (show ∀ n < 100, isFiller (paddedDigits n 2) = false by decide) n hn
  month := (show ∀ n < 100, month? (paddedDigits n 2) = none by decide) n hn

theorem IsTwoDigits.addToken {t : Token} {n : Nat} (h : IsTwoDigits t n) (d : Draft) :
    d.addToken t = .ok (d.addNumber n) := by
  rw [Draft.addToken, h.natural, ok_bind, h.digits, h.length]
  rfl

section Reading

variable (currentYear : Nat)

theorem readToken_year (d : Date) (more : List Token) :
    ({} : Draft).readToken currentYear [] (paddedDigits d.year 4)
      (['-'] :: paddedDigits d.month 2 :: ['-'] :: paddedDigits d.day 2 :: more) = .ok (dateDraft d, 4) := by
  obtain ⟨hyear, hmonth, hday⟩ := date_bounds d
  have hlength : (paddedDigits d.year 4).length = 4 := length_paddedDigits (by decide) hyear
  have hunit : unit? ['-'] = none := by decide
  have haddYear : ({} : Draft).addToken (paddedDigits d.year 4) =
      .ok { numbers := [d.year], yearPlace := some 0, fullYear := true } := by
    rw [Draft.addToken, natural?_paddedDigits (by decide) hyear (by decide), ok_bind, all_isDigit_paddedDigits, hlength]
    rfl
  rw [Draft.readToken, read?_paddedDigits (by decide) hyear]
  simp only [Draft.readNumber, Draft.awaitsClock, hlength, unitOf?, hunit, isDateSeparator, haddYear, Draft.addSeparated,
    (isTwoDigits hmonth).filler, (isTwoDigits hmonth).digits, (isTwoDigits hmonth).addToken, Draft.addMonthOrToken,
    (isTwoDigits hday).month, (isTwoDigits hday).addToken, List.head?_cons, Option.bind_some]
  rfl

/-- A piece without a meaning in the calendar or on the clock. -/
structure IsNameless (t : Token) : Prop where
  number : (Decimal.read? t).isNone = true
  numberWord : isNumberWord t = false
  weekday : weekday? t = none
  month : month? t = none
  halfDay : halfDay? t = none

instance (t : Token) : Decidable (IsNameless t) :=
  decidable_of_iff ((Decimal.read? t).isNone = true ∧ isNumberWord t = false ∧ weekday? t = none ∧ month? t = none ∧
      halfDay? t = none)
    ⟨fun ⟨h₁, h₂, h₃, h₄, h₅⟩ => ⟨h₁, h₂, h₃, h₄, h₅⟩, fun h => ⟨h.number, h.numberWord, h.weekday, h.month, h.halfDay⟩⟩

theorem readToken_of_isNameless {t : Token} (h : IsNameless t) (d : Draft) (before rest : List Token) :
    d.readToken currentYear before t rest =
      if d.couldBeZone d.offset t then .ok (d.readZone t rest, 0)
      else if d.hour.isSome && isSign t then d.readOffset t rest
      else if isFiller t then .ok (d, 0) else .error .unreadable := by
  rw [Draft.readToken, Option.isNone_iff_eq_none.1 h.number, h.weekday, h.month, h.halfDay]
  simp [h.numberWord]

theorem readToken_letter (capital : Bool) (d : Date) (before rest : List Token) :
    (dateDraft d).readToken currentYear before [IsoClock.letter capital] rest = .ok (dateDraft d, 0) := by
  have hname : IsNameless [IsoClock.letter capital] := by cases capital <;> decide
  have hfiller : isFiller [IsoClock.letter capital] = true := by cases capital <;> decide
  rw [readToken_of_isNameless currentYear hname, hfiller]
  rfl

theorem readFrom_zone (z : ZoneMark) {d : Draft} (hhour : d.hour.isSome = true) (hname : d.zoneName = none)
    (hoffset : d.offset = none) (hreversed : d.reversed = false) (before : List Token) :
    readFrom currentYear d before 0 z.pieces = .ok (z.addTo d) := by
  cases z with
  | omitted => rfl
  | universal capital =>
    have hnameless : IsNameless [ZoneMark.letter capital] := by cases capital <;> decide
    have huniversal : isUniversalName [ZoneMark.letter capital] = true := by cases capital <;> decide
    rw [ZoneMark.pieces, readFrom, readToken_of_isNameless currentYear hnameless, Draft.couldBeZone, hhour, hname, hoffset,
      huniversal]
    cases capital <;> rfl
  | offset ahead hours minutes =>
    have hnameless : IsNameless [ZoneMark.sign ahead] := by cases ahead <;> decide
    have hsign : isSign [ZoneMark.sign ahead] = true := by cases ahead <;> decide
    have hzone : ([ZoneMark.sign ahead].all Char.isUpper || isUniversalName [ZoneMark.sign ahead]) = false := by
      cases ahead <;> decide
    have hhours := isTwoDigits hours.isLt
    have hread : offsetOf [paddedDigits hours 2, [':'], paddedDigits minutes 2] =
        .ok ((hours * 3600 + minutes * 60 : Nat), 3) := by
      simp only [offsetOf, hhours.length, natural?, hhours.natural, (isTwoDigits minutes.isLt).natural]
      rfl
    rw [ZoneMark.pieces, readFrom, readToken_of_isNameless currentYear hnameless, Draft.couldBeZone, hhour, hzone, hsign,
      Bool.and_false, if_neg Bool.false_ne_true, Draft.readOffset, hread, hreversed]
    obtain ⟨numbers, yearPlace, monthPlace, fullYear, weekday, hour, minute, second, micro, zoneName, offset, reversed⟩ := d
    cases hreversed
    cases ahead <;> rfl

theorem readFrom_cons {d d' : Draft} {before rest : List Token} {t : Token} {used : Nat}
    (h : d.readToken currentYear before t rest = .ok (d', used)) :
    readFrom currentYear d before 0 (t :: rest) = readFrom currentYear d' (t :: before) used rest := by
  rw [readFrom, h]
  rfl

/-- Pieces that an earlier one was read with are passed over. -/
theorem readFrom_append (d : Draft) (before skipped rest : List Token) :
    readFrom currentYear d before skipped.length (skipped ++ rest) =
      readFrom currentYear d (skipped.reverse ++ before) 0 rest := by
  induction skipped generalizing before with
  | nil => rfl
  | cons t skipped ih =>
    rw [List.cons_append, List.length_cons, readFrom, ih, List.reverse_cons, List.append_assoc]
    rfl

theorem secondsOf_whole {n : Nat} (hn : n < 100) : secondsOf (paddedDigits n 2) = .ok (n, 0) := by
  have hpoint : (paddedDigits n 2).contains '.' = false := by
    rw [List.contains_eq_mem, decide_eq_false_iff_not]
    intro hmem
    cases isDigit_of_mem_paddedDigits hmem
  rw [secondsOf, hpoint, if_neg Bool.false_ne_true, natural?, (isTwoDigits hn).natural]
  rfl

theorem secondsOf_fraction {n micro : Nat} (hn : n < 100) (hmicro : micro < 10 ^ 6) :
    secondsOf (paddedDigits n 2 ++ '.' :: paddedDigits micro 6) = .ok (n, micro) := by
  have hpoint : ∀ c ∈ paddedDigits n 2, decide (c ≠ '.') = true :=
    forall_ne_point fun _ hc => isDigit_of_mem_paddedDigits hc
  have hlength : (paddedDigits micro 6).length = 6 := length_paddedDigits (by decide) hmicro
  have hcontains : (paddedDigits n 2 ++ '.' :: paddedDigits micro 6).contains '.' = true := by simp
  have hwhole : (paddedDigits n 2 ++ '.' :: paddedDigits micro 6).takeWhile (· ≠ '.') = paddedDigits n 2 := by
    rw [List.takeWhile_append_of_pos hpoint, List.takeWhile_cons]
    simp
  have hplaces : (paddedDigits n 2 ++ '.' :: paddedDigits micro 6).dropWhile (· ≠ '.') = '.' :: paddedDigits micro 6 := by
    rw [List.dropWhile_append_of_pos hpoint, List.dropWhile_cons]
    simp
  have hmicros := natural?_paddedDigits (by decide) hmicro (by decide)
  rw [secondsOf, hcontains, if_pos rfl, hwhole, hplaces, natural?, (isTwoDigits hn).natural, ok_bind]
  simp only [List.drop_succ_cons, List.drop_zero, hlength, Nat.sub_self, List.replicate_zero, List.append_nil,
    List.take_of_length_le (Nat.le_of_eq hlength), hmicros]
  rfl

theorem Decimal.floor_whole (n : Nat) : Decimal.floor ⟨n, 0⟩ = n :=
  Nat.div_one n

theorem setMinutes_of_lt {n : Nat} (hn : n < 100) (d : Draft) :
    d.setMinutes ⟨n, 0⟩ = .ok { d with minute := some n, second := none } := by
  have hshort : n < tenTo Decimal.precision := Nat.lt_trans hn (by decide)
  have hsixtieths : Decimal.sixtieths? ⟨n, 0⟩ = .ok none := by
    rw [Decimal.sixtieths?, Decimal.floor_whole, if_neg (Nat.not_le_of_lt hshort)]
    simp [tenTo, Nat.mod_one]
  rw [Draft.setMinutes, hsixtieths, ok_bind, Decimal.floor_whole]
  rfl

section SetClock

variable {n : Nat} (hn : n < 100) (d : Draft) (hour : Nat)
include hn

theorem setClock_seconds {s : Token} {second micro : Nat} (hs : secondsOf s = .ok (second, micro)) (more : List Token) :
    d.setClock hour (paddedDigits n 2) ([':'] :: s :: more) =
      .ok ({ d with hour := some hour, minute := some n, second := some second, micro := some micro }, 4) := by
  rw [Draft.setClock, (isTwoDigits hn).number]
  show (Draft.setMinutes { d with hour := some hour } ⟨n, 0⟩ >>= fun d =>
    secondsOf s >>= fun parts => pure ({ d with second := some parts.1, micro := some parts.2 }, 4)) = _
  rw [setMinutes_of_lt hn, ok_bind, hs]
  rfl

theorem setClock_minutes {more : List Token} (hmore : more.head? ≠ some [':']) :
    d.setClock hour (paddedDigits n 2) more = .ok ({ d with hour := some hour, minute := some n, second := none }, 2) := by
  rw [Draft.setClock, (isTwoDigits hn).number]
  show (Draft.setMinutes { d with hour := some hour } ⟨n, 0⟩ >>= fun d => _) = _
  rw [setMinutes_of_lt hn, ok_bind]
  split
  · exact absurd rfl hmore
  · rfl

end SetClock

theorem setClock_pieces (c : IsoClock) (d : Date) :
    (dateDraft d).setClock c.time.hour (paddedDigits c.time.minute 2) (c.secondsPieces ++ c.zone.pieces) =
      .ok (c.addTimeTo (dateDraft d), 2 + c.secondsPieces.length) := by
  obtain ⟨-, hminute, hsecond, hmicro⟩ := c.bounds
  have hminute : c.time.minute < 100 := Nat.lt_trans hminute (by decide)
  have hsecond : c.time.second < 100 := Nat.lt_trans hsecond (by decide)
  unfold IsoClock.addTimeTo IsoClock.secondsPieces
  cases c.fineness with
  | minutes => exact setClock_minutes hminute _ _ c.zone.head?_pieces
  | seconds => exact setClock_seconds hminute _ _ (secondsOf_whole hsecond) _
  | micros => exact setClock_seconds hminute _ _ (secondsOf_fraction hsecond hmicro) _

theorem readFrom_clock (c : IsoClock) (d : Date) (before : List Token) :
    readFrom currentYear (dateDraft d) before 0 c.pieces = .ok (c.addTo (dateDraft d)) := by
  obtain ⟨hhour, hminute, -, -⟩ := c.bounds
  have hhour := isTwoDigits (Nat.lt_trans hhour (show 24 < 100 by decide))
  have hunit : unit? [':'] = none := by decide
  have hletter : unit? [IsoClock.letter c.capital] = none := by cases c.capital <;> decide
  have hbeside : unitOf? ([IsoClock.letter c.capital] :: before)
      ([':'] :: paddedDigits c.time.minute 2 :: (c.secondsPieces ++ c.zone.pieces)) = none := by
    unfold unitOf?
    rw [List.head?_cons, List.head?_cons, Option.bind_some, Option.bind_some, hunit, hletter]
    cases c.capital <;> rfl
  have hread : (dateDraft d).readToken currentYear ([IsoClock.letter c.capital] :: before) (paddedDigits c.time.hour 2)
      ([':'] :: paddedDigits c.time.minute 2 :: (c.secondsPieces ++ c.zone.pieces)) =
      .ok (c.addTimeTo (dateDraft d), 2 + c.secondsPieces.length) := by
    rw [Draft.readToken, hhour.number, ← setClock_pieces]
    simp only [Draft.readNumber, Draft.awaitsClock, hhour.length, hbeside, Decimal.floor_whole]
    rfl
  have hskip := readFrom_append currentYear (c.addTimeTo (dateDraft d))
    (paddedDigits c.time.hour 2 :: [IsoClock.letter c.capital] :: before)
    ([':'] :: paddedDigits c.time.minute 2 :: c.secondsPieces) c.zone.pieces
  have hlength : ([':'] :: paddedDigits c.time.minute 2 :: c.secondsPieces).length = 2 + c.secondsPieces.length := by
    simp only [List.length_cons]
    omega
  rw [hlength] at hskip
  rw [IsoClock.pieces, readFrom_cons currentYear (readToken_letter currentYear _ _ _ _), readFrom_cons currentYear hread]
  refine hskip.trans (readFrom_zone currentYear c.zone ?_ ?_ ?_ ?_ _)
  all_goals
    unfold IsoClock.addTimeTo
    cases c.fineness <;> rfl

/-- The pieces of a date in this form tell the date and what stands after it, and nothing else. -/
theorem IsoDate.draftOf_text (f : IsoDate) : draftOf currentYear f.text = .ok f.draft := by
  have hskip := readFrom_append currentYear (dateDraft f.date) [paddedDigits f.date.year 4]
    [['-'], paddedDigits f.date.month 2, ['-'], paddedDigits f.date.day 2] (f.clock.elim [] IsoClock.pieces)
  rw [draftOf, f.tokens_text]
  refine (readFrom_cons currentYear (readToken_year currentYear f.date _)).trans (hskip.trans ?_)
  unfold draft
  cases f.clock with
  | none => rfl
  | some c => exact readFrom_clock currentYear c f.date _

end Reading

/-! ## Times -/

theorem date_addTo (z : ZoneMark) (d : Draft) : (z.addTo d).date = d.date := by
  cases z <;> rfl

theorem numbers_addTo (z : ZoneMark) (d : Draft) : (z.addTo d).numbers = d.numbers := by
  cases z <;> rfl

theorem timeOfDay_addTo (z : ZoneMark) (d : Draft) : (z.addTo d).timeOfDay = d.timeOfDay := by
  cases z <;> rfl

theorem date_addTimeTo (c : IsoClock) (d : Draft) : (c.addTimeTo d).date = d.date := by
  unfold IsoClock.addTimeTo
  cases c.fineness <;> rfl

theorem numbers_addTimeTo (c : IsoClock) (d : Draft) : (c.addTimeTo d).numbers = d.numbers := by
  unfold IsoClock.addTimeTo
  cases c.fineness <;> rfl

theorem timeOfDay_addTimeTo (c : IsoClock) (d : Date) :
    (c.addTimeTo (dateDraft d)).timeOfDay = .ok c.shown := by
  have hvalid := c.isValid_shown
  unfold IsoClock.addTimeTo
  unfold IsoClock.shown at hvalid ⊢
  cases hfineness : c.fineness <;> rw [hfineness] at hvalid <;> exact if_pos hvalid

theorem date_dateDraft (d : Date) (currentYear : Nat) (fallback : Date) :
    (dateDraft d).date currentYear fallback = .ok d := by
  have hparts : (dateDraft d).parts = .ok (some d.year, some d.month, some d.day) := by
    simp [Draft.parts, dateDraft]
  rw [Draft.date, hparts, ok_bind]
  simp only [dateDraft, Option.map_some, Option.getD_some, if_true, Date.of?_parts]
  rfl

def zoneOfSeconds (zone : Zone) : Option Int → WrittenZone
  | none => .none
  | some seconds =>
    if seconds = 0 then if zone.names.contains "UTC" then .local "UTC" else .universal else .offset seconds ""

theorem zoneOf_addTo (zone : Zone) (z : ZoneMark) {d : Draft} (hname : d.zoneName = none) (hoffset : d.offset = none) :
    zoneOf zone (z.addTo d) = zoneOfSeconds zone z.seconds? := by
  cases z with
  | omitted => simp [zoneOf, ZoneMark.addTo, hname, hoffset, ZoneMark.seconds?, zoneOfSeconds]
  | universal capital =>
    cases capital
    · simp [zoneOf, ZoneMark.addTo, ZoneMark.letter, ZoneMark.seconds?, zoneOfSeconds]
    · simp [zoneOf, ZoneMark.addTo, ZoneMark.letter, ZoneMark.seconds?, zoneOfSeconds]
  | offset ahead hours minutes =>
    unfold zoneOf ZoneMark.addTo
    dsimp only
    obtain ⟨seconds, hseconds⟩ : ∃ seconds, (ZoneMark.offset ahead hours minutes).seconds? = some seconds := ⟨_, rfl⟩
    rw [hname, hseconds]
    by_cases hzero : seconds = 0
    · simp [zoneOfSeconds, hzero]
    · simp [zoneOfSeconds, hzero]

namespace IsoDate

variable (f : IsoDate)

theorem draft_date (currentYear : Nat) (fallback : Date) : f.draft.date currentYear fallback = .ok f.date := by
  unfold draft IsoClock.addTo
  cases f.clock with
  | none => exact date_dateDraft _ _ _
  | some c =>
    rw [Option.elim_some, date_addTo, date_addTimeTo]
    exact date_dateDraft _ _ _

theorem draft_timeOfDay : f.draft.timeOfDay = .ok (f.clock.elim {} IsoClock.shown) := by
  unfold draft IsoClock.addTo
  cases f.clock with
  | none => rfl
  | some c => rw [Option.elim_some, timeOfDay_addTo, timeOfDay_addTimeTo, Option.elim_some]

theorem zoneOf_draft (zone : Zone) : zoneOf zone f.draft = zoneOfSeconds zone f.seconds? := by
  unfold draft IsoClock.addTo seconds?
  cases f.clock with
  | none => rfl
  | some c =>
    rw [Option.elim_some, Option.bind_some]
    refine zoneOf_addTo zone c.zone ?_ ?_
    all_goals
      unfold IsoClock.addTimeTo
      cases c.fineness <;> rfl

/-- The time that is written lies on the date that is written. -/
theorem date?_wall : f.wall.date? = some f.date := by
  have hvalid : (f.clock.elim {} IsoClock.shown).isValid = true := by
    cases f.clock with
    | none => rfl
    | some c => exact c.isValid_shown
  simp only [TimeOfDay.isValid, Bool.and_eq_true, decide_eq_true_eq] at hvalid
  rw [date?_eq_some_iff]
  simp only [wall, WallTime.on, TimeOfDay.micros, microsPerDay, microsPerSecond]
  omega

theorem timestamp_wall (zone : Zone) :
    f.timestamp zone = .floating f.wall ∨ ∃ m : Moment, f.timestamp zone = .fixed m ∧ m.wall = f.wall := by
  unfold timestamp
  cases f.seconds? with
  | none => exact .inl rfl
  | some seconds => exact .inr ⟨_, rfl, rfl⟩

theorem isEmpty_draft : f.draft.isEmpty = false := by
  have hnumbers : f.draft.numbers.isEmpty = false := by
    unfold draft IsoClock.addTo
    cases f.clock with
    | none => rfl
    | some c =>
      rw [Option.elim_some, numbers_addTo, numbers_addTimeTo]
      rfl
  simp [Draft.isEmpty, hnumbers]

/-- No offset of four digits is too long. -/
theorem natAbs_seconds_le {f : IsoDate} {seconds : Int} (h : f.seconds? = some seconds) :
    seconds.natAbs ≤ longestOffset := by
  obtain ⟨c, -, hc⟩ := Option.bind_eq_some_iff.1 h
  cases hzone : c.zone with
  | omitted =>
    rw [hzone] at hc
    cases hc
  | universal capital =>
    rw [hzone] at hc
    cases hc
    decide
  | offset ahead hours minutes =>
    have hhours := hours.isLt
    have hminutes := minutes.isLt
    rw [hzone] at hc
    cases hc
    simp only [longestOffset]
    split <;> omega

end IsoDate

/-- A date in this form is read as it is written, whatever the current time is. -/
theorem read_isoDate {clock : Clock} (h : clock.zone.KeepsUniversalName) (fallback : Date) (f : IsoDate) :
    read clock fallback f.text = .ok (f.timestamp clock.zone) := by
  unfold read
  simp only [f.draftOf_text, f.isEmpty_draft, f.draft_date, f.draft_timeOfDay, f.zoneOf_draft, ok_bind, Bool.false_eq_true,
    if_false]
  unfold IsoDate.timestamp
  cases hseconds : f.seconds? with
  | none => rfl
  | some seconds =>
    by_cases hzero : seconds = 0
    · rw [hzero]
      by_cases hutc : clock.zone = .utc
      · rw [hutc]
        rfl
      · have hname : ¬ clock.zone.names.contains "UTC" = true := fun hname => hutc (h (List.contains_iff_mem.1 hname))
        rw [zoneOfSeconds, if_pos rfl, if_neg hname]
        simp only [hutc, and_false, if_false]
        rfl
    · have hbound := IsoDate.natAbs_seconds_le hseconds
      simp only [zoneOfSeconds, hzero, if_false, if_pos hbound, false_and]
      rfl

end SearchBox.Calendar.Written

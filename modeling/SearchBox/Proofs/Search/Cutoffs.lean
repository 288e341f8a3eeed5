import SearchBox.Proofs.Calendar.DaySpan
import SearchBox.Proofs.Search.Combined
import SearchBox.Proofs.Search.Created
import SearchBox.Proofs.Settings.Accepted

/-!
  SearchBox.Proofs.Search.Cutoffs — the earliest moments that words for dates accept. A word reaches
  some days back from today, and every day but the calendar's first one has a start
  (`exists_midnight?_iff`). So a word of accepted settings has a cutoff just if it does not reach back
  to that day or beyond it, and then its gate answers for every record (`cutoff_of_settings`);
  settings may define words that reach farther (`cutoff_off_calendar`). Where a change moves the
  clock by less than a day, days start in their order (`midnight_isBefore_midnight`), so that of two words
  the one that reaches back farther accepts all that the other one does (`cutoffs_ordered`).
-/

namespace SearchBox.Calendar

/-! ## Starts of days -/

/-- All days of a regular zone have a start but the calendar's first one. -/
theorem exists_midnight?_iff {zone : Zone} (h : zone.IsRegular) {d : Date} :
    (∃ m, zone.midnight? d = .ok m) ↔ 0 < d.dayNumber := by
  have hlt := d.dayNumber_lt
  have hlast := h.offsetAt calendarSeconds
  show (∃ m, zone.localMoment? (WallTime.midnight d) = .ok m) ↔ _
  rw [Zone.exists_localMoment?_iff h, Zone.Reaches, midnight_seconds]
  simp only [IsUsual, Date.midnightSeconds, calendarSeconds, secondsPerDay, calendarDays] at *
  omega

/-- A zone with offsets of less than a day, and less than a day apart. -/
structure Zone.HasSmallShifts (zone : Zone) : Prop where
  standard : IsUsual zone.standard.offset
  daylight : ∀ d ∈ zone.daylight, IsUsual d.period.offset ∧ IsUsual (d.period.offset - zone.standard.offset)

instance (zone : Zone) : Decidable zone.HasSmallShifts :=
  decidable_of_iff (IsUsual zone.standard.offset ∧
      ∀ d ∈ zone.daylight, IsUsual d.period.offset ∧ IsUsual (d.period.offset - zone.standard.offset))
    ⟨fun h => ⟨h.1, h.2⟩, fun h => ⟨h.standard, h.daylight⟩⟩

theorem usualZones_hasSmallShifts : ∀ text ∈ usualZones, (Zone.read? text).any (·.HasSmallShifts) = true := by
  decide +kernel

/-- One moment is before another, and comparing them tells so. -/
structure Moment.IsBefore (a b : Moment) : Prop where
  usable : a.offsetUsable = true ∧ b.offsetUsable = true
  instant : a.instant < b.instant

theorem Moment.IsBefore.atMost? {a b : Moment} (h : a.IsBefore b) : a.atMost? b = .ok true ∧ b.atMost? a = .ok false := by
  obtain ⟨ha, hb⟩ := h.usable
  have hinstant := h.instant
  rw [atMost?_eq_ok ha hb, atMost?_eq_ok hb ha, decide_eq_true (Int.le_of_lt hinstant), decide_eq_false (by omega)]
  exact ⟨rfl, rfl⟩

section SmallShifts

variable {zone : Zone} (h : zone.HasSmallShifts)
include h

theorem Zone.HasSmallShifts.offsetAt (s : Int) : IsUsual (zone.offsetAt s) := by
  rcases offsetAt_cases zone s with hs | ⟨d, hd, hs⟩
  · rw [hs]
    exact h.standard
  · rw [hs]
    exact (h.daylight d hd).1

theorem Zone.HasSmallShifts.offsetAt_sub (s t : Int) : IsUsual (zone.offsetAt s - zone.offsetAt t) := by
  have hzero : IsUsual 0 := by decide
  rcases offsetAt_cases zone s with hs | ⟨d, hd, hs⟩
  · rcases offsetAt_cases zone t with ht | ⟨e, he, ht⟩
    · rw [hs, ht, Int.sub_self]
      exact hzero
    · have := (h.daylight e he).2
      rw [hs, ht]
      unfold IsUsual at *
      omega
  · rcases offsetAt_cases zone t with ht | ⟨e, he, ht⟩
    · rw [hs, ht]
      exact (h.daylight d hd).2
    · cases hd.symm.trans he
      rw [hs, ht, Int.sub_self]
      exact hzero

/-- Days start in their order: the offsets that two midnights are read with differ by less than
    the day between them. -/
theorem midnight_isBefore_midnight {d e : Date} (hlt : d.dayNumber < e.dayNumber) {m n : Moment}
    (hm : zone.midnight? d = .ok m) (hn : zone.midnight? e = .ok n) : m.IsBefore n := by
  obtain ⟨hm, -, -, s, hs⟩ := Zone.localMoment?_eq_ok hm
  obtain ⟨hn, -, -, t, ht⟩ := Zone.localMoment?_eq_ok hn
  refine ⟨⟨offsetUsable_of_isUsual hs (h.offsetAt s), offsetUsable_of_isUsual ht (h.offsetAt t)⟩, ?_⟩
  obtain ⟨hlow, hhigh⟩ := h.offsetAt_sub (zone.instantOf (WallTime.midnight e).seconds)
    (zone.instantOf (WallTime.midnight d).seconds)
  have hdays : (d.dayNumber : Int) + 1 ≤ e.dayNumber := by omega
  rw [hm, hn]
  generalize zone.offsetAt _ = o at *
  generalize zone.offsetAt _ = p at *
  simp only [WallTime.midnight, WallTime.on, TimeOfDay.micros, microsPerDay, microsPerSecond, secondsPerDay] at *
  omega

end SmallShifts

/-- What compares with a moment whose offset can be computed with is of the same kind. -/
theorem offsetUsable_of_atMost? {a b : Moment} (ha : a.offsetUsable = true) {x : Bool} (h : a.atMost? b = .ok x) :
    b.offsetUsable = true := by
  unfold Moment.atMost? at h
  split at h
  · rename_i hsame
    simpa only [Moment.offsetUsable, hsame.1] using ha
  · split at h
    · rename_i husable
      exact ((Bool.and_eq_true _ _).mp husable).2
    · cases h

end SearchBox.Calendar

namespace SearchBox.Search

open SearchBox.Calendar SearchBox.Query SearchBox.Settings SearchBox.Text

/-! ## Cutoffs -/

theorem daysBefore_eq_ok_iff {day d : Date} {n : Int} :
    daysBefore day n = .ok d ↔ (d.dayNumber : Int) = day.dayNumber - n := by
  have hday := day.dayNumber_lt
  have hd := d.dayNumber_lt
  have hend : calendarDays = 3652059 := rfl
  have hgreatest : greatestDays = 999999999 := rfl
  unfold daysBefore
  dsimp only
  split
  · exact ⟨nofun, fun h => by omega⟩
  split
  · exact ⟨nofun, fun h => by omega⟩
  by_cases hneg : (day.dayNumber : Int) - n < 0
  · rw [if_pos hneg]
    exact ⟨nofun, fun h => by omega⟩
  · rw [if_neg hneg]
    have hnumber : Date.ofNumber? ((day.dayNumber : Int) - n).toNat = some d ↔ (d.dayNumber : Int) = day.dayNumber - n := by
      rw [Date.ofNumber?_eq_some_iff]
      omega
    rw [← hnumber]
    cases Date.ofNumber? ((day.dayNumber : Int) - n).toNat with
    | none => exact ⟨nofun, nofun⟩
    | some e => simp

section Cutoff

variable {m : Matcher} {word : String} {days : Int} {earliest : Moment}

/-- The cutoff of a word is the start of the day that it reaches back to. -/
theorem cutoff_eq_ok_iff (hdays : m.lexicon.dayOffset? word = some days) :
    m.cutoff word = .ok (some earliest) ↔ ∃ today start : Date, m.clock.zone.dateOf? m.clock.now = some today ∧
      (start.dayNumber : Int) = today.dayNumber - days ∧ m.clock.zone.midnight? start = .ok earliest := by
  simp only [Matcher.cutoff, hdays, Zone.dateOf?]
  constructor
  · intro h
    obtain ⟨here, hhere, h⟩ := bind_eq_ok.1 h
    rw [hhere]
    cases hdate : here.wall.date? with
    | none =>
      rw [hdate] at h
      cases h
    | some today =>
      rw [hdate] at h
      obtain ⟨start, hstart, h⟩ := bind_eq_ok.1 h
      obtain ⟨_, hmidnight, h⟩ := exists_of_map_eq_ok h
      cases h
      exact ⟨today, start, hdate, daysBefore_eq_ok_iff.1 hstart, hmidnight⟩
  · rintro ⟨today, start, htoday, hstart, hmidnight⟩
    cases hhere : m.clock.zone.relocate? m.clock.now with
    | error e =>
      rw [hhere] at htoday
      cases htoday
    | ok here =>
      rw [hhere] at htoday
      have hdate : here.wall.date? = some today := htoday
      rw [ok_bind, hdate]
      simp only [daysBefore_eq_ok_iff.2 hstart, ok_bind, hmidnight]
      rfl

/-- A word that does not reach into the future has a cutoff just if it does not reach back to the
    calendar's first day. -/
theorem exists_cutoff_iff (h : m.clock.zone.IsRegular) (hdays : m.lexicon.dayOffset? word = some days) (hpast : 0 ≤ days) :
    (∃ earliest, m.cutoff word = .ok (some earliest)) ↔
      ∃ today, m.clock.zone.dateOf? m.clock.now = some today ∧ days < today.dayNumber := by
  constructor
  · rintro ⟨earliest, hcutoff⟩
    obtain ⟨today, start, htoday, hstart, hmidnight⟩ := (cutoff_eq_ok_iff hdays).1 hcutoff
    have := (exists_midnight?_iff h).1 ⟨earliest, hmidnight⟩
    exact ⟨today, htoday, by omega⟩
  · rintro ⟨today, htoday, hlt⟩
    have hbound := today.dayNumber_lt
    obtain ⟨start, hstart⟩ := Date.exists_ofNumber? (show ((today.dayNumber : Int) - days).toNat < calendarDays by omega)
    rw [Date.ofNumber?_eq_some_iff] at hstart
    obtain ⟨earliest, hmidnight⟩ := (exists_midnight?_iff h).2 (show 0 < start.dayNumber by omega)
    exact ⟨earliest, (cutoff_eq_ok_iff hdays).2 ⟨today, start, htoday, by omega, hmidnight⟩⟩

/-- The gate for a word with a cutoff asks when the record was created. -/
theorem isSince_of_cutoff (hcutoff : m.cutoff word = .ok (some earliest)) {r : Record} {created : Option Moment}
    (hr : r.createdAt m.clock = .ok created) :
    m.isSince r word = created.elim (.ok false) fun c => (earliest.atMost? c).mapError .offCalendar := by
  unfold Matcher.isSince
  rw [hcutoff, hr]
  cases created <;> rfl

/-- A record passes the gate for a word with a cutoff if it was created there or later. -/
theorem isSince_eq_true_iff (hcutoff : m.cutoff word = .ok (some earliest)) (husable : earliest.offsetUsable = true)
    {r : Record} : m.isSince r word = .ok true ↔ ∃ created, r.createdAt m.clock = .ok (some created) ∧
      created.offsetUsable = true ∧ earliest.instant ≤ created.instant := by
  cases hr : r.createdAt m.clock with
  | error e =>
    unfold Matcher.isSince
    rw [hcutoff, hr]
    exact ⟨nofun, fun ⟨created, hcreated, _⟩ => by cases hcreated⟩
  | ok created =>
    rw [isSince_of_cutoff hcutoff hr]
    cases created with
    | none => exact ⟨nofun, fun ⟨created, hcreated, _⟩ => by cases hcreated⟩
    | some c =>
      rw [Option.elim_some, mapError_eq_ok]
      constructor
      · intro hle
        have hc := offsetUsable_of_atMost? husable hle
        rw [atMost?_eq_ok husable hc, Except.ok.injEq, decide_eq_true_eq] at hle
        exact ⟨c, rfl, hc, hle⟩
      · rintro ⟨_, hcreated, hc, hle⟩
        cases hcreated
        rw [atMost?_eq_ok husable hc, decide_eq_true hle]

end Cutoff

/-! ## Words of settings -/

/-- A word of settings reaches back the days that it is defined with. -/
theorem dayOffset?_of_settings {entries : Entries} {s : Settings} (hs : ofEntries entries = .ok s) {word : String}
    {days : Int} (hword : (word, days) ∈ s.lexicon.presets) : s.lexicon.dayOffset? word = some days ∧ 0 ≤ days := by
  have hlowered := ((isUsable_of_ofEntries hs).preset _ hword).1.1
  have hnodup : (s.lexicon.presets.map Prod.fst).Nodup := Table.nodup_keys_update (t := []) List.nodup_nil _
  obtain ⟨d, -, hd⟩ := bind_eq_ok.1 hs
  obtain ⟨u, hchecked, -⟩ := bind_eq_ok.1 (check_eq_ok hd).lexicon
  constructor
  · rw [Lexicon.dayOffset?, lowerText_of_isLowered hlowered]
    exact Table.lookup_of_mem hnodup hword
  · exact (of_checkPreset (forM_eq_ok hchecked _ hword)).2

/-- A word for a date that settings define has a cutoff, and its gate answers for every record with
    a sound time or none, just if the clock shows a day that is more days after the calendar's first
    one than the word reaches back. -/
theorem cutoff_of_settings {entries : Entries} {s : Settings} (hs : ofEntries entries = .ok s) {m : Matcher}
    (h : m.clock.zone.IsRegular) (hlexicon : m.lexicon = s.lexicon) {word : String} {days : Int}
    (hword : (word, days) ∈ s.lexicon.presets) :
    (∃ earliest, m.cutoff word = .ok (some earliest) ∧ earliest.IsSound ∧
      ∀ (f : Filter) (r : Record) (text : List Char) (created : Option Moment), f.preset? = some word →
        r.createdAt m.clock = .ok created → (∀ c ∈ created, c.IsSound) →
        m.passes f r text .since = .ok (created.any fun c => earliest.instant ≤ c.instant)) ↔
      ∃ today, m.clock.zone.dateOf? m.clock.now = some today ∧ days < today.dayNumber := by
  obtain ⟨hdays, hpast⟩ := dayOffset?_of_settings hs hword
  rw [← hlexicon] at hdays
  rw [← exists_cutoff_iff h hdays hpast]
  constructor
  · rintro ⟨earliest, hcutoff, -⟩
    exact ⟨earliest, hcutoff⟩
  · rintro ⟨earliest, hcutoff⟩
    have husable := offsetUsable_of_cutoff h hcutoff
    refine ⟨earliest, hcutoff, isSound_iff.2 husable, ?_⟩
    intro f r text created hpreset hcreated hsound
    rw [passes_since, hpreset, Option.elim_some, isSince_of_cutoff hcutoff hcreated]
    cases created with
    | none => rfl
    | some c =>
      rw [Option.elim_some, atMost?_eq_ok husable (isSound_iff.1 (hsound c rfl))]
      rfl

/-- In New York a word can reach back to the calendar's second day, whose start is the earliest one
    that there is. -/
theorem cutoff_of_settings_ever :
    let zone : Zone := ⟨⟨"EST", -18000⟩, some ⟨⟨"EDT", -14400⟩, ⟨3, 2, 0, 7200⟩, ⟨11, 1, 0, 7200⟩⟩⟩
    let clock : Clock := ⟨.universal (739051 * microsPerDay + microsPerDay / 2), zone⟩
    let entries : Entries := [(.text "log", .dict [(.text "level", .text "INFO"), (.text "to_file", .bool false)]),
      (.text "store", .dict [(.text "path", .text "items.json")]),
      (.text "vocabulary", .dict [(.text "date_presets", .dict [(.text "Ever", .int 739050)])])]
    clock.zone.IsRegular ∧ ∃ s, ofEntries entries = .ok s ∧ ("ever", 739050) ∈ s.lexicon.presets ∧
      let m := Matcher.standard clock s.lexicon Record.kind
      ∃ earliest, m.cutoff "ever" = .ok (some earliest) ∧ earliest.IsSound ∧
        m.passes { since := some "ever" } (.mapping []) [] .since = .ok false := by
  intro zone clock entries
  have hzone : clock.zone.IsRegular := by decide
  have hpresets : (ofEntries entries).toOption.map (fun s => s.lexicon.presets.contains ("ever", 739050)) = some true := by
    decide +kernel
  have htoday : (clock.zone.dateOf? clock.now).map (fun today => decide ((739050 : Int) < today.dayNumber)) = some true := by
    decide +kernel
  cases hs : ofEntries entries with
  | error e =>
    rw [hs] at hpresets
    cases hpresets
  | ok s =>
    rw [hs] at hpresets
    simp only [Except.toOption, Option.map_some, Option.some.injEq, List.contains_iff_mem] at hpresets
    obtain ⟨today, htoday, hlt⟩ := Option.map_eq_some_iff.1 htoday
    obtain ⟨earliest, hcutoff, hsound, hgate⟩ :=
      (cutoff_of_settings (m := Matcher.standard clock s.lexicon Record.kind) hs hzone rfl hpresets).2
        ⟨today, htoday, of_decide_eq_true hlt⟩
    have hpasses := hgate { since := some "ever" } (.mapping []) [] none rfl rfl (by simp)
    exact ⟨hzone, s, rfl, hpresets, earliest, hcutoff, hsound, hpasses⟩

/-- Settings may define words that reach back beyond the calendar, or farther than days can be
    counted. Their gates fail even for a record that is created now. -/
theorem cutoff_off_calendar :
    let clock : Clock := ⟨.universal (739051 * microsPerDay + microsPerDay / 2), .utc⟩
    let entries : Entries := [(.text "log", .dict [(.text "level", .text "INFO"), (.text "to_file", .bool false)]),
      (.text "store", .dict [(.text "path", .text "items.json")]),
      (.text "vocabulary", .dict [(.text "date_presets", .dict [(.text "ages", .int 1000000),
        (.text "aeons", .int 1000000000000)])])]
    let r : Record := .mapping [(.text "createdAt", .text "2024-06-15T12:00:00+00:00")]
    (ofEntries entries).toOption.map (fun s =>
      let m := Matcher.standard clock s.lexicon Record.kind
      (m.cutoff "ages", m.cutoff "aeons", m.explain { since := some "ages" } r)) =
      some (.error .dateOutside, .error .daysTooLarge, .error (.offCalendar .dateOutside)) ∧
      r.createdAt clock = .ok (some ⟨clock.now.wall, 0, "UTC"⟩) := by
  decide +kernel

/-! ## Order of cutoffs -/

section Order

variable {m : Matcher} (h : m.clock.zone.HasSmallShifts) {near far : String} {k n : Int} {a b : Moment}
  (hnear : m.lexicon.dayOffset? near = some k) (hfar : m.lexicon.dayOffset? far = some n) (hlt : k < n)
  (ha : m.cutoff near = .ok (some a)) (hb : m.cutoff far = .ok (some b))
include h hnear hfar hlt ha hb

/-- Of two words the one that reaches back farther has the earlier cutoff. -/
theorem cutoff_lt_cutoff : b.IsBefore a := by
  obtain ⟨today, start, htoday, hstart, hmidnight⟩ := (cutoff_eq_ok_iff hnear).1 ha
  obtain ⟨_, earlier, htoday', hearlier, hmidnight'⟩ := (cutoff_eq_ok_iff hfar).1 hb
  cases htoday.symm.trans htoday'
  exact midnight_isBefore_midnight h (show earlier.dayNumber < start.dayNumber by omega) hmidnight' hmidnight

/-- What passes the gate for a word passes that for a word that reaches back farther. -/
theorem isSince_of_isSince {r : Record} (hr : m.isSince r near = .ok true) : m.isSince r far = .ok true := by
  have hbefore := cutoff_lt_cutoff h hnear hfar hlt ha hb
  obtain ⟨created, hcreated, husable, hle⟩ := (isSince_eq_true_iff ha hbefore.usable.2).1 hr
  have hle' : b.instant ≤ created.instant := Int.le_trans (Int.le_of_lt hbefore.instant) hle
  exact (isSince_eq_true_iff hb hbefore.usable.1).2 ⟨created, hcreated, husable, hle'⟩

end Order

/-- Of two words with cutoffs the one that reaches back farther has the earlier one, and accepts each
    record that the other one accepts. Days start in their order, whatever the changes of the clock. -/
theorem cutoffs_ordered (m : Matcher) (h : m.clock.zone.HasSmallShifts) :
    (∀ (near far : String) (k n : Int) (a b : Moment), m.lexicon.dayOffset? near = some k →
      m.lexicon.dayOffset? far = some n → k < n → m.cutoff near = .ok (some a) → m.cutoff far = .ok (some b) →
      b.IsBefore a ∧ ∀ (f g : Filter) (r : Record) (text : List Char), f.preset? = some near → g.preset? = some far →
        m.passes f r text .since = .ok true → m.passes g r text .since = .ok true) ∧
    ∀ (d e : Date) (a b : Moment), d.dayNumber < e.dayNumber → m.clock.zone.midnight? d = .ok a →
      m.clock.zone.midnight? e = .ok b → a.IsBefore b := by
  constructor
  · intro near far k n a b hnear hfar hlt ha hb
    refine ⟨cutoff_lt_cutoff h hnear hfar hlt ha hb, ?_⟩
    intro f g r text hf hg hpasses
    rw [passes_since, hf] at hpasses
    rw [passes_since, hg]
    exact isSince_of_isSince h hnear hfar hlt ha hb hpasses
  · intro d e a b hlt ha hb
    exact midnight_isBefore_midnight h hlt ha hb

/-- On a day whose midnight the clock leaps over, the word for it reaches an hour into the day
    before. -/
theorem cutoffs_ordered_skipped_midnight :
    let zone : Zone := ⟨⟨"-03", -10800⟩, some ⟨⟨"-02", -7200⟩, ⟨10, 3, 0, 0⟩, ⟨2, 3, 0, 0⟩⟩⟩
    let day : Date := ⟨2024, 10, 20, by decide⟩
    let dayBefore : Date := ⟨2024, 10, 19, by decide⟩
    let m := Matcher.standard ⟨.universal (WallTime.on day { hour := 12 }).micros, zone⟩ .builtin Record.kind
    let r : Record := .mapping [(.text "createdAt", .text "2024-10-20T03:00:00+00:00")]
    let start : Moment := ⟨WallTime.on dayBefore { hour := 23 }, -10800 * microsPerSecond, "-03"⟩
    let startBefore : Moment := ⟨WallTime.midnight dayBefore, -10800 * microsPerSecond, "-03"⟩
    m.clock.zone.HasSmallShifts ∧ m.cutoff "today" = .ok (some start) ∧ m.cutoff "yesterday" = .ok (some startBefore) ∧
      startBefore.IsBefore start ∧ m.passes { since := some "today" } r [] .since = .ok true ∧
      m.passes { since := some "yesterday" } r [] .since = .ok true := by
  intro zone day dayBefore m r start startBefore
  have hzone : m.clock.zone.HasSmallShifts := by decide
  have hstart : m.cutoff "today" = .ok (some start) := by decide +kernel
  have hstartBefore : m.cutoff "yesterday" = .ok (some startBefore) := by decide +kernel
  have hpasses : m.passes { since := some "today" } r [] .since = .ok true := by decide +kernel
  obtain ⟨hwords, -⟩ := cutoffs_ordered m hzone
  obtain ⟨hbefore, hgate⟩ := hwords "today" "yesterday" 0 1 start startBefore (by decide +kernel) (by decide +kernel)
    (by decide) hstart hstartBefore
  have hfar := hgate { since := some "today" } { since := some "yesterday" } r [] rfl rfl hpasses
  exact ⟨hzone, hstart, hstartBefore, hbefore, hpasses, hfar⟩

end SearchBox.Search

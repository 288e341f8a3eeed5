import SearchBox.Proofs.Calendar.LocalMoment
import SearchBox.Proofs.Calendar.Written
import SearchBox.Proofs.Search.Beside
import SearchBox.Store

/-!
  SearchBox.Proofs.Search.Created — creation times that nothing fails on. A moment can be written
  and compared with all others as long as its offset is less than a day (`isSound_iff`), so
  a record's creation time is sound unless it is a local time without an instant, a text with too
  long an offset, or one with a number too long to be divided (`momentOf_sound`). With sound times
  records become items, are put in order and pass the gates for dates (`created_soundly`); each
  of the three exceptions occurs (`created_unsoundly`).
-/

namespace SearchBox.Calendar

/-- A moment that has a text and compares with every moment whose offset can be computed with. -/
structure Moment.IsSound (m : Moment) : Prop where
  text : ∃ s, m.text? = .ok s
  atMost : ∀ n : Moment, n.offsetUsable = true → (∃ b, m.atMost? n = .ok b) ∧ ∃ b, n.atMost? m = .ok b

theorem isSound_iff {m : Moment} : m.IsSound ↔ m.offsetUsable = true := by
  constructor
  · rintro ⟨⟨s, hs⟩, -⟩
    unfold Moment.text? at hs
    split at hs
    · assumption
    · cases hs
  · intro hm
    refine ⟨⟨_, by rw [Moment.text?, if_pos hm]⟩, fun n hn => ⟨⟨_, atMost?_eq_ok hm hn⟩, _, atMost?_eq_ok hn hm⟩⟩

theorem offsetUsable_of_localMoment? {zone : Zone} (h : zone.IsRegular) {w : WallTime} {m : Moment}
    (hm : zone.localMoment? w = .ok m) : m.offsetUsable = true := by
  obtain ⟨-, -, -, s, hs⟩ := Zone.localMoment?_eq_ok hm
  exact offsetUsable_of_isUsual hs (h.offsetAt s)

end SearchBox.Calendar

namespace SearchBox

open SearchBox.Calendar SearchBox.Number SearchBox.Text

/-! ## Values that give a time -/

/-- A moment whose offset can be computed with, or a local time that has an instant. -/
def Timestamp.IsSound (zone : Zone) : Timestamp → Prop
  | .fixed m => m.offsetUsable = true
  | .floating w => zone.Reaches w

/-- A value that gives a sound moment or none: a text is no date, or one without a number too
    long to be divided and with a sound time. -/
def Value.GivesSoundTime (clock : Clock) : Value → Prop
  | .scalar (.time t) => t.IsSound clock.zone
  | .text s => isBlankText s.toList = false → ∀ today ∈ clock.today?,
      Written.Divides (Written.read clock today s.toList) ∧
        ∀ t, Written.read clock today s.toList = .ok t → t.IsSound clock.zone
  | _ => True

section Moments

variable {clock : Clock} (h : clock.zone.IsRegular)
include h

theorem momentOfTime_sound {t : Timestamp} :
    (∃ m, momentOfTime clock.zone t = .ok m ∧ m.IsSound) ↔ t.IsSound clock.zone := by
  cases t with
  | fixed m =>
    rw [Timestamp.IsSound, ← isSound_iff]
    exact ⟨fun ⟨n, hn, hs⟩ => by cases hn; exact hs, fun hs => ⟨m, rfl, hs⟩⟩
  | floating w =>
    rw [Timestamp.IsSound, ← Zone.exists_localMoment?_iff h]
    refine exists_congr fun m => ?_
    show (clock.zone.localMoment? w).mapError _ = _ ∧ _ ↔ _
    rw [mapError_eq_ok]
    exact ⟨And.left, fun hm => ⟨hm, isSound_iff.2 (offsetUsable_of_localMoment? h hm)⟩⟩

omit h in
theorem isSound_of_momentOfSeconds? {x : Binary64} {m : Moment} (hm : momentOfSeconds? x = some m) : m.IsSound := by
  unfold momentOfSeconds? at hm
  split at hm
  · obtain ⟨-, hm⟩ := Option.ite_none_right_eq_some.1 hm
    cases hm
    exact isSound_iff.2 rfl
  · cases hm

theorem momentOf_time_sound {t : Timestamp} :
    (∃ m, momentOf clock (.scalar (.time t)) = .ok m ∧ ∀ n ∈ m, n.IsSound) ↔ t.IsSound clock.zone := by
  show (∃ m, some <$> momentOfTime clock.zone t = .ok m ∧ ∀ n ∈ m, n.IsSound) ↔ _
  rw [← momentOfTime_sound h]
  cases momentOfTime clock.zone t with
  | error e => exact ⟨fun ⟨m, hm, _⟩ => (by cases hm), fun ⟨m, hm, _⟩ => (by cases hm)⟩
  | ok m =>
    exact ⟨fun ⟨n, hn, hs⟩ => by cases hn; exact ⟨m, rfl, hs m rfl⟩,
      fun ⟨n, hn, hs⟩ => ⟨some m, rfl, fun k hk => by cases hn; cases hk; exact hs⟩⟩

omit h in
theorem sound_none {x : Except InstantError (Option Moment)} (hx : x = .ok none) :
    ∃ t, x = .ok t ∧ ∀ m ∈ t, m.IsSound :=
  ⟨none, hx, fun m hm => by cases hm⟩

theorem momentOf_text_sound {s : String} :
    (∃ t, momentOf clock (.text s) = .ok t ∧ ∀ m ∈ t, m.IsSound) ↔ (Value.text s).GivesSoundTime clock := by
  unfold momentOf Value.GivesSoundTime
  dsimp only
  cases isBlankText s.toList with
  | true => exact ⟨fun _ hfalse => (by cases hfalse), fun _ => sound_none rfl⟩
  | false =>
    rw [if_neg Bool.false_ne_true]
    cases clock.today? with
    | none => exact ⟨fun _ _ today ht => (by cases ht), fun _ => sound_none rfl⟩
    | some today =>
      simp only [forall_const, Option.mem_def, Option.some.injEq, forall_eq']
      unfold Written.Divides
      cases Written.read clock today s.toList with
      | error e =>
        cases e with
        | unreadable => exact ⟨fun _ => ⟨nofun, nofun⟩, fun _ => sound_none rfl⟩
        | numberTooLong => exact ⟨fun ⟨t, ht, _⟩ => (by cases ht), fun hs => absurd rfl hs.1⟩
      | ok t =>
        refine (momentOf_time_sound h).trans ⟨fun hs => ⟨nofun, fun u hu => ?_⟩, fun hs => hs.2 t rfl⟩
        cases hu
        exact hs

/-- What comes of a value as a time, and whether it is sound. -/
theorem momentOf_sound {v : Value} :
    (∃ t, momentOf clock v = .ok t ∧ ∀ m ∈ t, m.IsSound) ↔ v.GivesSoundTime clock := by
  have hnumber : ∀ x, ∃ t, (.ok (momentOfSeconds? x) : Except InstantError (Option Moment)) = .ok t ∧
      ∀ m ∈ t, m.IsSound := fun x => ⟨_, rfl, fun m hm => isSound_of_momentOfSeconds? hm⟩
  cases v with
  | scalar x =>
    cases x with
    | time t => exact momentOf_time_sound h
    | int n => exact ⟨fun _ => trivial, fun _ => hnumber _⟩
    | float x => exact ⟨fun _ => trivial, fun _ => hnumber _⟩
    | text s => exact momentOf_text_sound h
    | _ => exact ⟨fun _ => trivial, fun _ => sound_none rfl⟩
  | _ => exact ⟨fun _ => trivial, fun _ => sound_none rfl⟩

end Moments

/-! ## Records with sound times -/

/-- The creation time of a record is computed, and is sound if there is one. -/
def Record.HasSoundTime (clock : Clock) (r : Record) : Prop :=
  ∃ t, r.createdAt clock = .ok t ∧ ∀ m ∈ t, m.IsSound

theorem Record.hasSoundTime_iff {clock : Clock} {r : Record} :
    r.HasSoundTime clock ↔ (r.createdAt clock).toOption.any (·.all (·.offsetUsable)) = true := by
  unfold Record.HasSoundTime
  cases r.createdAt clock with
  | error e => exact ⟨fun ⟨t, ht, _⟩ => (by cases ht), fun hfalse => by cases hfalse⟩
  | ok t =>
    cases t with
    | none => exact ⟨fun _ => rfl, fun _ => ⟨none, rfl, fun m hm => by cases hm⟩⟩
    | some m =>
      exact ⟨fun ⟨t, ht, hs⟩ => by cases ht; exact isSound_iff.1 (hs m rfl),
        fun hm => ⟨some m, rfl, fun n hn => by cases hn; exact isSound_iff.2 hm⟩⟩

instance (clock : Clock) (r : Record) : Decidable (r.HasSoundTime clock) :=
  decidable_of_iff _ Record.hasSoundTime_iff.symm

/-- A mapping with a sound time makes an item unless its identifier cannot be written. -/
theorem Item.ofEntries_eq_error {clock : Clock} {es : Entries} (hes : (Record.mapping es).HasSoundTime clock)
    {e : ItemError} (he : Item.ofEntries clock es = .error e) : Item.idOf (Entries.getOrNull es "id") = .error e := by
  obtain ⟨t, ht, -⟩ := hes
  unfold Item.ofEntries at he
  rw [ht] at he
  cases hid : Item.idOf (Entries.getOrNull es "id") with
  | error e' =>
    rw [hid] at he
    cases he
    rfl
  | ok id =>
    rw [hid] at he
    cases he

end SearchBox

namespace SearchBox.Search

open SearchBox.Calendar SearchBox.Query SearchBox.Text

variable {clock : Clock}

theorem exists_timed {records : List Record} (h : ∀ r ∈ records, r.HasSoundTime clock) :
    ∃ timed, (records.mapM fun r => do return (← Record.createdAt clock r, r)) = .ok timed ∧
      ∀ e ∈ timed, ∀ m ∈ e.1, m.IsSound := by
  induction records with
  | nil => exact ⟨[], rfl, fun e he => by cases he⟩
  | cons r records ih =>
    obtain ⟨⟨t, ht, hs⟩, hrest⟩ := List.forall_mem_cons.1 h
    obtain ⟨timed, htimed, hsound⟩ := ih hrest
    exact ⟨(t, r) :: timed, by rw [List.mapM_cons, ht, htimed]; rfl, List.forall_mem_cons.2 ⟨hs, hsound⟩⟩

theorem exists_arrange (order : Order) {records : List Record} (h : ∀ r ∈ records, r.HasSoundTime clock) :
    ∃ ordered, arrange (Record.createdAt clock) order records = .ok ordered := by
  by_cases horder : order = .store
  · exact ⟨records, by rw [arrange, if_pos horder]⟩
  · obtain ⟨timed, htimed, hsound⟩ := exists_timed h
    have hcomparable : areComparable ((timed.filterMap fun e => e.1.map (·, e.2)).map (·.1)) = true := by
      have husable : ∀ m ∈ (timed.filterMap fun e => e.1.map (·, e.2)).map (·.1), m.offsetUsable = true := by
        intro m hm
        obtain ⟨⟨n, r⟩, hn, rfl⟩ := List.mem_map.1 hm
        obtain ⟨e, he, hmap⟩ := List.mem_filterMap.1 hn
        obtain ⟨k, hk, heq⟩ := Option.map_eq_some_iff.1 hmap
        cases heq
        exact isSound_iff.1 (hsound e he _ hk)
      generalize (timed.filterMap fun e => e.1.map (·, e.2)).map (·.1) = moments at husable ⊢
      cases moments with
      | nil => rfl
      | cons m ms =>
        rw [areComparable, Bool.or_eq_true]
        exact .inl (List.all_eq_true.2 husable)
    exact ⟨_, by rw [arrange_of_ne_store horder htimed, if_pos hcomparable]⟩

/-! ## Gates -/

section Gates

variable {m : Matcher} {f : Filter} {r : Record} {e : MatchError}

theorem firstFailing_eq_error {text : List Char} {gates : List Gate} (h : m.firstFailing f r text gates = .error e) :
    ∃ g ∈ gates, m.passes f r text g = .error e := by
  induction gates with
  | nil => cases h
  | cons g later ih =>
    rw [Matcher.firstFailing] at h
    cases hg : m.passes f r text g with
    | error e' =>
      rw [hg] at h
      cases h
      exact ⟨g, List.mem_cons_self, hg⟩
    | ok b =>
      rw [hg] at h
      cases b with
      | false => cases h
      | true =>
        obtain ⟨g', hg', he⟩ := ih h
        exact ⟨g', List.mem_cons_of_mem _ hg', he⟩

theorem offsetUsable_of_cutoff (h : m.clock.zone.IsRegular) {word : String} {earliest : Moment}
    (hcutoff : m.cutoff word = .ok (some earliest)) : earliest.offsetUsable = true := by
  unfold Matcher.cutoff at hcutoff
  split at hcutoff
  · cases hcutoff
  · obtain ⟨here, -, hcutoff⟩ := bind_eq_ok.1 hcutoff
    split at hcutoff
    · cases hcutoff
    · obtain ⟨start, -, hcutoff⟩ := bind_eq_ok.1 hcutoff
      cases hmidnight : m.clock.zone.midnight? start with
      | error cause =>
        rw [hmidnight] at hcutoff
        cases hcutoff
      | ok midnight =>
        rw [hmidnight] at hcutoff
        cases hcutoff
        exact offsetUsable_of_localMoment? h hmidnight

theorem isSince_eq_error (h : m.clock.zone.IsRegular) (hr : r.HasSoundTime m.clock) {word : String}
    (he : m.isSince r word = .error e) : ∃ cause, m.cutoff word = .error cause ∧ e = .offCalendar cause := by
  obtain ⟨t, ht, hsound⟩ := hr
  unfold Matcher.isSince at he
  rw [ht] at he
  cases hcutoff : m.cutoff word with
  | error cause =>
    rw [hcutoff] at he
    cases he
    exact ⟨cause, rfl, rfl⟩
  | ok earliest =>
    rw [hcutoff] at he
    cases earliest with
    | none => cases he
    | some earliest =>
      cases t with
      | none => cases he
      | some created =>
        obtain ⟨-, b, hb⟩ := (hsound created rfl).atMost earliest (offsetUsable_of_cutoff h hcutoff)
        have he' : (earliest.atMost? created).mapError MatchError.offCalendar = .error e := he
        rw [hb] at he'
        cases he'

theorem isWithin_total (hr : r.HasSoundTime m.clock) {span : DaySpan} (hfirst : span.first.offsetUsable = true)
    (hlast : span.last.offsetUsable = true) : ∃ b, m.isWithin r span = .ok b := by
  obtain ⟨t, ht, hsound⟩ := hr
  unfold Matcher.isWithin
  rw [ht]
  cases t with
  | none => exact ⟨false, rfl⟩
  | some created =>
    obtain ⟨-, b, hb⟩ := (hsound created rfl).atMost span.first hfirst
    obtain ⟨⟨c, hc⟩, -⟩ := (hsound created rfl).atMost span.last hlast
    have hcontains : ∃ d, span.contains created = .ok d := by
      unfold DaySpan.contains
      rw [hb]
      cases b with
      | false => exact ⟨false, rfl⟩
      | true => exact ⟨c, hc⟩
    obtain ⟨d, hd⟩ := hcontains
    refine ⟨d, ?_⟩
    show (span.contains created).mapError MatchError.offCalendar = .ok d
    rw [hd]
    rfl

/-- That a field cannot be written. -/
def MatchError.IsNoText (e : MatchError) : Prop :=
  ∃ cause, e = .noText cause

theorem failsWith_lowerField (r : Record) (field : Record.Field) : FailsWith MatchError.IsNoText (lowerField r field) :=
  .mapError fun cause _ => ⟨cause, rfl⟩

/-- With a sound time, only a field's text, the record's type and the day that a preset means can be
    unknown. -/
theorem explain_eq_error (h : m.clock.zone.IsRegular) (hr : r.HasSoundTime m.clock)
    (hday : ∀ span ∈ f.day, span.first.offsetUsable = true ∧ span.last.offsetUsable = true)
    (he : m.explain f r = .error e) :
    e.IsNoText ∨ m.kind r = .error e ∨
      ∃ word cause, f.preset? = some word ∧ m.cutoff word = .error cause ∧ e = .offCalendar cause := by
  by_cases hsearch : r.IsSearchable
  · rw [explain_of_isSearchable hsearch] at he
    obtain ⟨g, -, hg⟩ := firstFailing_eq_error he
    cases g with
    | type =>
      have hkind : FailsWith (fun e => m.kind r = .error e) (m.kind r) := fun _ => id
      exact .inr (.inl (failsWith_anyOf (hkind.bind fun _ _ => failsWith_ok _) e hg))
    | site | format =>
      exact .inl (failsWith_anyOf ((failsWith_lowerField r .url).bind fun _ _ => failsWith_ok _) e hg)
    | object =>
      refine .inl (failsWith_anyOf ?_ e hg)
      refine (failsWith_lowerField r .notes).bind fun _ _ => ?_
      exact (failsWith_lowerField r .description).bind fun _ _ => failsWith_ok _
    | text =>
      refine .inl (failsWith_anyOf ?_ e hg)
      refine (failsWith_lowerField r .notes).bind fun _ _ => ?_
      refine (failsWith_lowerField r .description).bind fun _ _ => ?_
      exact (failsWith_lowerField r .content).bind fun _ _ => failsWith_ok _
    | since =>
      simp only [Matcher.passes] at hg
      split at hg
      · cases hg
      · rename_i word hword
        obtain ⟨cause, hcause, rfl⟩ := isSince_eq_error h hr hg
        exact .inr (.inr ⟨word, cause, hword, hcause, rfl⟩)
    | day =>
      simp only [Matcher.passes] at hg
      split at hg
      · cases hg
      · rename_i span hspan
        obtain ⟨b, hb⟩ := isWithin_total hr (hday span hspan).1 (hday span hspan).2
        rw [hb] at hg
        cases hg
    | _ => cases hg
  · rw [explain_of_not_isSearchable m f hsearch] at he
    cases he
    exact .inl ⟨_, rfl⟩

end Gates

/-! ## The store -/

open SearchBox.Log SearchBox.Store

/-- Rows with sound times become items, whatever else they hold, unless an identifier cannot be
    written. -/
theorem itemsOf_eq_error {rows : List Value} (h : ∀ es, .dict es ∈ rows → (Record.mapping es).HasSoundTime clock)
    {source : String} {place : Nat} {log : List Entry} {e : StoreError}
    (he : answerOf (itemsOf clock source place rows) log = .error e) :
    ∃ es cause, .dict es ∈ rows ∧ Item.idOf (Entries.getOrNull es "id") = .error cause ∧ e = .noItem cause := by
  induction rows generalizing place log with
  | nil => cases he
  | cons row later ih =>
    have hlater : ∀ {place log}, answerOf (itemsOf clock source place later) log = .error e →
        ∃ es cause, .dict es ∈ row :: later ∧ Item.idOf (Entries.getOrNull es "id") = .error cause ∧ e = .noItem cause := by
      intro place log hlog
      obtain ⟨es, cause, hes, hid, hcause⟩ := ih (fun es hes => h es (List.mem_cons_of_mem _ hes)) hlog
      exact ⟨es, cause, List.mem_cons_of_mem _ hes, hid, hcause⟩
    unfold itemsOf at he
    split at he
    · rename_i es
      rcases answerOf_bind_eq_error he with hitem | ⟨item, log₁, he⟩
      · obtain ⟨cause, hcause, rfl⟩ := mapError_eq_error.1 hitem
        exact ⟨es, cause, List.mem_cons_self, Item.ofEntries_eq_error (h es List.mem_cons_self) hcause, rfl⟩
      · rcases answerOf_bind_eq_error he with hitems | ⟨items, log₂, he⟩
        · exact hlater hitems
        · cases he
    · rcases answerOf_bind_eq_error he with hnote | ⟨u, log₁, he⟩
      · cases hnote
      · exact hlater he

/-! ## All readers of creation times -/

/-- A record's creation time is sound just if its value gives a sound time. With sound times
    mappings become items and a store's rows are read unless an identifier cannot be written, records
    are put in any order, and a gate fails only where it does so whatever the record's time. -/
theorem created_soundly (h : clock.zone.IsRegular) :
    (∀ r : Record, r.HasSoundTime clock ↔ r.createdAtValue.GivesSoundTime clock) ∧
    (∀ (es : Entries) (e : ItemError), (Record.mapping es).HasSoundTime clock →
      Item.ofEntries clock es = .error e → Item.idOf (Entries.getOrNull es "id") = .error e) ∧
    (∀ (rows : List Value) (source : String) (log : List Entry) (e : StoreError),
      (∀ es, .dict es ∈ rows → (Record.mapping es).HasSoundTime clock) →
      answerOf (itemsOf clock source 0 rows) log = .error e →
      ∃ es cause, .dict es ∈ rows ∧ Item.idOf (Entries.getOrNull es "id") = .error cause ∧ e = .noItem cause) ∧
    (∀ (order : Order) (records : List Record), (∀ r ∈ records, r.HasSoundTime clock) →
      ∃ ordered, arrange (Record.createdAt clock) order records = .ok ordered) ∧
    ∀ (m : Matcher) (f : Filter) (r : Record) (e : MatchError), m.clock = clock → r.HasSoundTime clock →
      (∀ span ∈ f.day, span.first.offsetUsable = true ∧ span.last.offsetUsable = true) →
      m.explain f r = .error e →
      e.IsNoText ∨ m.kind r = .error e ∨
        ∃ word cause, f.preset? = some word ∧ m.cutoff word = .error cause ∧ e = .offCalendar cause := by
  refine ⟨fun r => momentOf_sound h, fun es e h he => Item.ofEntries_eq_error h he,
    fun rows source log e h he => itemsOf_eq_error h he, fun order records => exists_arrange order, ?_⟩
  intro m f r e hm hr hday he
  subst hm
  exact explain_eq_error h hr hday he

/-- A local time that the clock leaps over, a number, a text that is no date, the start of the
    calendar's second day, and a row that is no record. -/
theorem created_soundly_new_york :
    let zone : Zone := ⟨⟨"EST", -18000⟩, some ⟨⟨"EDT", -14400⟩, ⟨3, 2, 0, 7200⟩, ⟨11, 1, 0, 7200⟩⟩⟩
    let clock : Clock := ⟨.universal (738000 * microsPerDay), zone⟩
    let rows : List Entries := [[(.text "createdAt", .text "2024-03-10 02:30")], [(.text "createdAt", .int 1718409600000)],
      [(.text "createdAt", .text "no date")], [(.text "created_at", .scalar (.time (.floating ⟨microsPerDay⟩)))]]
    (∃ items, answerOf (itemsOf clock "rows" 0 (.null :: rows.map .dict)) [] = .ok items) ∧
      (∃ ordered, arrange (Record.createdAt clock) .newest (rows.map .mapping) = .ok ordered) ∧
      ∀ es ∈ rows, (Record.mapping es).createdAtValue.GivesSoundTime clock := by
  intro zone clock rows
  have hzone : clock.zone.IsRegular := by decide
  obtain ⟨hiff, -, hstore, harrange, -⟩ := created_soundly hzone
  have hrows : ∀ es ∈ rows, (Record.mapping es).HasSoundTime clock := by decide +kernel
  have hids : ∀ es ∈ rows, Item.idOf (Entries.getOrNull es "id") = .ok "" := by decide +kernel
  have hmem : ∀ es, .dict es ∈ Value.null :: rows.map .dict → es ∈ rows := fun es hes => by simpa using hes
  refine ⟨?_, harrange _ _ fun r hr => ?_, fun es hes => (hiff _).1 (hrows es hes)⟩
  · cases hitems : answerOf (itemsOf clock "rows" 0 (.null :: rows.map .dict)) [] with
    | ok items => exact ⟨items, rfl⟩
    | error e =>
      obtain ⟨es, cause, hes, hid, -⟩ := hstore _ _ _ e (fun es hes => hrows es (hmem es hes)) hitems
      rw [hids es (hmem es hes)] at hid
      cases hid
  · obtain ⟨es, hes, rfl⟩ := List.mem_map.1 hr
    exact hrows es hes

/-- A number too long to be divided, a local time on the calendar's first day and an offset of
    more than a day are not sound. -/
theorem created_unsoundly :
    let clock : Clock := ⟨.universal (738000 * microsPerDay), Zone.utc⟩
    let created (text : String) : Except InstantError (Option Moment) :=
      Record.createdAt clock (.mapping [(.text "createdAt", .text text)])
    let far : Moment := ⟨WallTime.midnight ⟨2024, 1, 1, by decide⟩, 99 * 3600 * microsPerSecond, ""⟩
    created "11111111111111111111111111111h" = .error .numberTooLong ∧
      created "0001-01-01" = .error (.noInstant (.yearOutside 0)) ∧
      created "2024-01-01T00:00+99:00" = .ok (some far) ∧ far.text? = .error .offsetOutside ∧
      far.atMost? clock.now = .error .offsetOutside := by
  decide +kernel

end SearchBox.Search

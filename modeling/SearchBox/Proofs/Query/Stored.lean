import SearchBox.Proofs.Calendar.DaySpan
import SearchBox.Proofs.Calendar.Iso
import SearchBox.Proofs.Lexicon
import SearchBox.Proofs.Query.Parts
import SearchBox.Proofs.Value
import SearchBox.Query.Stored

/-!
  SearchBox.Proofs.Query.Stored — filters kept as mappings and read again. A filter of lower-cased
  values, whose day can be written, is read from its own mapping, with the names of zones and all
  but three digits of the seconds left out (`exists_ofValue`). Both filters that have been read
  (`ReadsAs.isLowerCased`) and filters of queries (`isCompiled_of_compile`) are such filters.
-/

namespace SearchBox.Calendar

def DaySpan.cutToMillis (span : DaySpan) : DaySpan :=
  ⟨span.first.cutToMillis, span.last.cutToMillis⟩

/-- Spans with the same ends, whatever offsets they are written in. -/
structure DaySpan.SameInstants (a b : DaySpan) : Prop where
  first : a.first.instant = b.first.instant
  last : a.last.instant = b.last.instant

structure DaySpan.IsWritable (span : DaySpan) : Prop where
  first : span.first.IsWritable
  last : span.last.IsWritable

end SearchBox.Calendar

namespace SearchBox.Query

open SearchBox.Calendar SearchBox.Text

def Part.field : Part → String
  | .terms => "terms"
  | .phrases => "exactPhrases"
  | .excludedTerms => "excludeTerms"
  | .excludedPhrases => "excludePhrases"
  | .objects => "objectSearch"
  | .texts => "textSearch"
  | .types => "types"
  | .formats => "formats"
  | .sites => "sites"
  | .tags => "tags"

namespace Filter

/-- The filter with both ends of its day cut to whole milliseconds. -/
def cutToMillis (f : Filter) : Filter :=
  { f with day := f.day.map DaySpan.cutToMillis }

/-- Equal filters, days being compared as the instants they span. -/
structure SameAs (f g : Filter) : Prop where
  values : { f with day := none } = { g with day := none }
  day : Option.Rel DaySpan.SameInstants f.day g.day

/-- All values are lower-cased, and the preset is not empty. -/
structure IsLowerCased (f : Filter) : Prop where
  parts : ∀ p, ∀ v ∈ f.part p, IsLowered v
  choices : ∀ c ∈ f.choices, IsLowered c.1 ∧ IsLowered c.2
  since : ∀ v ∈ f.since, IsLowered v ∧ v ≠ ""

/-! ## Writing and reading -/

/-- The moment as it is read from its text: the name of its zone is not written. -/
def storedMoment (m : Moment) : Moment :=
  ⟨m.wall.cutToMillis, m.offset, ""⟩

def storedSpan (span : DaySpan) : DaySpan :=
  ⟨storedMoment span.first, storedMoment span.last⟩

@[simp] theorem shownText_text (v : String) : shownText (.text v) = .ok v := by
  rw [shownText, Value.shownText_text]
  rfl

theorem momentOf_milliText {zone : Zone} {m : Moment} (h : m.IsWritable) :
    momentOf zone (.text (String.ofList (m.wall.milliText ++ Moment.offsetText m.offset))) = .ok (storedMoment m) := by
  have hshown : shownText (.text (String.ofList (m.wall.milliText ++ Moment.offsetText m.offset))) =
      .ok (String.ofList (m.wall.milliText ++ Moment.offsetText m.offset)) := shownText_text _
  simp only [momentOf, hshown, ok_bind, String.toList_ofList, Iso.read_milliText h.wall h.offset]
  rfl

theorem dayValue_of_isWritable {span : DaySpan} (h : span.IsWritable) :
    dayValue span = .ok (.dict [
      (.text "start", .text (String.ofList (span.first.wall.milliText ++ Moment.offsetText span.first.offset))),
      (.text "end", .text (String.ofList (span.last.wall.milliText ++ Moment.offsetText span.last.offset)))]) := by
  rw [dayValue, h.first.milliText?, h.last.milliText?]
  rfl

theorem spanOf_ends {zone : Zone} {a b : Value} {first last : Moment} (ha : momentOf zone a = .ok first)
    (hb : momentOf zone b = .ok last) :
    spanOf zone (.dict [(.text "start", a), (.text "end", b)]) = .ok (some ⟨first, last⟩) := by
  have hfirst : Entries.get? [(.text "start", a), (.text "end", b)] "start" = some a := rfl
  have hlast : Entries.get? [(.text "start", a), (.text "end", b)] "end" = some b := rfl
  simp only [spanOf, hfirst, hlast, ha, hb]
  rfl

/-- A day that can be written is read from its value. -/
theorem exists_spanOf_dayValue {span : DaySpan} (h : span.IsWritable) (zone : Zone) :
    ∃ v, dayValue span = .ok v ∧ spanOf zone v = .ok (some (storedSpan span)) := by
  exact ⟨_, dayValue_of_isWritable h, spanOf_ends (momentOf_milliText h.first) (momentOf_milliText h.last)⟩

theorem lowerShown_text {v : String} (h : IsLowered v) : lowerShown (.text v) = .ok v := by
  rw [lowerShown, shownText_text]
  exact congrArg Except.ok (lowerText_of_isLowered h)

theorem lowerShown_eq_ok {v : Value} {t : String} (h : lowerShown v = .ok t) :
    ∃ shown, v.shownText = .ok shown ∧ lowerText shown = t := by
  obtain ⟨shown, hshown, ht⟩ := exists_of_map_eq_ok h
  exact ⟨shown, mapError_eq_ok.1 hshown, ht⟩

theorem isLowered_of_lowerShown {v : Value} {t : String} (h : lowerShown v = .ok t) : IsLowered t := by
  obtain ⟨shown, -, rfl⟩ := lowerShown_eq_ok h
  exact isLowered_lowerText shown

theorem listOf_textList {entries : Entries} {field : String} {texts : List String}
    (hfield : Entries.getOrNull entries field = textList texts) (h : ∀ v ∈ texts, IsLowered v) :
    listOf entries field = .ok texts := by
  rw [listOf, hfield]
  show (texts.map Value.text).mapM lowerShown = .ok texts
  have hread : ∀ v ∈ texts, (lowerShown ∘ Value.text) v = .ok (id v) := fun v hv => lowerShown_text (h v hv)
  rw [List.mapM_map, mapM_eq_ok hread, List.map_id]

theorem pairsFrom_textList {choices : List (String × String)} (h : ∀ c ∈ choices, IsLowered c.1 ∧ IsLowered c.2)
    (place : Nat) : pairsFrom place (choices.map fun (a, b) => textList [a, b]) = .ok choices := by
  induction choices generalizing place with
  | nil => rfl
  | cons c choices ih =>
    obtain ⟨a, b⟩ := c
    obtain ⟨⟨ha, hb⟩, hrest⟩ := List.forall_mem_cons.1 h
    have hitems : (textList [a, b]).items? = some [.text a, .text b] := rfl
    rw [List.map_cons, pairsFrom]
    simp only [hitems, ih hrest, lowerShown_text ha, lowerShown_text hb]
    rfl

theorem choicesOf_textList {choices : List (String × String)} (h : ∀ c ∈ choices, IsLowered c.1 ∧ IsLowered c.2) :
    choicesOf (.list (choices.map fun (a, b) => textList [a, b])) = .ok choices := by
  cases choices with
  | nil => rfl
  | cons c choices => exact pairsFrom_textList h 0

/-- A mapping that holds the values of a filter, and a value for its day. -/
structure Keeps (es : Entries) (f : Filter) (day : Value) : Prop where
  parts : ∀ p : Part, Entries.getOrNull es p.field = textList (f.part p)
  choices : Entries.getOrNull es "orGroups" = .list (f.choices.map fun (a, b) => textList [a, b])
  since : Entries.getOrNull es "dateFilter" = (f.since.map Value.text).getD .null
  day : Entries.getOrNull es "dateRange" = day
  freeText : Entries.getOrNull es "rawQuery" = .text f.freeText

theorem exists_keeps {f : Filter} (h : ∀ span ∈ f.day, span.IsWritable) (zone : Zone) :
    ∃ es day, f.toEntries = .ok es ∧ Keeps es f day ∧ spanOf zone day = .ok (f.day.map storedSpan) := by
  cases hday : f.day with
  | none =>
    refine ⟨_, .null, by rw [toEntries, hday]; rfl, ⟨fun p => ?_, rfl, rfl, rfl, rfl⟩, rfl⟩
    cases p <;> rfl
  | some span =>
    obtain ⟨day, hvalue, hread⟩ := exists_spanOf_dayValue (h span hday) zone
    refine ⟨_, day, by rw [toEntries, hday]; simp only [hvalue]; rfl, ⟨fun p => ?_, rfl, rfl, rfl, rfl⟩, hread⟩
    cases p <;> rfl

/-- What each field of a mapping is read as. -/
structure ReadsAs (zone : Zone) (es : Entries) (f : Filter) : Prop where
  parts : ∀ p : Part, listOf es p.field = .ok (f.part p)
  choices : choicesOf (Entries.getOrNull es "orGroups") = .ok f.choices
  since : sinceOf (Entries.getOrNull es "dateFilter") = .ok f.since
  day : spanOf zone (Entries.getOrNull es "dateRange") = .ok f.day
  freeText : freeTextOf (Entries.getOrNull es "rawQuery") = .ok f.freeText

theorem ofValue_eq_ok_iff {zone : Zone} {es : Entries} {f : Filter} :
    ofValue zone (.dict es) = .ok f ↔ ReadsAs zone es f := by
  constructor
  · intro h
    simp only [ofValue, pure_bind] at h
    obtain ⟨day, hday, h⟩ := bind_eq_ok.1 h
    obtain ⟨choices, hchoices, h⟩ := bind_eq_ok.1 h
    obtain ⟨terms, hterms, h⟩ := bind_eq_ok.1 h
    obtain ⟨phrases, hphrases, h⟩ := bind_eq_ok.1 h
    obtain ⟨excludedTerms, hexcludedTerms, h⟩ := bind_eq_ok.1 h
    obtain ⟨excludedPhrases, hexcludedPhrases, h⟩ := bind_eq_ok.1 h
    obtain ⟨objects, hobjects, h⟩ := bind_eq_ok.1 h
    obtain ⟨texts, htexts, h⟩ := bind_eq_ok.1 h
    obtain ⟨types, htypes, h⟩ := bind_eq_ok.1 h
    obtain ⟨formats, hformats, h⟩ := bind_eq_ok.1 h
    obtain ⟨since, hsince, h⟩ := bind_eq_ok.1 h
    obtain ⟨sites, hsites, h⟩ := bind_eq_ok.1 h
    obtain ⟨tags, htags, h⟩ := bind_eq_ok.1 h
    obtain ⟨freeText, hfreeText, h⟩ := bind_eq_ok.1 h
    cases h
    refine ⟨fun p => ?_, hchoices, hsince, hday, hfreeText⟩
    cases p <;> assumption
  · intro h
    simp only [ofValue, pure_bind]
    refine bind_eq_ok.2 ⟨_, h.day, bind_eq_ok.2 ⟨_, h.choices, bind_eq_ok.2 ⟨_, h.parts .terms,
      bind_eq_ok.2 ⟨_, h.parts .phrases, bind_eq_ok.2 ⟨_, h.parts .excludedTerms,
      bind_eq_ok.2 ⟨_, h.parts .excludedPhrases, bind_eq_ok.2 ⟨_, h.parts .objects,
      bind_eq_ok.2 ⟨_, h.parts .texts, bind_eq_ok.2 ⟨_, h.parts .types,
      bind_eq_ok.2 ⟨_, h.parts .formats, bind_eq_ok.2 ⟨_, h.since, bind_eq_ok.2 ⟨_, h.parts .sites,
      bind_eq_ok.2 ⟨_, h.parts .tags, bind_eq_ok.2 ⟨_, h.freeText, rfl⟩⟩⟩⟩⟩⟩⟩⟩⟩⟩⟩⟩⟩⟩

def stored (f : Filter) : Filter :=
  { f with day := f.day.map storedSpan }

theorem Keeps.readsAs {zone : Zone} {es : Entries} {f : Filter} {day : Value} (h : Keeps es f day)
    (hday : spanOf zone day = .ok (f.day.map storedSpan)) (hf : f.IsLowerCased) : ReadsAs zone es f.stored := by
  refine ⟨fun p => ?_, ?_, ?_, ?_, ?_⟩
  · have hpart : f.stored.part p = f.part p := by cases p <;> rfl
    rw [hpart]
    exact listOf_textList (h.parts p) (hf.parts p)
  · rw [h.choices]
    exact choicesOf_textList hf.choices
  · rw [h.since]
    show _ = Except.ok f.since
    cases hsince : f.since with
    | none => rfl
    | some v =>
      obtain ⟨hlower, hne⟩ := hf.since v hsince
      show (if decide (v ≠ "") = true then some <$> lowerShown (.text v) else .ok none) = Except.ok (some v)
      rw [lowerShown_text hlower, if_pos (decide_eq_true hne)]
      rfl
  · rw [h.day]
    exact hday
  · rw [h.freeText]
    show (if decide (f.freeText ≠ "") = true then shownText (.text f.freeText) else .ok "") = Except.ok f.freeText
    by_cases hempty : f.freeText = ""
    · rw [hempty]
      rfl
    · rw [if_pos (decide_eq_true hempty), shownText_text]

/-- A filter of lower-cased values is read from its mapping. -/
theorem exists_ofValue {f : Filter} (hf : f.IsLowerCased) (hday : ∀ span ∈ f.day, span.IsWritable) (zone : Zone) :
    ∃ es, f.toEntries = .ok es ∧ ofValue zone (.dict es) = .ok f.stored := by
  obtain ⟨es, day, hes, hkeeps, hspan⟩ := exists_keeps hday zone
  exact ⟨es, hes, ofValue_eq_ok_iff.2 (hkeeps.readsAs hspan hf)⟩

/-- What is read is written as before. -/
theorem toEntries_stored {f : Filter} (hday : ∀ span ∈ f.day, span.IsWritable) : f.stored.toEntries = f.toEntries := by
  cases h : f.day with
  | none => rw [stored, h, Option.map_none, ← h]
  | some span =>
    have hspan := hday span h
    have hstored : (storedSpan span).IsWritable :=
      ⟨⟨onCalendar_cutToMillis hspan.first.wall, hspan.first.offset⟩,
        ⟨onCalendar_cutToMillis hspan.last.wall, hspan.last.offset⟩⟩
    have hvalue : dayValue (storedSpan span) = dayValue span := by
      rw [dayValue_of_isWritable hstored, dayValue_of_isWritable hspan]
      simp only [storedSpan, storedMoment, milliText_cutToMillis hspan.first.wall,
        milliText_cutToMillis hspan.last.wall]
    simp only [toEntries, stored, h, Option.map_some, hvalue]

theorem sameAs_stored (f : Filter) : f.stored.SameAs f.cutToMillis := by
  refine ⟨rfl, ?_⟩
  show Option.Rel _ (f.day.map storedSpan) (f.day.map DaySpan.cutToMillis)
  cases f.day with
  | none => exact .none
  | some span => exact .some ⟨rfl, rfl⟩

/-! ## What is read -/

theorem listOf_eq_ok {es : Entries} {field : String} {texts : List String} (h : listOf es field = .ok texts) :
    ∀ v ∈ texts, IsLowered v := by
  unfold listOf at h
  split at h
  · cases h
    exact fun v hv => by cases hv
  · split at h
    · intro v hv
      obtain ⟨w, -, hw⟩ := exists_of_mem_mapM h hv
      exact isLowered_of_lowerShown hw
    · cases h

theorem pairsFrom_eq_ok {place : Nat} {vs : List Value} {choices : List (String × String)}
    (h : pairsFrom place vs = .ok choices) : ∀ c ∈ choices, IsLowered c.1 ∧ IsLowered c.2 := by
  induction vs generalizing place choices with
  | nil =>
    cases h
    exact fun c hc => by cases hc
  | cons v vs ih =>
    rw [pairsFrom] at h
    split at h
    · obtain ⟨a, ha, h⟩ := bind_eq_ok.1 h
      obtain ⟨b, hb, h⟩ := bind_eq_ok.1 h
      obtain ⟨more, hmore, h⟩ := bind_eq_ok.1 h
      cases h
      exact List.forall_mem_cons.2 ⟨⟨isLowered_of_lowerShown ha, isLowered_of_lowerShown hb⟩, ih hmore⟩
    · cases h

theorem choicesOf_eq_ok {v : Value} {choices : List (String × String)} (h : choicesOf v = .ok choices) :
    ∀ c ∈ choices, IsLowered c.1 ∧ IsLowered c.2 := by
  unfold choicesOf at h
  split at h
  · split at h
    · exact pairsFrom_eq_ok h
    · cases h
  · cases h
    exact fun c hc => by cases hc

theorem momentOf_eq_ok {zone : Zone} (hzone : zone.HasMinuteOffsets) {v : Value} {m : Moment}
    (h : momentOf zone v = .ok m) : m.IsWritable := by
  obtain ⟨shown, -, h⟩ := bind_eq_ok.1 h
  obtain ⟨t, ht, h⟩ := bind_eq_ok.1 h
  have hread := isWritable_of_read (mapError_eq_ok.1 ht)
  cases t with
  | fixed n =>
    cases h
    exact hread
  | floating w => exact isWritable_of_localMoment? hzone (mapError_eq_ok.1 h)

theorem spanOf_eq_ok {zone : Zone} (hzone : zone.HasMinuteOffsets) {v : Value} {day : Option DaySpan}
    (h : spanOf zone v = .ok day) : ∀ span ∈ day, span.IsWritable := by
  unfold spanOf at h
  split at h
  · cases h
    exact fun span hspan => by cases hspan
  · split at h
    · obtain ⟨first, hfirst, h⟩ := bind_eq_ok.1 h
      obtain ⟨last, hlast, h⟩ := bind_eq_ok.1 h
      cases h
      intro span hspan
      cases hspan
      exact ⟨momentOf_eq_ok hzone hfirst, momentOf_eq_ok hzone hlast⟩
    · cases h
  · cases h

theorem ReadsAs.isLowerCased {zone : Zone} {es : Entries} {f : Filter} (h : ReadsAs zone es f) : f.IsLowerCased := by
  refine ⟨fun p => listOf_eq_ok (h.parts p), choicesOf_eq_ok h.choices, fun v hv => ?_⟩
  have hsince := h.since
  rw [Option.mem_def.1 hv, sinceOf] at hsince
  split at hsince
  · rename_i htrue
    obtain ⟨w, hw, hwv⟩ := exists_of_map_eq_ok hsince
    cases hwv
    obtain ⟨shown, hshown, rfl⟩ := lowerShown_eq_ok hw
    exact ⟨isLowered_lowerText shown,
      fun hempty => Value.ne_empty_of_shownText htrue hshown (lowerText_eq_empty_iff.1 hempty)⟩
  · cases hsince

theorem exists_readsAs {zone : Zone} {v : Value} {f : Filter} (h : ofValue zone v = .ok f) :
    ∃ es, v = .dict es ∧ ReadsAs zone es f := by
  cases v with
  | dict es => exact ⟨es, rfl, ofValue_eq_ok_iff.1 h⟩
  | _ => cases h

/-! ## What is compiled -/

theorem isLowered_of_mem_tokensOf {lexicon : Lexicon} {s : List Char} {t : Token} (h : t ∈ tokensOf lexicon s) :
    ∀ v ∈ t.values, IsLowered v := by
  rw [tokensOf_eq] at h
  intro v hv
  rcases List.mem_append.1 h with h | h
  · obtain ⟨r, -, ws, s', f, -, -, hvalues⟩ := exists_of_mem_sweepAll h
    rw [hvalues] at hv
    obtain ⟨found, -, rfl⟩ := List.mem_map.1 hv
    exact isLowered_ofList_lower found
  · obtain ⟨w, hterm, -⟩ := exists_of_mem_termsOf h
    simp only [termOf?] at hterm
    split at hterm
    · cases hterm
    · rw [← Option.some.inj hterm] at hv
      rw [List.mem_singleton.1 hv]
      exact isLowered_ofList_lower _

theorem isLowered_singleSpaced {v : String} (h : IsLowered v) : IsLowered (singleSpaced v) := by
  rw [IsLowered, singleSpaced, String.toList_ofList]
  intro c hc
  rcases mem_joinWith hc with hc | ⟨w, hw, hc⟩
  · rw [List.mem_singleton.1 hc]
    decide
  · exact h c (mem_of_mem_words hw hc)

/-- Lower-cased values, and a day of the zone if any. -/
structure IsCompiled (zone : Zone) (f : Filter) : Prop where
  values : f.IsLowerCased
  day : ∀ span ∈ f.day, ∃ day, DaySpan.ofDay zone day = .ok span

theorem isCompiled_empty (zone : Zone) : IsCompiled zone {} := by
  refine ⟨⟨fun p v hv => ?_, fun c hc => ?_, fun v hv => ?_⟩, fun span hspan => ?_⟩
  · cases p <;> cases hv
  · cases hc
  · cases hv
  · cases hspan

section Compiled

variable {clock : Clock} {presets : List (String × Int)} {kinds : List (String × List String)}

theorem isLowered_of_mem_worth {kind : TokenKind} {v w : String} (hv : IsLowered v)
    (h : w ∈ worth (.ofWrites presets kinds) kind v) : IsLowered w := by
  have hitself : w ∈ [v] → IsLowered w := fun hw => by rwa [List.mem_singleton.1 hw]
  cases kind with
  | type => exact Lexicon.isLowered_of_mem_tagsOf h
  | phrase | excludedPhrase =>
    simp only [worth, List.mem_ite_nil_left] at h
    exact hitself h.2
  | _ => exact hitself h

theorem IsCompiled.withPart {zone : Zone} {f : Filter} (h : IsCompiled zone f) {values : List String} {p : Part}
    (hvalues : ∀ v ∈ values, IsLowered v) : IsCompiled zone (f.withPart values p) := by
  have hbeside := sameBeside_withPart f values p
  refine ⟨⟨fun q v hv => ?_, ?_, ?_⟩, ?_⟩
  · by_cases hq : q = p
    · subst hq
      rw [part_withPart_self] at hv
      exact hvalues v hv
    · rw [part_withPart_of_ne hq] at hv
      exact h.values.parts q v hv
  · rw [hbeside.choices]
    exact h.values.choices
  · rw [hbeside.since]
    exact h.values.since
  · rw [hbeside.day]
    exact h.day

theorem IsCompiled.addDate (hpresets : ∀ e ∈ presets, e.1 ≠ "") {f g : Filter} (h : IsCompiled clock.zone f)
    {v : String} (hv : IsLowered v) (hg : f.addDate clock (.ofWrites presets kinds) v = .ok g) :
    IsCompiled clock.zone g := by
  unfold Filter.addDate at hg
  simp only at hg
  split at hg
  · rename_i hknown
    cases hg
    refine ⟨⟨h.values.parts, h.values.choices, fun w hw => ?_⟩, h.day⟩
    cases hw
    exact ⟨isLowered_singleSpaced hv, Lexicon.ne_empty_of_dayOffset? hpresets hknown⟩
  split at hg
  · cases hg
    exact h
  split at hg
  · rename_i span hspan
    cases hg
    refine ⟨⟨h.values.parts, h.values.choices, h.values.since⟩, fun s hs => ?_⟩
    cases hs
    exact DaySpan.exists_ofDay hspan
  · cases hg
    exact h
  · cases hg

theorem IsCompiled.addToken (hpresets : ∀ e ∈ presets, e.1 ≠ "") {f g : Filter} (h : IsCompiled clock.zone f)
    {t : Token} (ht : ∀ v ∈ t.values, IsLowered v) (hg : f.addToken clock (.ofWrites presets kinds) t = .ok g) :
    IsCompiled clock.zone g := by
  obtain ⟨kind, values, start, stop⟩ := t
  cases values with
  | nil => cases hg
  | cons v vs =>
    obtain ⟨hv, hvs⟩ := List.forall_mem_cons.1 ht
    cases hpart : kind.part? with
    | some p =>
      rw [addToken_of_part? clock _ hpart rfl] at hg
      cases hg
      refine h.withPart fun w hw => ?_
      rcases Part.mem_join.1 hw with hw | hw
      · exact h.values.parts p w hw
      · exact isLowered_of_mem_worth hv hw
    | none =>
      cases kind <;> cases hpart
      · cases vs with
        | nil => cases hg
        | cons w vs =>
          cases hg
          refine ⟨⟨h.values.parts, fun c hc => ?_, h.values.since⟩, h.day⟩
          rcases List.mem_append.1 hc with hc | hc
          · exact h.values.choices c hc
          · rw [List.mem_singleton.1 hc]
            exact ⟨hv, hvs w List.mem_cons_self⟩
      · exact h.addDate hpresets hv hg

theorem isCompiled_of_foldlM (hpresets : ∀ e ∈ presets, e.1 ≠ "") {ts : List Token}
    (hts : ∀ t ∈ ts, ∀ v ∈ t.values, IsLowered v) {f g : Filter} (h : IsCompiled clock.zone f)
    (hg : ts.foldlM (Filter.addToken clock (.ofWrites presets kinds)) f = .ok g) : IsCompiled clock.zone g := by
  induction ts generalizing f with
  | nil =>
    cases hg
    exact h
  | cons t ts ih =>
    obtain ⟨ht, hts⟩ := List.forall_mem_cons.1 hts
    rw [List.foldlM_cons] at hg
    obtain ⟨f', hf', hg⟩ := bind_eq_ok.1 hg
    exact ih hts (h.addToken hpresets ht hf') hg

theorem isCompiled_of_compile (hpresets : ∀ e ∈ presets, e.1 ≠ "") {query : String} {f : Filter}
    (h : compile clock (.ofWrites presets kinds) query = .ok f) : IsCompiled clock.zone f := by
  unfold compile at h
  simp only at h
  split at h
  · cases h
    exact isCompiled_empty _
  · obtain ⟨g, hg, h⟩ := bind_eq_ok.1 h
    have hcompiled := isCompiled_of_foldlM hpresets (fun t ht => isLowered_of_mem_tokensOf ht) (isCompiled_empty _) hg
    cases h
    exact ⟨⟨fun p => (by cases p <;> rfl : Filter.part _ p = g.part p) ▸ hcompiled.values.parts p,
      hcompiled.values.choices, hcompiled.values.since⟩, hcompiled.day⟩

end Compiled

theorem isWritable_of_ofDay {zone : Zone} (hzone : zone.HasMinuteOffsets) {day : Date} {span : DaySpan}
    (h : DaySpan.ofDay zone day = .ok span) : span.IsWritable := by
  obtain ⟨first, hfirst, h⟩ := bind_eq_ok.1 h
  obtain ⟨last, hlast, h⟩ := bind_eq_ok.1 h
  cases h
  exact ⟨isWritable_of_localMoment? hzone hfirst, isWritable_of_localMoment? hzone hlast⟩

/-- Days start and end at whole milliseconds. -/
theorem cutToMillis_of_ofDay {zone : Zone} {day : Date} {span : DaySpan} (h : DaySpan.ofDay zone day = .ok span) :
    span.cutToMillis = span := by
  obtain ⟨first, hfirst, h⟩ := bind_eq_ok.1 h
  obtain ⟨last, hlast, h⟩ := bind_eq_ok.1 h
  cases h
  have hmidnight : (WallTime.midnight day).micros % 1000 = 0 := by
    simp only [WallTime.midnight, WallTime.on, TimeOfDay.micros, microsPerDay]
    omega
  have hend : (WallTime.on day DaySpan.lastTime).micros % 1000 = 0 := by
    simp only [WallTime.on, TimeOfDay.micros, DaySpan.lastTime, microsPerDay, microsPerSecond]
    omega
  rw [DaySpan.cutToMillis, Moment.cutToMillis_of_whole (whole_of_localMoment? hmidnight hfirst),
    Moment.cutToMillis_of_whole (whole_of_localMoment? hend hlast)]

theorem IsCompiled.cutToMillis {zone : Zone} {f : Filter} (h : IsCompiled zone f) : f.cutToMillis = f := by
  cases hday : f.day with
  | none => rw [Filter.cutToMillis, hday, Option.map_none, ← hday]
  | some span =>
    obtain ⟨day, hspan⟩ := h.day span hday
    rw [Filter.cutToMillis, hday, Option.map_some, cutToMillis_of_ofDay hspan, ← hday]

/-! ## Kept and read again -/

/-- A filter from a query is kept as a mapping that is read as the same filter, and so is one
    that has itself been read, except for the digits after the third of the seconds of its day;
    that filter is then kept as the very same mapping. -/
theorem kept_and_read_again {zone : Zone} (hzone : zone.HasMinuteOffsets) :
    (∀ (now : Moment) (presets : List (String × Int)) (kinds : List (String × List String)) (query : String)
      (f : Filter), (∀ e ∈ presets, e.1 ≠ "") → compile ⟨now, zone⟩ (.ofWrites presets kinds) query = .ok f →
      ∃ es g, f.toEntries = .ok es ∧ ofValue zone (.dict es) = .ok g ∧ g.SameAs f) ∧
    ∀ (v : Value) (f : Filter), ofValue zone v = .ok f →
      ∃ es g, f.toEntries = .ok es ∧ ofValue zone (.dict es) = .ok g ∧ g.SameAs f.cutToMillis ∧
        g.toEntries = .ok es := by
  constructor
  · intro now presets kinds query f hpresets hf
    have hcompiled := isCompiled_of_compile hpresets hf
    have hday : ∀ span ∈ f.day, span.IsWritable := fun span hspan =>
      let ⟨_, hd⟩ := hcompiled.day span hspan
      isWritable_of_ofDay hzone hd
    obtain ⟨es, hes, hread⟩ := exists_ofValue hcompiled.values hday zone
    have hsame := sameAs_stored f
    rw [hcompiled.cutToMillis] at hsame
    exact ⟨es, f.stored, hes, hread, hsame⟩
  · intro v f hf
    obtain ⟨es, rfl, hreads⟩ := exists_readsAs hf
    have hday := spanOf_eq_ok hzone hreads.day
    obtain ⟨es', hes', hread⟩ := exists_ofValue hreads.isLowerCased hday zone
    exact ⟨es', f.stored, hes', hread, sameAs_stored f, by rw [toEntries_stored hday, hes']⟩

/-- A query with every kind of value, and a mapping with numbers for texts and a span that ends
    between two milliseconds. -/
theorem kept_and_read_again_new_york :
    let zone : Zone := ⟨⟨"EST", -18000⟩, some ⟨⟨"EDT", -14400⟩, ⟨3, 2, 0, 7200⟩, ⟨11, 1, 0, 7200⟩⟩⟩
    let now : Moment := .universal (738000 * microsPerDay)
    let mapping : Value := .dict [
      (.text "terms", .list [.int 7, .text "ΟΔΟΣ"]), (.text "dateFilter", .scalar (.bool true)),
      (.text "dateRange", .dict [(.text "start", .text "2024-03-10"),
        (.text "end", .text "2024-03-10T21:59:59.9999+05:30")])]
    (∃ f es g, compile ⟨now, zone⟩ (.ofWrites [("Last Week", 7)] [("post", ["Tweet"])])
        "ΟΔΟΣ a||B \"red sale\" type:POST #Tag date:2024-03-10 date:last  week" = .ok f ∧
      f.toEntries = .ok es ∧ ofValue zone (.dict es) = .ok g ∧ g.SameAs f) ∧
    ∃ f es g, ofValue zone mapping = .ok f ∧ f.toEntries = .ok es ∧ ofValue zone (.dict es) = .ok g ∧
      g.SameAs f.cutToMillis ∧ g.toEntries = .ok es := by
  intro zone now mapping
  have hzone : zone.HasMinuteOffsets := by decide
  obtain ⟨hcompile, hofValue⟩ := kept_and_read_again hzone
  constructor
  · have hok : (compile ⟨now, zone⟩ (.ofWrites [("Last Week", 7)] [("post", ["Tweet"])])
        "ΟΔΟΣ a||B \"red sale\" type:POST #Tag date:2024-03-10 date:last  week").isOk = true := by decide +kernel
    obtain ⟨f, hf⟩ := exists_of_isOk hok
    obtain ⟨es, g, hkept⟩ := hcompile now _ _ _ f (by decide) hf
    exact ⟨f, es, g, hf, hkept⟩
  · have hok : (ofValue zone mapping).isOk = true := by decide +kernel
    obtain ⟨f, hf⟩ := exists_of_isOk hok
    obtain ⟨es, g, hkept⟩ := hofValue mapping f hf
    exact ⟨f, es, g, hf, hkept⟩

end Filter
end SearchBox.Query

import SearchBox.Proofs.Calendar.Iso
import SearchBox.Proofs.Calendar.IsoDate
import SearchBox.Proofs.Query.Keywords

/-!
  SearchBox.Proofs.Query.WrittenDay — a query for a day in the form `date:2024-06-15` asks for that
  day (`compile_written_day`). The text after the key is a single word, so that it is the value as a
  whole whatever presets there are (`dateValue?_of_isSolid`); a time of day and an offset after it
  are read and count for nothing, and neither does the current day.
-/

namespace SearchBox.Query

open SearchBox.Calendar SearchBox.Calendar.Written SearchBox.Number SearchBox.Text

/-! ## Values without white space -/

/-- A preset of several words is never found in a single one. -/
theorem dateValue?_of_isSolid {s : List Char} (hs : IsSolid s) (presets : List (List Char)) :
    dateValue? presets s = some ⟨[s], s.length⟩ := by
  rw [dateValue?]
  cases hfind : presets.findSome? (presetValue? · s) with
  | none =>
    have hword := wordValue?_of_isSolid hs startsBlank_nil
    rwa [List.append_nil] at hword
  | some f =>
    obtain ⟨p, -, hfound⟩ := List.exists_of_findSome?_eq_some hfind
    obtain ⟨m, rest, rfl, rfl, -, hend⟩ := presetValue?_eq_some hfound
    cases rest with
    | nil => rw [List.append_nil]
    | cons c rest =>
      have hblank : isBlank c = true := hend
      rw [hs.2 c (by simp)] at hblank
      cases hblank

theorem sweepAll_before_date {v : List Char} (hword : IsSolid ("date:".toList ++ v)) (hquote : '"' ∉ v) (hbar : '|' ∉ v) :
    sweepAll (signRules ++ earlyRules) ("date:".toList ++ v) = ([], "date:".toList ++ v) := by
  refine sweepAll_word (fun r hr => hr) hword (List.not_mem_append (by decide) hquote)
    (List.not_mem_append (by decide) hbar) ?_
  intro r hr
  simp only [earlyRules, List.mem_cons, List.not_mem_nil, or_false] at hr
  rcases hr with rfl | rfl | rfl | rfl
  · rfl
  · rfl
  · rfl
  · rfl

/-- A query of a word after the key for dates has one token, the word lower-cased. -/
theorem tokensOf_date (lexicon : Lexicon) {v : List Char} (hv : IsSolid v) (hquote : '"' ∉ v) (hbar : '|' ∉ v) :
    ∃ stop, tokensOf lexicon ("date:".toList ++ v) = [⟨.date, [String.ofList (lower v)], 0, stop⟩] := by
  have hword : IsSolid ("date:".toList ++ v) := IsSolid.append (by decide) hv.2
  have htokens := tokensOf_whole lexicon _ rfl (sweepAll_before_date hword hquote hbar) hword.1
    (fieldRule_of_value? "date" (dateValue?_of_isSolid hv (spacedPresets lexicon))) (by simp; omega)
  exact ⟨_, htokens⟩

theorem singleSpaced_of_isSolid {v : List Char} (hv : IsSolid v) : singleSpaced (String.ofList v) = String.ofList v := by
  rw [singleSpaced, String.toList_ofList, words_of_isSolid hv]
  rfl

/-! ## Days -/

/-- The day of a text is that of its wall time. -/
theorem ofText?_of_read {clock : Clock} {today : Date} {s : List Char} {t : Timestamp} (h : read clock today s = .ok t)
    {w : WallTime} (ht : t = .floating w ∨ ∃ m : Moment, t = .fixed m ∧ m.wall = w) {d : Date} (hd : w.date? = some d) :
    DaySpan.ofText? clock today s = .ok (DaySpan.ofDay clock.zone d).toOption := by
  rcases ht with rfl | ⟨m, rfl, rfl⟩
  all_goals
    rw [DaySpan.ofText?, h]
    dsimp only
    rw [hd]

/-- A query for a day in this form, whatever stands after the day, asks for the day and nothing else.
    A day that does not lie on the calendar as a whole is not asked for. -/
theorem compile_written_day {clock : Clock} (h : clock.zone.KeepsUniversalName) {today : Date}
    (htoday : clock.today? = some today) (lexicon : Lexicon) (f : IsoDate)
    (hpreset : lexicon.dayOffset? (String.ofList f.text) = none) :
    compile clock lexicon ("date:" ++ String.ofList f.text) = .ok { day := (DaySpan.ofDay clock.zone f.date).toOption } := by
  obtain ⟨stop, htokens⟩ := tokensOf_date lexicon f.isSolid_text (f.not_mem_text (by decide) (by decide))
    (f.not_mem_text (by decide) (by decide))
  have hvalue : singleSpaced (String.ofList (lower f.text)) = String.ofList f.lowered.text := by
    rw [f.lower_text, singleSpaced_of_isSolid f.lowered.isSolid_text]
  have hlowered : lexicon.dayOffset? (String.ofList f.lowered.text) = none := by
    rw [← hpreset, Lexicon.dayOffset?, Lexicon.dayOffset?, lowerText, lowerText, String.toList_ofList, String.toList_ofList,
      ← f.lower_text, lower_lower]
  have hdate : ({} : Filter).addToken clock lexicon ⟨.date, [String.ofList (lower f.text)], 0, stop⟩ =
      .ok { day := (DaySpan.ofDay clock.zone f.date).toOption } := by
    have hday : DaySpan.ofText? clock today f.lowered.text = .ok (DaySpan.ofDay clock.zone f.date).toOption :=
      ofText?_of_read (read_isoDate h today f.lowered) (f.lowered.timestamp_wall clock.zone) f.lowered.date?_wall
    simp only [Filter.addToken, Filter.addDate, hvalue, hlowered, htoday, String.toList_ofList, hday, Option.isSome_none,
      Bool.false_eq_true, if_false]
    cases (DaySpan.ofDay clock.zone f.date).toOption <;> rfl
  have hquery : ("date:" ++ String.ofList f.text).toList = "date:".toList ++ f.text :=
    String.toList_append.trans (congrArg ("date:".toList ++ ·) String.toList_ofList)
  have hword : IsSolid ("date:".toList ++ f.text) := IsSolid.append (by decide) f.isSolid_text.2
  rw [compile_of_isEdged clock lexicon (hquery ▸ hword.isEdged), hquery, htokens, ofTokens_singleton hdate]
  rfl

/-- A year below a hundred, a month that could be a day, and a time that belongs to the next day in
    universal time. The calendar's first day has no start. -/
theorem compile_written_day_late :
    let zone : Zone := ⟨⟨"EST", -18000⟩, some ⟨⟨"EDT", -14400⟩, ⟨3, 2, 0, 7200⟩, ⟨11, 1, 0, 7200⟩⟩⟩
    let clock : Clock := ⟨.universal (738000 * microsPerDay), zone⟩
    let day : Date := ⟨12, 11, 10, by decide⟩
    clock.zone.KeepsUniversalName ∧
      (∃ span, DaySpan.ofDay zone day = .ok span ∧
        compile clock .builtin "date:0012-11-10T23:59:59.999999-05:30" = .ok { day := some span }) ∧
      compile clock .builtin "date:0001-01-01" = .ok {} := by
  intro zone clock day
  have hzone : clock.zone.KeepsUniversalName := by decide
  have htoday : clock.today? = some ⟨2021, 7, 29, by decide⟩ := by decide +kernel
  let late : IsoDate := ⟨day, some ⟨true, ⟨23, 59, 59, 999999⟩, by decide, .micros, .offset false 5 30⟩⟩
  let first : IsoDate := ⟨⟨1, 1, 1, by decide⟩, none⟩
  have hlate := compile_written_day hzone htoday .builtin late (by decide +kernel)
  have hfirst := compile_written_day hzone htoday .builtin first (by decide +kernel)
  have htext : "date:" ++ String.ofList late.text = "date:0012-11-10T23:59:59.999999-05:30" := by decide +kernel
  have hfirstText : "date:" ++ String.ofList first.text = "date:0001-01-01" := by decide +kernel
  obtain ⟨span, hspan⟩ : ∃ span, DaySpan.ofDay zone day = .ok span := exists_of_isOk (by decide +kernel)
  have hday : (DaySpan.ofDay clock.zone late.date).toOption = some span := by
    show (DaySpan.ofDay zone day).toOption = some span
    rw [hspan]
    rfl
  have hnone : (DaySpan.ofDay clock.zone first.date).toOption = none := by decide +kernel
  rw [htext, hday] at hlate
  rw [hfirstText, hnone] at hfirst
  exact ⟨hzone, ⟨span, hspan, hlate⟩, hfirst⟩

end SearchBox.Query

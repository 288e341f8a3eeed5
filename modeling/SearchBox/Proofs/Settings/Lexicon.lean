import SearchBox.Proofs.Fallible
import SearchBox.Proofs.Lexicon
import SearchBox.Proofs.Text.Letterwise
import SearchBox.Settings

/-!
  SearchBox.Proofs.Settings.Lexicon — the words of settings that have been accepted. However
  they are written, they are kept as a query has to give them: the words for dates lower-cased, with
  single spaces and not empty, the words for types lower-cased and without white space
  (`isUsable_of_ofEntries`).
-/

namespace SearchBox.Settings

open SearchBox.Text

/-! ## What is read -/

/-- A word as it is kept for dates: lower-cased, with single spaces. -/
def IsPresetWord (s : String) : Prop :=
  IsLowered s ∧ joinWith [' '] (words s.toList) = s.toList

theorem isPresetWord_presetWord (key : String) : IsPresetWord (presetWord key) := by
  refine ⟨isLowered_ofList_lower _, ?_⟩
  rw [presetWord, String.toList_ofList, lower_joinWith_space, words_joinWith]
  intro t ht
  obtain ⟨w, hw, rfl⟩ := List.mem_map.1 ht
  exact IsSolid.lower (of_mem_words hw)

/-- Where a draft has its lists from. -/
theorem Draft.ofSection_eq_ok {root : Section} {d : Draft} (h : Draft.ofSection root = .ok d) :
    (∃ formats : List String, d.formats = distinct (formats.map plain)) ∧
      ∃ vocabulary presets kinds, root.part "vocabulary" = .ok vocabulary ∧
        vocabulary.part "date_presets" = .ok presets ∧ vocabulary.part "type_mappings" = .ok kinds ∧
        presets.keys.mapM (fun key => do return (presetWord key, ← presets.integer key)) = .ok d.presets ∧
        kinds.keys.mapM (fun key => do return (plain key, (← kinds.texts key).map plain)) = .ok d.kinds := by
  unfold Draft.ofSection at h
  obtain ⟨log, -, h⟩ := bind_eq_ok.1 h
  obtain ⟨level, -, h⟩ := bind_eq_ok.1 h
  obtain ⟨logToFile, -, h⟩ := bind_eq_ok.1 h
  obtain ⟨logFolder, -, h⟩ := bind_eq_ok.1 h
  obtain ⟨search, -, h⟩ := bind_eq_ok.1 h
  obtain ⟨order, -, h⟩ := bind_eq_ok.1 h
  obtain ⟨limit, -, h⟩ := bind_eq_ok.1 h
  obtain ⟨workers, -, h⟩ := bind_eq_ok.1 h
  obtain ⟨store, -, h⟩ := bind_eq_ok.1 h
  obtain ⟨storePath, -, h⟩ := bind_eq_ok.1 h
  obtain ⟨output, -, h⟩ := bind_eq_ok.1 h
  obtain ⟨formats, -, h⟩ := bind_eq_ok.1 h
  obtain ⟨vocabulary, hvocabulary, h⟩ := bind_eq_ok.1 h
  obtain ⟨presetTable, hpresetTable, h⟩ := bind_eq_ok.1 h
  obtain ⟨presets, hpresets, h⟩ := bind_eq_ok.1 h
  obtain ⟨kindTable, hkindTable, h⟩ := bind_eq_ok.1 h
  obtain ⟨kinds, hkinds, h⟩ := bind_eq_ok.1 h
  cases h
  exact ⟨⟨formats, rfl⟩, vocabulary, presetTable, kindTable, hvocabulary, hpresetTable, hkindTable, hpresets, hkinds⟩

theorem presets_of_ofSection {root : Section} {d : Draft} (h : Draft.ofSection root = .ok d) :
    ∀ e ∈ d.presets, IsPresetWord e.1 := by
  obtain ⟨-, vocabulary, presets, kinds, -, -, -, hpresets, -⟩ := Draft.ofSection_eq_ok h
  intro e he
  obtain ⟨key, -, hkey⟩ := exists_of_mem_mapM hpresets he
  obtain ⟨days, -, hkey⟩ := bind_eq_ok.1 hkey
  cases hkey
  exact isPresetWord_presetWord key

/-- What is true of settings once their draft has been checked. -/
structure Draft.IsChecked (d : Draft) (s : Settings) : Prop where
  limit : s.limit = -1 ∨ 0 < s.limit
  workers : 0 < s.workers
  storePath : isBlankString s.storePath = false
  formats : formatsOf d.formats = .ok s.formats
  presets : s.presets = d.presets
  kinds : s.kinds = d.kinds
  lexicon : checkLexicon s.lexicon = .ok ()

theorem check_eq_ok {d : Draft} {s : Settings} (h : d.check = .ok s) : d.IsChecked s := by
  unfold Draft.check at h
  dsimp only at h
  split at h
  · split at h
    · cases h
    split at h
    · split at h
      · cases h
      split at h
      · cases h
      split at h
      · cases h
      rename_i hlimit hworkers hpath
      obtain ⟨formats, hformats, h⟩ := bind_eq_ok.1 h
      obtain ⟨u, hchecked, h⟩ := bind_eq_ok.1 h
      cases h
      exact ⟨by dsimp only; omega, by dsimp only; omega, by simpa using hpath, hformats, rfl, rfl, hchecked⟩
    · cases h
  · cases h

/-! ## What is kept -/

/-- Every word is kept as a query has to give it, and every word for types once. -/
structure IsUsable (lexicon : Lexicon) : Prop where
  preset : ∀ e ∈ lexicon.presets, IsPresetWord e.1 ∧ e.1 ≠ ""
  kind : ∀ e ∈ lexicon.kinds, IsLowered e.1 ∧ IsSolid e.1.toList
  nodup : (lexicon.kinds.map Prod.fst).Nodup

theorem isPresetWord_builtin : ∀ e ∈ Lexicon.builtin.presets, IsPresetWord e.1 := by
  unfold IsPresetWord
  decide

theorem isPresetWord_of_mem_overlay {presets : List (String × Int)} {kinds : List (String × List String)}
    (h : ∀ e ∈ presets, IsPresetWord e.1) : ∀ e ∈ (Lexicon.builtin.overlay presets kinds).presets, IsPresetWord e.1 := by
  rintro ⟨word, days⟩ he
  obtain ⟨key, hkey, rfl⟩ := Table.mem_ofWrites he
  have hword : IsPresetWord key := by
    rcases Table.mem_update hkey with hbuiltin | hwritten
    · exact isPresetWord_builtin _ hbuiltin
    · exact h _ hwritten
  rwa [lowerText_of_isLowered hword.1]

theorem isSolid_of_isTypeWord {word : String} (h : isTypeWord word = true) : IsSolid word.toList := by
  simp only [isTypeWord, Bool.and_eq_true, decide_eq_true_eq, List.all_eq_true, Bool.not_eq_true'] at h
  obtain ⟨hne, hchars⟩ := h
  refine ⟨fun hnil => hne ?_, fun c hc => (hchars c hc).2⟩
  rw [← String.toList_inj, hnil]
  rfl

/-- The lexicon of settings that have been accepted. -/
theorem isUsable_of_ofEntries {entries : Entries} {s : Settings} (h : ofEntries entries = .ok s) : IsUsable s.lexicon := by
  obtain ⟨d, hd, h⟩ := bind_eq_ok.1 h
  have hchecked := check_eq_ok h
  obtain ⟨u, hpresetsChecked, hkindsChecked⟩ := bind_eq_ok.1 hchecked.lexicon
  refine ⟨fun e he => ⟨?_, ?_⟩, fun e he => ⟨?_, ?_⟩, ?_⟩
  · refine isPresetWord_of_mem_overlay ?_ e he
    rw [hchecked.presets]
    exact presets_of_ofSection (mapError_eq_ok.1 hd)
  · have hcheck := forM_eq_ok hpresetsChecked e he
    intro hempty
    simp only [checkPreset, hempty, if_true] at hcheck
    cases hcheck
  · obtain ⟨word, tags⟩ := e
    obtain ⟨key, -, rfl⟩ := Table.mem_ofWrites he
    exact isLowered_lowerText key
  · have hcheck := forM_eq_ok hkindsChecked e he
    simp only [checkKind] at hcheck
    split at hcheck
    · cases hcheck
    · rename_i hword
      exact isSolid_of_isTypeWord (by simpa using hword)
  · exact Table.nodup_keys_update (t := []) List.nodup_nil _

end SearchBox.Settings

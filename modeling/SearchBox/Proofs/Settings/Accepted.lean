import SearchBox.Proofs.Settings.Faults

/-!
  SearchBox.Proofs.Settings.Accepted — what settings guarantee once they are accepted. Limits are
  in their ranges, there is a writer for every format, words are ones that queries can give, and
  the tables of words are the built-in ones with the configured entries laid over them
  (`isAccepted_of_ofEntries`). Other settings are rejected with a message that names a section,
  unless a key of theirs is too long to be written (`accepted_or_named`).
-/

namespace SearchBox.Settings

open SearchBox.Number SearchBox.Report SearchBox.Text

/-! ## Entries of tables -/

/-- What an entry of the table of words for dates is read as. -/
inductive PresetWrite : Scalar × Value → String × Int → Prop
  | days (key : String) (n : Int) : PresetWrite (.text key, .int n) (presetWord key, n)

/-- What an entry of the table of words for types is read as. -/
inductive KindWrite : Scalar × Value → String × List String → Prop
  | one (key tag : String) : KindWrite (.text key, .text tag) (plain key, [plain tag])
  | list (key : String) (tags : List String) : KindWrite (.text key, .list (tags.map .text)) (plain key, tags.map plain)
  | tuple (key : String) (tags : List String) : KindWrite (.text key, .tuple (tags.map .text)) (plain key, tags.map plain)

/-- A table holds what all entries of a mapping are read as, the last one for each word, and
    what it held before for other words. -/
def IsOverlaid {α : Type} (Reads : Scalar × Value → String × α → Prop) (entries : Entries) (base table : Table α) : Prop :=
  ∃ writes, List.Forall₂ Reads entries writes ∧ (table.map Prod.fst).Nodup ∧
    ∀ word, table.lookup word = (writes.reverse.lookup word).or (base.lookup word)

namespace Section

variable {s : Section} {key : String}

theorem value_eq_ok {v : Value} (h : s.value key none = .ok v) : Entries.get? s.entries key = some v := by
  unfold value at h
  rw [Option.or_none] at h
  split at h
  · rename_i hv
    cases h
    exact hv
  · cases h

theorem integer_eq_ok {n : Int} (h : s.integer key = .ok n) : Entries.get? s.entries key = some (.int n) := by
  obtain ⟨v, hv, h⟩ := bind_eq_ok.1 h
  split at h
  · cases h
    exact value_eq_ok hv
  · cases h

theorem textsFrom_eq_ok {name : String} {place : Nat} {items : List Value} {ts : List String}
    (h : textsFrom name place items = .ok ts) : items = ts.map .text := by
  induction items generalizing place ts with
  | nil =>
    cases h
    rfl
  | cons v later ih =>
    unfold textsFrom at h
    split at h
    · rename_i heq
      cases heq
    · rename_i heq
      cases heq
      obtain ⟨rest, hrest, h⟩ := bind_eq_ok.1 h
      cases h
      rw [List.map_cons, ← ih hrest]
    · cases h

theorem texts_eq_ok {ts : List String} (h : s.texts key = .ok ts) :
    ∃ v, Entries.get? s.entries key = some v ∧ KindWrite (.text key, v) (plain key, ts.map plain) := by
  obtain ⟨v, hv, h⟩ := bind_eq_ok.1 h
  refine ⟨v, value_eq_ok hv, ?_⟩
  split at h
  · cases h
    exact .one key _
  · rw [textsFrom_eq_ok h]
    exact .list key ts
  · rw [textsFrom_eq_ok h]
    exact .tuple key ts
  · cases h

/-- Entries are read one by one if their keys are texts. -/
theorem forall₂_of_mapM_keys {β : Type} {R : Scalar × Value → β → Prop} {read : String → Except EntryError β}
    {name : String} {es : Entries} {ys : List β} (hkeys : ∀ e ∈ es, ∃ t, e.1 = .text t)
    (hread : ∀ t v, (.text t, v) ∈ es → ∀ y, read t = .ok y → R (.text t, v) y)
    (h : (⟨name, es⟩ : Section).keys.mapM read = .ok ys) : List.Forall₂ R es ys := by
  induction es generalizing ys with
  | nil =>
    cases h
    exact .nil
  | cons e rest ih =>
    obtain ⟨⟨t, ht⟩, hrest⟩ := List.forall_mem_cons.1 hkeys
    obtain ⟨k, v⟩ := e
    cases ht
    have hcons : (⟨name, (.text t, v) :: rest⟩ : Section).keys = t :: (⟨name, rest⟩ : Section).keys := rfl
    rw [hcons, List.mapM_cons] at h
    obtain ⟨y, hy, h⟩ := bind_eq_ok.1 h
    obtain ⟨later, hlater, h⟩ := bind_eq_ok.1 h
    cases h
    refine .cons (hread t v List.mem_cons_self y hy) (ih hrest (fun t' v' he => ?_) hlater)
    exact hread t' v' (List.mem_cons_of_mem _ he)

end Section

theorem tableAt_areApart {entries : Entries} (h : (Value.dict entries).KeysApart) (path : List String) :
    (tableAt entries path).AreApart := by
  unfold tableAt
  cases hv : (Value.dict entries).at? (path.map .text) with
  | none => exact List.Pairwise.nil
  | some v =>
    cases v with
    | dict es => exact (Value.keysApart_dict.1 (h.at? hv)).1
    | _ => exact List.Pairwise.nil

/-- The entries of the two tables of words, as a draft has them. -/
theorem Draft.forall₂_writes {entries : Entries} {d : Draft} (hapart : (Value.dict entries).KeysApart)
    (h : Draft.ofSection ⟨"", entries⟩ = .ok d) :
    List.Forall₂ PresetWrite (tableAt entries ["vocabulary", "date_presets"]) d.presets ∧
      List.Forall₂ KindWrite (tableAt entries ["vocabulary", "type_mappings"]) d.kinds := by
  obtain ⟨-, vocabulary, presets, kinds, hvocabulary, hpresets, hkinds, hpresetList, hkindList⟩ :=
    Draft.ofSection_eq_ok h
  have hpart := Section.part_eq_ok hvocabulary
  have hpresetsPart := Section.part_eq_ok hpresets
  have hkindsPart := Section.part_eq_ok hkinds
  have hpresetEntries : presets.entries = _ := hpresetsPart.entries.trans (inside_part hpart _)
  have hkindEntries : kinds.entries = _ := hkindsPart.entries.trans (inside_part hpart _)
  rw [← hpresetEntries, ← hkindEntries]
  constructor
  · refine Section.forall₂_of_mapM_keys hpresetsPart.keys (fun t v hv w hw => ?_) hpresetList
    obtain ⟨n, hn, hw⟩ := bind_eq_ok.1 hw
    cases hw
    have hfound := (hpresetEntries ▸ tableAt_areApart hapart _ : presets.entries.AreApart).find?_of_mem hv
    cases (Section.integer_eq_ok hn).symm.trans hfound
    exact .days t n
  · refine Section.forall₂_of_mapM_keys hkindsPart.keys (fun t v hv w hw => ?_) hkindList
    obtain ⟨tags, htags, hw⟩ := bind_eq_ok.1 hw
    cases hw
    have hfound := (hkindEntries ▸ tableAt_areApart hapart _ : kinds.entries.AreApart).find?_of_mem hv
    obtain ⟨v', hv', hwrite⟩ := Section.texts_eq_ok htags
    cases hv'.symm.trans hfound
    exact hwrite

/-! ## Values that are allowed -/

theorem nodup_distinct (texts : List String) : (distinct texts).Nodup := by
  unfold distinct
  suffices h : ∀ found : List String, found.Nodup →
      (texts.foldl (fun found t => if t = "" ∨ t ∈ found then found else found ++ [t]) found).Nodup from
    h [] List.nodup_nil
  induction texts with
  | nil => exact fun found hfound => hfound
  | cons t texts ih =>
    intro found hfound
    refine ih _ ?_
    dsimp only
    split
    · exact hfound
    · rename_i hnew
      exact List.nodup_append.2 ⟨hfound, by simp, by grind⟩

theorem name_of_ofName? {name : String} {f : Format} (h : Format.ofName? name = some f) : f.name = name := by
  simpa using List.find?_some h

theorem map_name_filterMap {names : List String} (h : ∀ name ∈ names, (Format.ofName? name).isSome) :
    (names.filterMap Format.ofName?).map Format.name = names := by
  induction names with
  | nil => rfl
  | cons name names ih =>
    obtain ⟨hname, hnames⟩ := List.forall_mem_cons.1 h
    obtain ⟨f, hf⟩ := Option.isSome_iff_exists.1 hname
    rw [List.filterMap_cons, hf, List.map_cons, name_of_ofName? hf, ih hnames]

/-- Formats are those named, in order. -/
theorem map_name_of_formatsOf {names : List String} {formats : List Format} (h : formatsOf names = .ok formats) :
    names ≠ [] ∧ formats.map Format.name = names := by
  unfold formatsOf at h
  split at h
  · cases h
  · rename_i hne
    split at h
    · rename_i hknown
      cases h
      rw [List.filter_eq_nil_iff] at hknown
      refine ⟨by simpa using hne, map_name_filterMap fun name hname => ?_⟩
      simpa [Option.isSome_iff_ne_none] using hknown name hname
    · cases h

theorem isSome_writersOf? {formats : List Format} (h : formats ≠ []) (explain : Bool) :
    (writersOf? explain formats).isSome := by
  obtain ⟨f, hf⟩ := List.exists_mem_of_ne_nil formats h
  cases f <;> simp [writersOf?, hf]

theorem of_checkPreset {word : String} {days : Int} (h : checkPreset word days = .ok ()) : word ≠ "" ∧ 0 ≤ days := by
  unfold checkPreset at h
  split at h
  · cases h
  · split at h
    · cases h
    · exact ⟨‹_›, by omega⟩

theorem of_checkKind {word : String} {tags : List String} (h : checkKind word tags = .ok ()) :
    IsSolid word.toList ∧ ':' ∉ word.toList ∧ tags ≠ [] ∧ "" ∉ tags := by
  unfold checkKind at h
  split at h
  · cases h
  · rename_i hword
    have hword : isTypeWord word = true := by simpa using hword
    split at h
    · cases h
    · rename_i htags
      simp only [Bool.or_eq_true, List.isEmpty_iff, List.contains_eq_mem, decide_eq_true_eq, not_or] at htags
      refine ⟨isSolid_of_isTypeWord hword, fun hcolon => ?_, htags.1, htags.2⟩
      simp only [isTypeWord, Bool.and_eq_true, List.all_eq_true] at hword
      have := hword.2 _ hcolon
      simp at this

/-! ## Settings -/

theorem kinds_of_ofSection {root : Section} {d : Draft} (h : Draft.ofSection root = .ok d) :
    ∀ e ∈ d.kinds, IsLowered e.1 ∧ ∀ tag ∈ e.2, IsLowered tag := by
  obtain ⟨-, vocabulary, presets, kinds, -, -, -, -, hkinds⟩ := Draft.ofSection_eq_ok h
  intro e he
  obtain ⟨key, -, hkey⟩ := exists_of_mem_mapM hkinds he
  obtain ⟨tags, -, hkey⟩ := bind_eq_ok.1 hkey
  cases hkey
  refine ⟨isLowered_ofList_lower _, fun tag htag => ?_⟩
  obtain ⟨t, -, rfl⟩ := List.mem_map.1 htag
  exact isLowered_ofList_lower _

/-- The words of settings are written to the built-in tables as they are. -/
theorem lexicon_of_ofEntries {entries : Entries} {s : Settings} (h : ofEntries entries = .ok s) :
    s.lexicon = ⟨Table.update Lexicon.builtin.presets s.presets, Table.update Lexicon.builtin.kinds s.kinds⟩ ∧
      ∀ e ∈ s.lexicon.kinds, ∀ tag ∈ e.2, IsLowered tag := by
  obtain ⟨d, hd, hchecked⟩ := bind_eq_ok.1 h
  replace hd := mapError_eq_ok.1 hd
  replace hchecked := check_eq_ok hchecked
  have hpresets : ∀ e ∈ Lexicon.builtin.presets ++ s.presets, IsLowered e.1 := by
    intro e he
    rw [hchecked.presets] at he
    rcases List.mem_append.1 he with he | he
    · exact (isPresetWord_builtin e he).1
    · exact (presets_of_ofSection hd e he).1
  have hkinds : ∀ e ∈ s.kinds, IsLowered e.1 ∧ ∀ tag ∈ e.2, IsLowered tag := by
    rw [hchecked.kinds]
    exact kinds_of_ofSection hd
  have hlexicon := Lexicon.overlay_builtin hpresets hkinds
  refine ⟨hlexicon, fun e he => ?_⟩
  rw [lexicon, hlexicon] at he
  rcases Table.mem_update he with he | he
  · exact (Lexicon.isLowered_builtin_kinds e he).2
  · exact (hkinds e he).2

/-- What accepted settings guarantee, and where their words come from. -/
structure IsAccepted (entries : Entries) (s : Settings) : Prop where
  order : s.order.name ∈ ["store", "newest", "oldest"]
  limit : s.limit = -1 ∨ 0 < s.limit
  workers : 1 ≤ s.workers
  storePath : ∃ c ∈ s.storePath.toList, isBlank c = false
  formats : s.formats ≠ [] ∧ s.formats.Nodup ∧ ∀ f ∈ s.formats, f.name ∈ ["console", "json"]
  writers : ∀ explain, (writersOf? explain s.formats).isSome
  preset : ∀ e ∈ s.lexicon.presets, e.1 ≠ "" ∧ IsPresetWord e.1 ∧ 0 ≤ e.2
  kind : ∀ e ∈ s.lexicon.kinds, IsLowered e.1 ∧ IsSolid e.1.toList ∧ ':' ∉ e.1.toList ∧
    e.2 ≠ [] ∧ ∀ tag ∈ e.2, tag ≠ "" ∧ IsLowered tag
  presets : IsOverlaid PresetWrite (tableAt entries ["vocabulary", "date_presets"]) Lexicon.builtin.presets
    s.lexicon.presets
  kinds : IsOverlaid KindWrite (tableAt entries ["vocabulary", "type_mappings"]) Lexicon.builtin.kinds s.lexicon.kinds

theorem isAccepted_of_ofEntries {entries : Entries} {s : Settings} (hapart : (Value.dict entries).KeysApart)
    (h : ofEntries entries = .ok s) : IsAccepted entries s := by
  have husable := isUsable_of_ofEntries h
  obtain ⟨d, hd, hchecked⟩ := bind_eq_ok.1 h
  replace hd := mapError_eq_ok.1 hd
  replace hchecked := check_eq_ok hchecked
  obtain ⟨hpresetWrites, hkindWrites⟩ := Draft.forall₂_writes hapart hd
  obtain ⟨u, hpresetsChecked, hkindsChecked⟩ := bind_eq_ok.1 hchecked.lexicon
  obtain ⟨⟨texts, htexts⟩, -⟩ := Draft.ofSection_eq_ok hd
  obtain ⟨hnames, hformats⟩ := map_name_of_formatsOf hchecked.formats
  have hne : s.formats ≠ [] := by
    rintro hnil
    rw [hnil] at hformats
    exact hnames hformats.symm
  obtain ⟨hlexicon, htagsLowered⟩ := lexicon_of_ofEntries h
  rw [hchecked.presets, hchecked.kinds] at hlexicon
  refine ⟨?_, hchecked.limit, hchecked.workers, ?_, ⟨hne, ?_, ?_⟩, isSome_writersOf? hne, ?_, ?_, ?_, ?_⟩
  · cases s.order <;> decide
  · simpa [isBlankString, isBlankText] using hchecked.storePath
  · refine List.Pairwise.of_map (S := (· ≠ ·)) Format.name (fun f g hne heq => hne (congrArg _ heq)) ?_
    rw [hformats, htexts]
    exact nodup_distinct _
  · rintro f -
    cases f <;> decide
  · intro e he
    obtain ⟨hword, hne⟩ := husable.preset e he
    exact ⟨hne, hword, (of_checkPreset (forM_eq_ok hpresetsChecked e he)).2⟩
  · intro e he
    obtain ⟨hsolid, hcolon, htags, hempty⟩ := of_checkKind (forM_eq_ok hkindsChecked e he)
    refine ⟨(husable.kind e he).1, hsolid, hcolon, htags, fun tag htag => ⟨?_, htagsLowered e he tag htag⟩⟩
    rintro rfl
    exact hempty htag
  · refine ⟨d.presets, hpresetWrites, ?_, ?_⟩
    · rw [hlexicon]
      exact Table.nodup_keys_update (by decide) _
    · rw [hlexicon]
      exact Table.lookup_update _ _
  · refine ⟨d.kinds, hkindWrites, husable.nodup, ?_⟩
    rw [hlexicon]
    exact Table.lookup_update _ _

/-- Settings are accepted with all that is guaranteed, or rejected with a message that names
    a section, unless a key in one of their mappings is too long to be written. -/
theorem accepted_or_named {entries : Entries} (hapart : (Value.dict entries).KeysApart) :
    match ofEntries entries with
    | .ok s => IsAccepted entries s
    | .error e => NamesSection e.message ∨
        e = .badEntry .keyTooLong ∧ ∃ path ∈ tablePaths, Section.HasLongKey (tableAt entries path) := by
  cases h : ofEntries entries with
  | ok s => exact isAccepted_of_ofEntries hapart h
  | error e => exact ofEntries_failsWith entries e h

/-- Words written in several ways: the last entry for a word counts. -/
theorem accepted_or_named_last_week :
    let entries : Entries := [(.text "log", .dict [(.text "level", .text " info"), (.text "to_file", .bool false)]),
      (.text "search", .null), (.text "store", .dict [(.text "path", .text "items.json")]),
      (.text "output", .dict [(.text "formats", .list [.text "JSON", .text "", .text "json ", .text "console"])]),
      (.text "vocabulary", .dict [
        (.text "date_presets", .dict [(.text " Last  Week", .int 3), (.text "gestern", .int 1), (.text "last week", .int 4)]),
        (.text "type_mappings", .dict [(.text "Video ", .text "Clip"), (.text "notes", .list [.text "note", .text "memo"])])])]
    (Value.dict entries).KeysApart ∧ ∃ s, ofEntries entries = .ok s ∧ IsAccepted entries s ∧
      s.formats = [.json, .console] ∧ s.lexicon.presets.lookup "last week" = some 4 ∧
      s.lexicon.presets.lookup "today" = some 0 ∧ s.lexicon.kinds.lookup "video" = some ["clip"] := by
  intro entries
  have hapart : (Value.dict entries).KeysApart := by simp [entries, Entries.AreApart]
  have hvalues : (ofEntries entries).toOption.map (fun s => (s.formats, s.lexicon.presets.lookup "last week",
      s.lexicon.presets.lookup "today", s.lexicon.kinds.lookup "video")) =
      some ([.json, .console], some 4, some 0, some ["clip"]) := by
    decide +kernel
  have haccepted := accepted_or_named hapart
  cases h : ofEntries entries with
  | error e =>
    rw [h] at hvalues
    cases hvalues
  | ok s =>
    rw [h] at hvalues haccepted
    simp only [Except.toOption, Option.map_some, Option.some.injEq, Prod.mk.injEq] at hvalues
    exact ⟨hapart, s, rfl, haccepted, hvalues⟩

/-- A key that is too long to be written is not blamed on its section. -/
theorem long_key_unnamed :
    let entries : Entries := [(.text "log", .dict [(.text "level", .text "INFO"), (.text "to_file", .bool false),
        (.int (ofDigits 16 (List.replicate 3600 15)), .int 1)]),
      (.text "store", .dict [(.text "path", .text "items.json")])]
    (Value.dict entries).KeysApart ∧
      ∃ e, ofEntries entries = .error e ∧ ¬ NamesSection e.message := by
  intro entries
  have hapart : (Value.dict entries).KeysApart := by
    unfold entries
    generalize ofDigits 16 (List.replicate 3600 15) = n
    simp [Entries.AreApart, Scalar.sameKey, Scalar.keyForm]
  have hfault : (ofEntries entries).map (fun _ => ()) = .error (.badEntry .keyTooLong) := by
    decide +kernel
  have hunnamed : ¬ NamesSection (SettingsError.badEntry .keyTooLong).message := by
    unfold NamesSection
    simp only [← occursIn_iff]
    decide +kernel
  refine ⟨hapart, .badEntry .keyTooLong, ?_, hunnamed⟩
  cases h : ofEntries entries with
  | ok s =>
    rw [h] at hfault
    cases hfault
  | error e =>
    rw [h] at hfault
    cases hfault
    rfl

end SearchBox.Settings

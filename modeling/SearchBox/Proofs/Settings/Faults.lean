import SearchBox.Proofs.Settings.Layers

/-!
  SearchBox.Proofs.Settings.Faults — what is said about settings that are rejected. An entry that
  cannot be read is named in full (`IsAbout`), a value that is not allowed by its section
  (`namesSection_message`), so every fault names one of the sections. Only where a key is an
  integer too long to be written, nothing is named (`ofEntries_failsWith`).
-/

namespace SearchBox.Settings

/-! ## Entries -/

def EntryError.entry? : EntryError → Option String
  | missing name => some name
  | wrongKind name _ => some name
  | keysNotText name _ => some name
  | keyTooLong => none

/-- An error is about an entry whose full name starts with the given one. -/
def EntryError.IsAbout (name : String) (e : EntryError) : Prop :=
  ∃ entry, e.entry? = some entry ∧ name.toList <+: entry.toList

theorem EntryError.isInfix_message {e : EntryError} {entry : String} (h : e.entry? = some entry) :
    entry.toList <:+: e.message.toList := by
  cases e with
  | keyTooLong => cases h
  | missing name =>
    cases h
    show entry.toList <:+: ("Missing required config: " ++ entry).toList
    rw [String.toList_append]
    exact (List.suffix_append _ _).isInfix
  | wrongKind name wanted =>
    cases h
    show entry.toList <:+: (entry ++ " must be " ++ wanted.phrase).toList
    rw [String.toList_append, String.toList_append, List.append_assoc]
    exact (List.prefix_append _ _).isInfix
  | keysNotText name keys =>
    cases h
    show entry.toList <:+: (entry ++ " keys must be strings, got " ++ _).toList
    rw [String.toList_append, String.toList_append, List.append_assoc]
    exact (List.prefix_append _ _).isInfix

theorem EntryError.IsAbout.mono {name name' : String} {e : EntryError} (h : e.IsAbout name)
    (hstart : name'.toList <+: name.toList) : e.IsAbout name' := by
  obtain ⟨entry, hentry, hname⟩ := h
  exact ⟨entry, hentry, hstart.trans hname⟩

namespace Section

variable (s : Section) (key : String)

theorem value_failsWith (fallback : Option Value) : FailsWith (EntryError.IsAbout (s.nameOf key)) (s.value key fallback) := by
  unfold value
  split
  · exact failsWith_ok _
  · exact failsWith_error ⟨_, rfl, List.prefix_refl _⟩

theorem text_failsWith (fallback : Option String) : FailsWith (EntryError.IsAbout (s.nameOf key)) (s.text key fallback) := by
  unfold text
  refine (s.value_failsWith key _).bind fun v _ => ?_
  split
  · exact failsWith_ok _
  · exact failsWith_error ⟨_, rfl, List.prefix_refl _⟩

theorem flag_failsWith : FailsWith (EntryError.IsAbout (s.nameOf key)) (s.flag key) := by
  unfold flag
  refine (s.value_failsWith key _).bind fun v _ => ?_
  split
  · exact failsWith_ok _
  · exact failsWith_error ⟨_, rfl, List.prefix_refl _⟩

theorem integer_failsWith (fallback : Option Int) :
    FailsWith (EntryError.IsAbout (s.nameOf key)) (s.integer key fallback) := by
  unfold integer
  refine (s.value_failsWith key _).bind fun v _ => ?_
  split
  · exact failsWith_ok _
  · exact failsWith_error ⟨_, rfl, List.prefix_refl _⟩

theorem textsFrom_failsWith (name : String) (place : Nat) (items : List Value) :
    FailsWith (EntryError.IsAbout name) (textsFrom name place items) := by
  fun_induction textsFrom name place items with
  | case1 => exact failsWith_ok _
  | case2 place t later ih => exact ih.bind fun _ _ => failsWith_ok _
  | case3 place v later =>
    refine failsWith_error ⟨_, rfl, ?_⟩
    simp only [String.toList_append, List.append_assoc]
    exact List.prefix_append _ _

theorem texts_failsWith (fallback : Option (List String)) :
    FailsWith (EntryError.IsAbout (s.nameOf key)) (s.texts key fallback) := by
  unfold texts
  refine (s.value_failsWith key _).bind fun v _ => ?_
  split
  · exact failsWith_ok _
  · exact textsFrom_failsWith _ _ _
  · exact textsFrom_failsWith _ _ _
  · exact failsWith_error ⟨_, rfl, List.prefix_refl _⟩

/-! ## Sections inside -/

/-- A key that is no text and cannot be written. -/
def HasLongKey (entries : Entries) : Prop :=
  ∃ e ∈ entries, e.1.isWritable = false

/-- The entries of the mapping under a key, none if there is no mapping. -/
def inside (s : Section) (key : String) : Entries :=
  Value.inside (Entries.get? s.entries key)

/-- A section is the part under a key of another one, and its keys are texts. -/
structure IsPart (p s : Section) (key : String) : Prop where
  name : p.name = s.nameOf key
  entries : p.entries = s.inside key
  keys : ∀ e ∈ p.entries, ∃ t, e.1 = .text t

/-- An error about a part, or about a key in it that cannot be written. -/
def SpoilsPart (s : Section) (key : String) (e : EntryError) : Prop :=
  e.IsAbout (s.nameOf key) ∨ e = .keyTooLong ∧ HasLongKey (s.inside key)

theorem ofEntries_eq_ok {name : String} {entries : Entries} {p : Section} (h : ofEntries name entries = .ok p) :
    p = ⟨name, entries⟩ ∧ ∀ e ∈ entries, ∃ t, e.1 = .text t := by
  unfold ofEntries at h
  split at h
  · rename_i hkeys
    cases h
    refine ⟨rfl, fun e he => ?_⟩
    obtain ⟨k, v⟩ := e
    have hnone := List.filterMap_eq_nil_iff.1 hkeys _ he
    cases k with
    | text t => exact ⟨t, rfl⟩
    | _ => cases hnone
  · cases h

theorem ofEntries_failsWith (name : String) (entries : Entries) :
    FailsWith (fun e => e.IsAbout name ∨ e = .keyTooLong ∧ HasLongKey entries) (ofEntries name entries) := by
  unfold ofEntries
  split
  · exact failsWith_ok _
  · refine failsWith_error ?_
    split
    · exact .inl ⟨name, rfl, List.prefix_refl _⟩
    · rename_i hlong
      simp only [List.all_eq_true, not_forall, Bool.not_eq_true] at hlong
      obtain ⟨k, hk, hlong⟩ := hlong
      obtain ⟨e, he, hek⟩ := List.mem_filterMap.1 hk
      refine .inr ⟨rfl, e, he, ?_⟩
      obtain ⟨k', v⟩ := e
      cases k' with
      | text t => cases hek
      | _ =>
        cases hek
        exact hlong

theorem inside_eq : s.inside key = Value.inside (some (Entries.getOrNull s.entries key)) := by
  unfold inside Entries.getOrNull
  cases Entries.get? s.entries key <;> rfl

theorem part?_failsWith : FailsWith (s.SpoilsPart key) (s.part? key) := by
  unfold part? SpoilsPart
  rw [inside_eq]
  split
  · exact failsWith_ok none
  · rename_i entries hentries
    rw [hentries]
    exact (ofEntries_failsWith _ _).map some
  · exact failsWith_error (.inl ⟨_, rfl, List.prefix_refl _⟩)

theorem part_failsWith : FailsWith (s.SpoilsPart key) (s.part key) :=
  (s.part?_failsWith key).bind fun _ _ => failsWith_ok _

theorem neededPart_failsWith : FailsWith (s.SpoilsPart key) (s.neededPart key) := by
  unfold neededPart
  refine (s.part?_failsWith key).bind fun p _ => ?_
  split
  · exact failsWith_ok _
  · exact failsWith_error (.inl ⟨_, rfl, List.prefix_refl _⟩)

variable {s key}

theorem part?_eq_ok {p : Option Section} (h : s.part? key = .ok p) : (p.getD ⟨s.nameOf key, []⟩).IsPart s key := by
  have hinside := inside_eq s key
  unfold part? at h
  split at h
  · rename_i hnull
    cases h
    rw [hnull] at hinside
    exact ⟨rfl, hinside.symm, nofun⟩
  · rename_i entries hentries
    obtain ⟨q, hq, h⟩ := bind_eq_ok.1 h
    cases h
    rw [hentries] at hinside
    obtain ⟨rfl, hkeys⟩ := ofEntries_eq_ok hq
    exact ⟨rfl, hinside.symm, hkeys⟩
  · cases h

theorem part_eq_ok {p : Section} (h : s.part key = .ok p) : p.IsPart s key := by
  obtain ⟨o, ho, h⟩ := bind_eq_ok.1 h
  cases h
  exact part?_eq_ok ho

theorem neededPart_eq_ok {p : Section} (h : s.neededPart key = .ok p) : p.IsPart s key := by
  unfold neededPart at h
  obtain ⟨o, ho, h⟩ := bind_eq_ok.1 h
  cases o with
  | none => cases h
  | some q =>
    cases h
    exact part?_eq_ok ho

theorem isPrefix_nameOf (s : Section) (key : String) : s.name.toList <+: (s.nameOf key).toList := by
  unfold nameOf
  split
  · rename_i hempty
    rw [hempty]
    exact List.nil_prefix
  · rw [String.toList_append, String.toList_append, List.append_assoc]
    exact List.prefix_append _ _

end Section

/-! ## The sections of settings -/

def sectionNames : List String :=
  ["log", "search", "store", "output", "vocabulary"]

/-- The mappings that settings are read from, by their paths. -/
def tablePaths : List (List String) :=
  sectionNames.map ([·]) ++ [["vocabulary", "date_presets"], ["vocabulary", "type_mappings"]]

/-- The entries of the mapping at the end of a path, none if there is no mapping. -/
def tableAt (entries : Entries) (path : List String) : Entries :=
  Value.inside ((Value.dict entries).at? (path.map .text))

/-- An error that is about a section, or about a key that cannot be written. -/
def IsFault (entries : Entries) (e : EntryError) : Prop :=
  (∃ name ∈ sectionNames, e.IsAbout name) ∨
    e = .keyTooLong ∧ ∃ path ∈ tablePaths, Section.HasLongKey (tableAt entries path)

section IsFault

variable {entries : Entries} {name key : String} {p : Section}

theorem inside_root (entries : Entries) (name : String) : (⟨"", entries⟩ : Section).inside name = tableAt entries [name] := by
  unfold Section.inside tableAt Entries.get?
  simp only [List.map_cons, List.map_nil, Value.at?]
  cases Entries.find? (.text name) entries <;> rfl

theorem inside_part (hp : p.IsPart ⟨"", entries⟩ name) (key : String) : p.inside key = tableAt entries [name, key] := by
  have hentries := hp.entries.trans (inside_root entries name)
  unfold Section.inside Entries.get?
  rw [hentries]
  unfold tableAt
  simp only [List.map_cons, List.map_nil, Value.at?]
  cases hv : Entries.find? (.text name) entries with
  | none => rfl
  | some v =>
    cases v with
    | dict es =>
      simp only [Option.bind_some, Value.at?, Value.inside]
      cases Entries.find? (.text key) es <;> rfl
    | _ => rfl

variable {α : Type} {x : Except EntryError α} (hname : name ∈ sectionNames)
include hname

/-- What spoils a section is a fault. -/
theorem fault_of_part (h : FailsWith (Section.SpoilsPart ⟨"", entries⟩ name) x) : FailsWith (IsFault entries) x := by
  intro e he
  rcases h e he with habout | ⟨rfl, hlong⟩
  · exact .inl ⟨name, hname, habout⟩
  · rw [inside_root] at hlong
    exact .inr ⟨rfl, [name], List.mem_append_left _ (List.mem_map_of_mem hname), hlong⟩

variable (hp : p.IsPart ⟨"", entries⟩ name)
include hp

/-- An error about an entry of a section is about the section. -/
theorem isFault_of_isAbout {e : EntryError} (h : e.IsAbout (p.nameOf key)) : IsFault entries e := by
  have hstart := p.isPrefix_nameOf key
  rw [hp.name] at hstart
  exact .inl ⟨name, hname, h.mono hstart⟩

theorem fault_of_entry (h : FailsWith (EntryError.IsAbout (p.nameOf key)) x) : FailsWith (IsFault entries) x :=
  h.mono fun _ => isFault_of_isAbout hname hp

/-- So is an error about an entry of a mapping in it. -/
theorem fault_of_inner_entry {q : Section} {inner : String} (hq : q.IsPart p inner)
    (h : FailsWith (EntryError.IsAbout (q.nameOf key)) x) : FailsWith (IsFault entries) x := by
  have hinner := q.isPrefix_nameOf key
  rw [hq.name] at hinner
  exact fault_of_entry hname hp (h.mono fun _ habout => habout.mono hinner)

theorem fault_of_inner_part (hpath : [name, key] ∈ tablePaths) (h : FailsWith (p.SpoilsPart key) x) :
    FailsWith (IsFault entries) x := by
  intro e he
  rcases h e he with habout | ⟨rfl, hlong⟩
  · exact isFault_of_isAbout hname hp habout
  · rw [inside_part hp] at hlong
    exact .inr ⟨rfl, _, hpath, hlong⟩

end IsFault

theorem Draft.ofSection_failsWith (entries : Entries) : FailsWith (IsFault entries) (Draft.ofSection ⟨"", entries⟩) := by
  have hlog : "log" ∈ sectionNames := by decide
  have hsearch : "search" ∈ sectionNames := by decide
  have hstore : "store" ∈ sectionNames := by decide
  have houtput : "output" ∈ sectionNames := by decide
  have hvocabulary : "vocabulary" ∈ sectionNames := by decide
  unfold Draft.ofSection
  refine (fault_of_part hlog (Section.neededPart_failsWith _ _)).bind fun log h => ?_
  replace h := Section.neededPart_eq_ok h
  refine (fault_of_entry hlog h (log.text_failsWith _ _)).bind fun _ _ => ?_
  refine (fault_of_entry hlog h (log.flag_failsWith _)).bind fun _ _ => ?_
  refine (fault_of_entry hlog h (log.text_failsWith _ _)).bind fun _ _ => ?_
  refine (fault_of_part hsearch (Section.part_failsWith _ _)).bind fun search h => ?_
  replace h := Section.part_eq_ok h
  refine (fault_of_entry hsearch h (search.text_failsWith _ _)).bind fun _ _ => ?_
  refine (fault_of_entry hsearch h (search.integer_failsWith _ _)).bind fun _ _ => ?_
  refine (fault_of_entry hsearch h (search.integer_failsWith _ _)).bind fun _ _ => ?_
  refine (fault_of_part hstore (Section.neededPart_failsWith _ _)).bind fun store h => ?_
  replace h := Section.neededPart_eq_ok h
  refine (fault_of_entry hstore h (store.text_failsWith _ _)).bind fun _ _ => ?_
  refine (fault_of_part houtput (Section.part_failsWith _ _)).bind fun output h => ?_
  replace h := Section.part_eq_ok h
  refine (fault_of_entry houtput h (output.texts_failsWith _ _)).bind fun _ _ => ?_
  refine (fault_of_part hvocabulary (Section.part_failsWith _ _)).bind fun vocabulary h => ?_
  replace h := Section.part_eq_ok h
  refine (fault_of_inner_part hvocabulary h (by decide) (vocabulary.part_failsWith _)).bind fun presets hpresets => ?_
  replace hpresets := Section.part_eq_ok hpresets
  refine (FailsWith.mapM fun key _ => ?_).bind fun _ _ => ?_
  · exact (fault_of_inner_entry hvocabulary h hpresets (presets.integer_failsWith key _)).bind fun _ _ => failsWith_ok _
  refine (fault_of_inner_part hvocabulary h (by decide) (vocabulary.part_failsWith _)).bind fun kinds hkinds => ?_
  replace hkinds := Section.part_eq_ok hkinds
  refine (FailsWith.mapM fun key _ => ?_).bind fun _ _ => failsWith_ok _
  exact (fault_of_inner_entry hvocabulary h hkinds (kinds.texts_failsWith key _)).bind fun _ _ => failsWith_ok _

/-! ## Values that are not allowed -/

/-- A message with the name of a section in it. -/
def NamesSection (message : String) : Prop :=
  ∃ name ∈ sectionNames, name.toList <:+: message.toList

theorem namesSection_append (name : String) {front : String} (hname : name ∈ sectionNames) (h : name.toList <+: front.toList)
    (rest : String) : NamesSection (front ++ rest) := by
  refine ⟨name, hname, ?_⟩
  rw [String.toList_append]
  exact (h.trans (List.prefix_append _ _)).isInfix

theorem namesSection_of_isAbout {name : String} {e : EntryError} (hname : name ∈ sectionNames) (h : e.IsAbout name) :
    NamesSection e.message := by
  obtain ⟨entry, hentry, hstart⟩ := h
  exact ⟨name, hname, hstart.isInfix.trans (EntryError.isInfix_message hentry)⟩

/-- All that can be wrong with values names their section. -/
theorem namesSection_message {e : SettingsError} (hentry : ∀ cause, e ≠ .badEntry cause) (hroot : e ≠ .notAMapping) :
    NamesSection e.message := by
  cases e with
  | notAMapping => exact absurd rfl hroot
  | badEntry cause => exact absurd rfl (hentry cause)
  | unknownLevel => exact namesSection_append "log" (by decide) (by decide) _
  | emptyLogFolder => exact ⟨"log", by decide, by decide +kernel⟩
  | unknownOrder => exact namesSection_append "search" (by decide) (by decide) _
  | badLimit => exact ⟨"search", by decide, by decide +kernel⟩
  | badWorkers => exact ⟨"search", by decide, by decide +kernel⟩
  | emptyStorePath => exact ⟨"store", by decide, by decide +kernel⟩
  | noFormats => exact ⟨"output", by decide, by decide +kernel⟩
  | unknownFormats names => exact namesSection_append "output" (by decide) (by decide) _
  | emptyPreset => exact ⟨"vocabulary", by decide, by decide +kernel⟩
  | negativePreset word =>
    show NamesSection ("vocabulary.date_presets." ++ word ++ " must be >= 0")
    rw [String.append_assoc]
    exact namesSection_append "vocabulary" (by decide) (by decide) _
  | notAWord word => exact namesSection_append "vocabulary" (by decide) (by decide) _
  | noTags word =>
    show NamesSection ("vocabulary.type_mappings." ++ word ++ " must list at least one type")
    rw [String.append_assoc]
    exact namesSection_append "vocabulary" (by decide) (by decide) _

theorem formatsOf_failsWith (names : List String) : FailsWith (fun e => NamesSection e.message) (formatsOf names) := by
  unfold formatsOf
  split
  · exact failsWith_error (namesSection_message nofun nofun)
  · split
    · exact failsWith_ok _
    · exact failsWith_error (namesSection_message nofun nofun)

theorem checkPreset_failsWith (word : String) (days : Int) :
    FailsWith (fun e => NamesSection e.message) (checkPreset word days) := by
  unfold checkPreset
  split
  · exact failsWith_error (namesSection_message nofun nofun)
  · split
    · exact failsWith_error (namesSection_message nofun nofun)
    · exact failsWith_ok _

theorem checkKind_failsWith (word : String) (tags : List String) :
    FailsWith (fun e => NamesSection e.message) (checkKind word tags) := by
  unfold checkKind
  split
  · exact failsWith_error (namesSection_message nofun nofun)
  · split
    · exact failsWith_error (namesSection_message nofun nofun)
    · exact failsWith_ok _

theorem checkLexicon_failsWith (lexicon : Lexicon) :
    FailsWith (fun e => NamesSection e.message) (checkLexicon lexicon) :=
  (FailsWith.forM fun e _ => checkPreset_failsWith e.1 e.2).bind fun _ _ =>
    FailsWith.forM fun e _ => checkKind_failsWith e.1 e.2

theorem Draft.check_failsWith (d : Draft) : FailsWith (fun e => NamesSection e.message) d.check := by
  unfold Draft.check
  dsimp only
  split
  · split
    · exact failsWith_error (namesSection_message nofun nofun)
    split
    · split
      · exact failsWith_error (namesSection_message nofun nofun)
      split
      · exact failsWith_error (namesSection_message nofun nofun)
      split
      · exact failsWith_error (namesSection_message nofun nofun)
      exact (formatsOf_failsWith _).bind fun _ _ => (checkLexicon_failsWith _).bind fun _ _ => failsWith_ok _
    · exact failsWith_error (namesSection_message nofun nofun)
  · exact failsWith_error (namesSection_message nofun nofun)

/-- Whatever is wrong with settings, a section is named, unless a key is too long to be written. -/
theorem ofEntries_failsWith (entries : Entries) :
    FailsWith (fun e => NamesSection e.message ∨
      e = .badEntry .keyTooLong ∧ ∃ path ∈ tablePaths, Section.HasLongKey (tableAt entries path)) (ofEntries entries) := by
  refine FailsWith.bind (fun e he => ?_) fun d _ => d.check_failsWith.mono fun _ => .inl
  cases hdraft : Draft.ofSection ⟨"", entries⟩ with
  | ok d =>
    rw [hdraft] at he
    cases he
  | error cause =>
    rw [hdraft] at he
    cases he
    rcases Draft.ofSection_failsWith entries cause hdraft with ⟨name, hname, habout⟩ | ⟨rfl, hlong⟩
    · exact .inl (namesSection_of_isAbout hname habout)
    · exact .inr ⟨rfl, hlong⟩

end SearchBox.Settings

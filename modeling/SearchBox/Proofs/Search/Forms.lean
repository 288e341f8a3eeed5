import SearchBox.Proofs.Calendar.Moment
import SearchBox.Proofs.Search.Arrange
import SearchBox.Record.Kind
import SearchBox.Search.Gate

/-!
  SearchBox.Proofs.Search.Forms — records in different forms. A search reads of a record its
  fields but for the identifier, its tags and its creation time: records that agree in these
  (`ReadsAlike`) have the same search text and type tag, and fail the same gate
  (`ReadsAlike.explain`). A mapping, an object with the same names and the item made of the mapping
  agree if its text fields hold texts (`readsAlike_record`), so that the three are found and put in
  order alike (`forms_agree`).
-/

namespace SearchBox.Search

open SearchBox.Calendar SearchBox.Query SearchBox.Text

/-! ## What a search reads -/

/-- Records that agree in all that a search reads. -/
structure ReadsAlike (clock : Clock) (a b : Record) : Prop where
  field : ∀ f, f ≠ .id → a.field f = b.field f
  tags : a.tags = b.tags
  createdAt : a.createdAt clock = b.createdAt clock

namespace ReadsAlike

variable {clock : Clock} {a b c : Record}

theorem symm (h : ReadsAlike clock a b) : ReadsAlike clock b a :=
  ⟨fun f hf => (h.field f hf).symm, h.tags.symm, h.createdAt.symm⟩

theorem trans (hab : ReadsAlike clock a b) (hbc : ReadsAlike clock b c) : ReadsAlike clock a c :=
  ⟨fun f hf => (hab.field f hf).trans (hbc.field f hf), hab.tags.trans hbc.tags, hab.createdAt.trans hbc.createdAt⟩

theorem searchText (h : ReadsAlike clock a b) : a.searchText = b.searchText := by
  have hfields : Record.Field.searched.mapM a.field = Record.Field.searched.mapM b.field := by
    refine mapM_congr fun f hf => h.field f ?_
    rintro rfl
    exact absurd hf (by decide)
  rw [Record.searchText, Record.searchText, hfields, h.tags]

theorem kind (h : ReadsAlike clock a b) : a.kind = b.kind := by
  simp only [Record.kind, Record.isBare, Record.hasText, h.field .url nofun, h.field .type nofun, h.field .category nofun,
    h.field .notes nofun, h.field .title nofun]

theorem lowerField (h : ReadsAlike clock a b) {f : Record.Field} (hf : f ≠ .id) :
    Search.lowerField a f = Search.lowerField b f := by
  rw [Search.lowerField, Search.lowerField, h.field f hf]

/-- Records that agree pass the same gates, if their type tags are found to be the same. -/
theorem passes {m : Matcher} (h : ReadsAlike m.clock a b) (hkind : m.kind a = m.kind b) (f : Filter)
    (text : List Char) (g : Gate) : m.passes f a text g = m.passes f b text g := by
  have hurl := h.lowerField (f := .url) nofun
  have hnotes := h.lowerField (f := .notes) nofun
  have hcontent := h.lowerField (f := .content) nofun
  have hdescription := h.lowerField (f := .description) nofun
  cases g with
  | exclude | phrase | choice | term => rfl
  | type => rw [Matcher.passes, Matcher.passes, hkind]
  | site | format => rw [Matcher.passes, Matcher.passes, hurl]
  | tag => rw [Matcher.passes, Matcher.passes, h.tags]
  | since =>
    rw [Matcher.passes, Matcher.passes]
    simp only [Matcher.isSince, h.createdAt]
  | day =>
    rw [Matcher.passes, Matcher.passes]
    simp only [Matcher.isWithin, h.createdAt]
  | object => simp only [Matcher.passes, hnotes, hdescription]
  | text => simp only [Matcher.passes, hnotes, hcontent, hdescription]

theorem explain {m : Matcher} (h : ReadsAlike m.clock a b) (hkind : m.kind a = m.kind b) (f : Filter) :
    m.explain f a = m.explain f b := by
  have hgates : ∀ text gates, m.firstFailing f a text gates = m.firstFailing f b text gates := by
    intro text gates
    induction gates with
    | nil => rfl
    | cons g later ih => rw [Matcher.firstFailing, Matcher.firstFailing, h.passes hkind, ih]
  simp only [Matcher.explain, hgates, h.searchText]

end ReadsAlike

/-! ## Forms of a row -/

/-- The fields that a search reads hold texts or nothing. -/
def HasTexts (es : Entries) : Prop :=
  ∀ f : Record.Field, f ≠ .id → Entries.getOrNull es f.name = .null ∨ ∃ s, Entries.getOrNull es f.name = .text s

inductive Form where
  | mapping
  | object
  | item
  deriving DecidableEq, Repr

/-- A row in one of the forms: its entries, the same as attributes, or the item made of them. -/
def Form.record (form : Form) (row : Entries × Item) : Record :=
  match form with
  | mapping => .mapping row.1
  | object => .object row.1
  | item => .item row.2

theorem field_item {clock : Clock} {es : Entries} {i : Item} (hi : Item.ofEntries clock es = .ok i)
    (hes : HasTexts es) {f : Record.Field} (hf : f ≠ .id) : (Record.item i).field f = (Record.mapping es).field f := by
  have hlookup : (Record.item i).lookup f.name = Item.optional (Entries.getOrNull es f.name).text? := by
    obtain ⟨id, -, h⟩ := bind_eq_ok.1 hi
    obtain ⟨created, -, h⟩ := bind_eq_ok.1 h
    cases h
    cases f
    case id => exact absurd rfl hf
    all_goals rfl
  rw [Record.field, Record.field, hlookup]
  rcases hes f hf with hnull | ⟨s, hs⟩
  · rw [Record.lookup, hnull]
    rfl
  · rw [Record.lookup, hs]
    rfl

theorem tags_item {clock : Clock} {es : Entries} {i : Item} (hi : Item.ofEntries clock es = .ok i) :
    (Record.item i).tags = (Record.mapping es).tags := by
  obtain ⟨id, -, h⟩ := bind_eq_ok.1 hi
  obtain ⟨created, -, h⟩ := bind_eq_ok.1 h
  cases h
  show (((Record.tags (.mapping es)).map Value.text).filterMap Value.text?) = _
  rw [List.filterMap_map]
  exact List.filterMap_some

/-- A creation time that has been read once is read as itself. -/
theorem createdAt_item {clock : Clock} {es : Entries} {i : Item} (hi : Item.ofEntries clock es = .ok i) :
    (Record.item i).createdAt clock = (Record.mapping es).createdAt clock := by
  obtain ⟨id, -, h⟩ := bind_eq_ok.1 hi
  obtain ⟨created, hcreated, h⟩ := bind_eq_ok.1 h
  cases h
  rw [mapError_eq_ok.1 hcreated]
  cases created with
  | none => rfl
  | some moment => rfl

theorem readsAlike_record {clock : Clock} {row : Entries × Item} (hi : Item.ofEntries clock row.1 = .ok row.2)
    (hes : HasTexts row.1) (form other : Form) : ReadsAlike clock (form.record row) (other.record row) := by
  have hitem : ReadsAlike clock (.item row.2) (.mapping row.1) :=
    ⟨fun f hf => field_item hi hes hf, tags_item hi, createdAt_item hi⟩
  have hmapping : ∀ form : Form, ReadsAlike clock (form.record row) (.mapping row.1) := by
    intro form
    cases form with
    | mapping => exact ⟨fun _ _ => rfl, rfl, rfl⟩
    | object => exact ⟨fun _ _ => rfl, rfl, rfl⟩
    | item => exact hitem
  exact (hmapping form).trans (hmapping other).symm

/-! ## The order of records -/

section Arrange

variable {α β : Type} {key : β → Except InstantError (Option Moment)}
  {key' : α → Except InstantError (Option Moment)} {g : α → β}

theorem mapM_timed_map {xs : List α} (h : ∀ x ∈ xs, key (g x) = key' x) :
    ((xs.map g).mapM fun r => do return (← key r, r)) =
      (xs.mapM fun x => do return (← key' x, x)).map (List.map (Prod.map id g)) := by
  induction xs with
  | nil => rfl
  | cons x xs ih =>
    obtain ⟨hx, hxs⟩ := List.forall_mem_cons.1 h
    rw [List.map_cons, List.mapM_cons, List.mapM_cons, ih hxs, hx]
    cases key' x with
    | error e => rfl
    | ok t =>
      cases xs.mapM fun x => do return (← key' x, x) with
      | error e => rfl
      | ok timed => rfl

theorem filterMap_dated_map (timed : List (Option Moment × α)) :
    ((timed.map (Prod.map id g)).filterMap fun e => e.1.map (·, e.2)) =
      (timed.filterMap fun e => e.1.map (·, e.2)).map (Prod.map id g) := by
  rw [List.filterMap_map, List.map_filterMap]
  refine congrArg (List.filterMap · timed) (funext fun e => ?_)
  rcases e with ⟨_ | moment, x⟩ <;> rfl

theorem filterMap_undated_map (timed : List (Option Moment × α)) :
    ((timed.map (Prod.map id g)).filterMap fun e => if e.1.isNone then some e.2 else none) =
      (timed.filterMap fun e => if e.1.isNone then some e.2 else none).map g := by
  rw [List.filterMap_map, List.map_filterMap]
  refine congrArg (List.filterMap · timed) (funext fun e => ?_)
  rcases e with ⟨_ | moment, x⟩ <;> rfl

/-- Records are put in order by their creation times alone. -/
theorem arrange_map (order : Order) {xs : List α} (h : ∀ x ∈ xs, key (g x) = key' x) :
    arrange key order (xs.map g) = (arrange key' order xs).map (List.map g) := by
  by_cases horder : order = .store
  · rw [arrange, arrange, if_pos horder, if_pos horder]
    rfl
  · have hmap := mapM_timed_map h
    cases htimed : xs.mapM fun x => do return (← key' x, x) with
    | error e =>
      rw [htimed] at hmap
      rw [arrange, arrange, if_neg horder, if_neg horder, hmap, htimed]
      rfl
    | ok timed =>
      rw [htimed] at hmap
      rw [arrange_of_ne_store horder hmap, arrange_of_ne_store horder htimed, filterMap_dated_map, filterMap_undated_map,
        List.map_map]
      show (if areComparable ((timed.filterMap fun e => e.1.map (·, e.2)).map (·.1)) then _ else _) = _
      split
      · have hsorted := List.map_mergeSort (f := Prod.map id g) (r := fun a b : Moment × α => order.allows a.1 b.1)
          (s := fun a b : Moment × β => order.allows a.1 b.1) (l := timed.filterMap fun e => e.1.map (·, e.2))
          fun a _ b _ => rfl
        rw [← hsorted, List.map_map, Except.map, List.map_append, List.map_map]
        rfl
      · rfl

end Arrange

/-- Rows whose text fields hold texts or nothing, and that items can be made of, are the same to
    every search in each of their forms: they have the same search text, type tag and creation time,
    fail the same gate of every filter, and are put in the same order. -/
theorem forms_agree {clock : Clock} {rows : List (Entries × Item)}
    (hitems : ∀ row ∈ rows, Item.ofEntries clock row.1 = .ok row.2) (htexts : ∀ row ∈ rows, HasTexts row.1) :
    (∀ row ∈ rows, ∀ a b : Form,
      (a.record row).searchText = (b.record row).searchText ∧ (a.record row).kind = (b.record row).kind ∧
      (a.record row).createdAt clock = (b.record row).createdAt clock ∧
      ∀ (lexicon : Lexicon) (f : Filter), (Matcher.standard clock lexicon Record.kind).explain f (a.record row) =
        (Matcher.standard clock lexicon Record.kind).explain f (b.record row)) ∧
    ∀ (order : Order) (form : Form), arrange (Record.createdAt clock) order (rows.map form.record) =
      (arrange (fun row => (Form.mapping.record row).createdAt clock) order rows).map (List.map form.record) := by
  constructor
  · intro row hrow a b
    have hab := readsAlike_record (hitems row hrow) (htexts row hrow) a b
    refine ⟨hab.searchText, hab.kind, hab.createdAt, fun lexicon f => ?_⟩
    exact ReadsAlike.explain hab (congrArg (Except.mapError MatchError.noText) hab.kind) f
  · intro order form
    refine arrange_map order fun row hrow => ?_
    exact (readsAlike_record (hitems row hrow) (htexts row hrow) form .mapping).createdAt

/-- A row with its creation time in milliseconds and a tag that is no text, and one with a local
    time and a null for its title. -/
theorem forms_agree_two_rows :
    let clock : Clock := ⟨.universal (738000 * microsPerDay), ⟨⟨"EST", -18000⟩, none⟩⟩
    let shoes : Entries := [(.text "title", .text "Red Shoes"), (.text "tags", .list [.text "Sale", .int 7]),
      (.text "createdAt", .int 1700000000000), (.text "price", .int 50)]
    let memo : Entries := [(.text "title", .null), (.text "notes", .text "ΟΔΟΣ"), (.text "created_at", .null),
      (.text "createdAt", .text "2024-03-10T02:30")]
    ∃ i j, (∀ row ∈ [(shoes, i), (memo, j)], Item.ofEntries clock row.1 = .ok row.2 ∧ HasTexts row.1) ∧
      (Matcher.standard clock .builtin Record.kind).explain { since := some "week" } (.item j) =
        (Matcher.standard clock .builtin Record.kind).explain { since := some "week" } (.mapping memo) ∧
      arrange (Record.createdAt clock) .newest [.item i, .item j] =
        (arrange (fun row => (Form.mapping.record row).createdAt clock) .newest [(shoes, i), (memo, j)]).map
          (List.map Form.item.record) := by
  intro clock shoes memo
  have hshoes : (Item.ofEntries clock shoes).isOk = true := by decide +kernel
  have hmemo : (Item.ofEntries clock memo).isOk = true := by decide +kernel
  obtain ⟨i, hi⟩ := exists_of_isOk hshoes
  obtain ⟨j, hj⟩ := exists_of_isOk hmemo
  have hitems : ∀ row ∈ [(shoes, i), (memo, j)], Item.ofEntries clock row.1 = .ok row.2 := by
    simp only [List.forall_mem_cons, List.not_mem_nil, false_implies, implies_true, and_true]
    exact ⟨hi, hj⟩
  have htexts : ∀ row ∈ [(shoes, i), (memo, j)], HasTexts row.1 := by
    simp only [List.forall_mem_cons, List.not_mem_nil, false_implies, implies_true, and_true]
    constructor
    · rintro (_ | _ | _ | _ | _ | _ | _ | _) hf
      · exact absurd rfl hf
      · exact .inr ⟨_, rfl⟩
      all_goals exact .inl rfl
    · rintro (_ | _ | _ | _ | _ | _ | _ | _) hf
      · exact absurd rfl hf
      · exact .inl rfl
      · exact .inr ⟨_, rfl⟩
      all_goals exact .inl rfl
  obtain ⟨hsame, horder⟩ := forms_agree hitems htexts
  obtain ⟨-, -, -, hexplain⟩ := hsame (memo, j) (by simp) .item .mapping
  exact ⟨i, j, fun row hrow => ⟨hitems row hrow, htexts row hrow⟩, hexplain .builtin _, horder .newest .item⟩

end SearchBox.Search

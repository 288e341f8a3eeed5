import SearchBox.Proofs.Calendar.MomentText
import SearchBox.Proofs.Record.Texts
import SearchBox.Proofs.Search.Forms
import SearchBox.Proofs.Value
import SearchBox.Report.Document

/-!
  SearchBox.Proofs.Report.Document — the document of a record is a row that the same document is made
  of (`recordValue_read_again`). Its fields hold texts, which an item keeps as they are, and its tags
  are texts only; the text of the creation time is read as the same instant, with the same wall time
  and offset, and so is written as before.
-/

namespace SearchBox.Report

open SearchBox.Calendar SearchBox.Search

def documentEntries (r : Record) (created : Value) : Entries := [
  (.text "id", .text (r.textOf .id)),
  (.text "title", .text (r.textOf .title)),
  (.text "url", .text (r.textOf .url)),
  (.text "notes", .text (r.textOf .notes)),
  (.text "description", .text (r.textOf .description)),
  (.text "tags", .list (r.tags.map .text)),
  (.text "createdAt", created)]

def documentFields : List Record.Field :=
  [.id, .title, .url, .notes, .description]

theorem fieldText_eq_ok {r : Record} {f : Record.Field} {t : String} :
    fieldText r f = .ok t ↔ r.field f = .ok (r.textOf f) ∧ r.textOf f = t := by
  rw [fieldText, mapError_eq_ok]
  constructor
  · intro h
    rw [h, Record.textOf_of_field h]
    exact ⟨rfl, rfl⟩
  · rintro ⟨h, rfl⟩
    exact h

theorem recordValue_eq_ok {clock : Clock} {r : Record} {v : Value} :
    recordValue clock r = .ok v ↔ (∀ f ∈ documentFields, r.field f = .ok (r.textOf f)) ∧
      ∃ created value, r.createdAt clock = .ok created ∧ momentValue created = .ok value ∧
        v = .dict (documentEntries r value) := by
  constructor
  · intro h
    obtain ⟨created, hcreated, h⟩ := bind_eq_ok.1 h
    obtain ⟨id, hid, h⟩ := bind_eq_ok.1 h
    obtain ⟨title, htitle, h⟩ := bind_eq_ok.1 h
    obtain ⟨url, hurl, h⟩ := bind_eq_ok.1 h
    obtain ⟨notes, hnotes, h⟩ := bind_eq_ok.1 h
    obtain ⟨description, hdescription, h⟩ := bind_eq_ok.1 h
    obtain ⟨value, hvalue, h⟩ := bind_eq_ok.1 h
    cases h
    obtain ⟨hidField, rfl⟩ := fieldText_eq_ok.1 hid
    obtain ⟨htitleField, rfl⟩ := fieldText_eq_ok.1 htitle
    obtain ⟨hurlField, rfl⟩ := fieldText_eq_ok.1 hurl
    obtain ⟨hnotesField, rfl⟩ := fieldText_eq_ok.1 hnotes
    obtain ⟨hdescriptionField, rfl⟩ := fieldText_eq_ok.1 hdescription
    refine ⟨?_, created, value, mapError_eq_ok.1 hcreated, hvalue, rfl⟩
    simp only [documentFields, List.forall_mem_cons]
    exact ⟨hidField, htitleField, hurlField, hnotesField, hdescriptionField, nofun⟩
  · rintro ⟨hfields, created, value, hcreated, hvalue, rfl⟩
    have htext : ∀ f ∈ documentFields, fieldText r f = .ok (r.textOf f) := fun f hf => fieldText_eq_ok.2 ⟨hfields f hf, rfl⟩
    simp only [documentFields, List.forall_mem_cons] at htext
    obtain ⟨hid, htitle, hurl, hnotes, hdescription, -⟩ := htext
    simp only [recordValue, mapError_eq_ok.2 hcreated, hid, htitle, hurl, hnotes, hdescription, hvalue, ok_bind]
    rfl

/-- A document shows nothing of a record but these fields, the tags and the creation time. -/
theorem documentEntries_congr {a b : Record} (hfield : ∀ f ∈ documentFields, a.textOf f = b.textOf f)
    (htags : a.tags = b.tags) (created : Value) : documentEntries a created = documentEntries b created := by
  simp only [documentFields, List.forall_mem_cons] at hfield
  obtain ⟨hid, htitle, hurl, hnotes, hdescription, -⟩ := hfield
  rw [documentEntries, hid, htitle, hurl, hnotes, hdescription, htags, documentEntries]

/-! ## Documents as rows -/

section Row

variable (r : Record) (created : Value)

theorem field_document {f : Record.Field} (hf : f ∈ documentFields) :
    (Record.mapping (documentEntries r created)).field f = .ok (r.textOf f) := by
  have hlookup : (Record.mapping (documentEntries r created)).lookup f.name = .text (r.textOf f) := by
    simp only [documentFields, List.mem_cons, List.not_mem_nil, or_false] at hf
    rcases hf with rfl | rfl | rfl | rfl | rfl <;> rfl
  rw [Record.field, hlookup]
  exact Value.shownText_text _

theorem tags_document : (Record.mapping (documentEntries r created)).tags = r.tags := by
  show (r.tags.map Value.text).filterMap Value.text? = r.tags
  rw [List.filterMap_map]
  exact List.filterMap_some

theorem createdAtValue_document : (Record.mapping (documentEntries r created)).createdAtValue = created :=
  rfl

theorem hasTexts_document : HasTexts (documentEntries r created) := by
  intro f hf
  cases f with
  | id => exact absurd rfl hf
  | title | notes | url | description => exact .inr ⟨_, rfl⟩
  | content | type | category => exact .inl rfl

/-- An empty identifier counts as missing, and a missing one is empty. -/
theorem idOf_text (s : String) : Item.idOf (.text s) = .ok s := by
  by_cases hempty : s = ""
  · rw [hempty]
    rfl
  · have htrue : (Value.text s).isTruthy = true := decide_eq_true hempty
    rw [Item.idOf, if_pos htrue, Value.shownText_text]
    rfl

/-- An item can be made of a document whose creation time can be read. -/
theorem ofEntries_of_createdAt {clock : Clock} {moment : Option Moment}
    (h : Record.createdAt clock (.mapping (documentEntries r created)) = .ok moment) :
    ∃ i, Item.ofEntries clock (documentEntries r created) = .ok i ∧ i.id = r.textOf .id ∧ i.createdAt = moment := by
  have hid : Item.idOf (Entries.getOrNull (documentEntries r created) "id") = .ok (r.textOf .id) := idOf_text _
  rw [Item.ofEntries, hid, h]
  exact ⟨_, rfl, rfl, rfl⟩

/-- The item of a document has the fields of the record. -/
theorem field_item_document {clock : Clock} {i : Item} (hi : Item.ofEntries clock (documentEntries r created) = .ok i)
    (hid : i.id = r.textOf .id) {f : Record.Field} (hf : f ∈ documentFields) :
    (Record.item i).field f = .ok (r.textOf f) := by
  by_cases h : f = .id
  · rw [h, ← hid]
    exact Value.shownText_text i.id
  · rw [field_item hi (hasTexts_document r created) h, field_document r created hf]

end Row

/-! ## Creation times -/

/-- What is written of a creation time gives the same instant, and is written again. -/
theorem momentOf_momentValue {clock : Clock} (h : clock.zone.KeepsUniversalName) {today : Date}
    (htoday : clock.today? = some today) {created : Option Moment}
    (hcreated : ∀ m ∈ created, m.wall.onCalendar = true ∧ m.offset % 60000000 = 0) {value : Value}
    (hvalue : momentValue created = .ok value) :
    ∃ again, momentOf clock value = .ok again ∧ again.map Moment.instant = created.map Moment.instant ∧
      momentValue again = .ok value := by
  cases created with
  | none =>
    cases hvalue
    exact ⟨none, rfl, rfl, rfl⟩
  | some m =>
    obtain ⟨s, hs, h'⟩ := bind_eq_ok.1 hvalue
    cases h'
    have hs : m.text? = .ok s := mapError_eq_ok.1 hs
    obtain ⟨hwall, hwhole⟩ := hcreated m rfl
    obtain ⟨label, hread⟩ := momentOf_text h htoday (Moment.isWritable_of_text? hs hwall hwhole) hs
    exact ⟨_, hread, rfl, hvalue⟩

/-- The document of a record can be read as an item. The item has the fields and tags that the
    document shows of the record and its creation instant, and its document is the same. -/
theorem recordValue_read_again {clock : Clock} (h : clock.zone.KeepsUniversalName) {today : Date}
    (htoday : clock.today? = some today) {r : Record} {v : Value} (hv : recordValue clock r = .ok v)
    (hcreated : ∀ m, r.createdAt clock = .ok (some m) → m.wall.onCalendar = true ∧ m.offset % 60000000 = 0) :
    ∃ es i created, v = .dict es ∧ Item.ofEntries clock es = .ok i ∧
      (∀ f ∈ documentFields, (Record.item i).field f = r.field f) ∧ (Record.item i).tags = r.tags ∧
      r.createdAt clock = .ok created ∧ i.createdAt.map Moment.instant = created.map Moment.instant ∧
      recordValue clock (.item i) = .ok v := by
  obtain ⟨hfields, created, value, hr, hvalue, rfl⟩ := recordValue_eq_ok.1 hv
  have hmoment : ∀ m ∈ created, m.wall.onCalendar = true ∧ m.offset % 60000000 = 0 := by
    rintro m hm
    cases hm
    exact hcreated m hr
  obtain ⟨again, hread, hinstant, hagain⟩ := momentOf_momentValue h htoday hmoment hvalue
  have hrow : Record.createdAt clock (.mapping (documentEntries r value)) = .ok again := by
    rw [Record.createdAt, createdAtValue_document, hread]
  obtain ⟨i, hi, hid, rfl⟩ := ofEntries_of_createdAt r value hrow
  have hshown : ∀ f ∈ documentFields, (Record.item i).field f = .ok (r.textOf f) :=
    fun f hf => field_item_document r value hi hid hf
  have htexts : ∀ f ∈ documentFields, (Record.item i).textOf f = r.textOf f :=
    fun f hf => Record.textOf_of_field (hshown f hf)
  have htags : (Record.item i).tags = r.tags := (tags_item hi).trans (tags_document r value)
  have hitem : (Record.item i).createdAt clock = .ok i.createdAt := (createdAt_item hi).trans hrow
  refine ⟨documentEntries r value, i, created, rfl, hi, fun f hf => (hshown f hf).trans (hfields f hf).symm, htags, hr,
    hinstant, ?_⟩
  rw [← documentEntries_congr htexts htags value]
  exact recordValue_eq_ok.2 ⟨fun f hf => htexts f hf ▸ hshown f hf, i.createdAt, value, hitem, hagain, rfl⟩

/-- A number for a title, a tag that is no text, a year below a hundred, and half an hour in the offset. -/
theorem recordValue_read_again_half_hour :
    let zone : Zone := ⟨⟨"EST", -18000⟩, some ⟨⟨"EDT", -14400⟩, ⟨3, 2, 0, 7200⟩, ⟨11, 1, 0, 7200⟩⟩⟩
    let clock : Clock := ⟨.universal (738000 * microsPerDay), zone⟩
    let created : Moment := ⟨WallTime.on ⟨12, 11, 10, by decide⟩ ⟨23, 59, 59, 1⟩, -12600000000, "NST"⟩
    let row : Entries := [(.text "id", .int 7), (.text "title", .int 2024), (.text "tags", .list [.text "Sale", .int 7]),
      (.text "created_at", .scalar (.time (.fixed created)))]
    let document : Entries := [(.text "id", .text "7"), (.text "title", .text "2024"), (.text "url", .text ""),
      (.text "notes", .text ""), (.text "description", .text ""), (.text "tags", .list [.text "Sale"]),
      (.text "createdAt", .text "0012-11-10T23:59:59.000001-03:30")]
    recordValue clock (.mapping row) = .ok (.dict document) ∧
      ∃ i, Item.ofEntries clock document = .ok i ∧ i.createdAt.map Moment.instant = some created.instant ∧
        recordValue clock (.item i) = .ok (.dict document) := by
  intro zone clock created row document
  have hzone : clock.zone.KeepsUniversalName := by decide
  have htoday : clock.today? = some ⟨2021, 7, 29, by decide⟩ := by decide +kernel
  have htext : created.text? = .ok "0012-11-10T23:59:59.000001-03:30".toList := by decide +kernel
  have hfields : ∀ f ∈ documentFields, (Record.mapping row).field f = .ok ((Record.mapping row).textOf f) := by
    decide +kernel
  have htexts : documentFields.map (Record.mapping row).textOf = ["7", "2024", "", "", ""] := by decide +kernel
  have hdocument : recordValue clock (.mapping row) = .ok (.dict document) := by
    have hvalue : momentValue (some created) = .ok (.text "0012-11-10T23:59:59.000001-03:30") := by
      rw [momentValue, htext]
      rfl
    simp only [documentFields, List.map_cons, List.map_nil, List.cons.injEq, and_true] at htexts
    obtain ⟨hid, htitle, hurl, hnotes, hdescription⟩ := htexts
    refine recordValue_eq_ok.2 ⟨hfields, some created, _, rfl, hvalue, ?_⟩
    rw [documentEntries, hid, htitle, hurl, hnotes, hdescription]
    rfl
  have hcreated : ∀ m, (Record.mapping row).createdAt clock = .ok (some m) →
      m.wall.onCalendar = true ∧ m.offset % 60000000 = 0 := by
    intro m hm
    cases hm
    exact ⟨by decide +kernel, by decide⟩
  obtain ⟨es, i, read, hes, hi, -, -, hread, hinstant, hagain⟩ := recordValue_read_again hzone htoday hdocument hcreated
  cases hes
  cases hread
  exact ⟨hdocument, i, hi, hinstant, hagain⟩

end SearchBox.Report

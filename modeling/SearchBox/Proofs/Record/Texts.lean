import SearchBox.Proofs.Fallible
import SearchBox.Record.Kind

/-!
  SearchBox.Proofs.Record.Texts — records whose fields can be written. A field cannot if an integer
  with too many digits stands in its value, and for no other reason (`field_of_isWritable`,
  `field_of_not_isWritable`). A record has a search text if the fields that are searched can be
  written (`searchText_of_isSearchable`, `searchText_of_not_isSearchable`), and a type tag as well if
  all fields can that a search reads, which are all but the identifier (`IsWritable.exists_kind`).
-/

namespace SearchBox.Record

open SearchBox.Number SearchBox.Text

/-! ## One field -/

/-- The text of a field, which is empty where the field cannot be written. -/
def textOf (r : Record) (f : Field) : String :=
  (r.field f).toOption.getD ""

section Field

variable {r : Record} {f : Field}

theorem textOf_of_field {t : String} (h : r.field f = .ok t) : r.textOf f = t := by
  rw [textOf, h]
  rfl

theorem field_of_isWritable (h : (r.lookup f.name).isWritable = true) : r.field f = .ok (r.textOf f) := by
  have hfield : ∃ t, r.field f = .ok t := by
    rw [field]
    split
    · exact ⟨"", rfl⟩
    · exact ⟨_, if_pos h⟩
  obtain ⟨t, ht⟩ := hfield
  rw [ht, textOf_of_field ht]

theorem field_of_not_isWritable (h : (r.lookup f.name).isWritable = false) : r.field f = .error .tooManyDigits := by
  rw [field]
  split
  · rename_i hnull
    rw [hnull] at h
    cases h
  · rw [Value.shownText, h]
    rfl

theorem isWritable_of_field {t : String} (h : r.field f = .ok t) : (r.lookup f.name).isWritable = true := by
  rw [← Bool.not_eq_false]
  intro hnot
  rw [field_of_not_isWritable hnot] at h
  cases h

end Field

/-! ## All fields -/

/-- The fields that terms and phrases are searched in can be written. -/
def IsSearchable (r : Record) : Prop :=
  ∀ f ∈ Field.searched, (r.lookup f.name).isWritable = true

instance (r : Record) : Decidable r.IsSearchable :=
  inferInstanceAs (Decidable (∀ f ∈ Field.searched, (r.lookup f.name).isWritable = true))

/-- The fields that a search reads can be written. -/
def IsWritable (r : Record) : Prop :=
  ∀ f : Field, f ≠ .id → (r.lookup f.name).isWritable = true

instance (r : Record) : Decidable r.IsWritable :=
  decidable_of_iff (∀ f ∈ Field.all, f ≠ .id → (r.lookup f.name).isWritable = true)
    ⟨fun h f => h f (by cases f <;> decide), fun h f _ => h f⟩

def searched (r : Record) : List Char :=
  lower (joinWith [' '] (Field.searched.map (fun f => (r.textOf f).toList) ++
    [joinWith [' '] (r.tags.map String.toList)]))

section Fields

variable {r : Record}

theorem isSearchable_of_texts
    (h : ∀ f ∈ Field.searched, r.lookup f.name = .null ∨ ∃ s, r.lookup f.name = .text s) : r.IsSearchable := by
  intro f hf
  rcases h f hf with hnull | ⟨s, hs⟩
  · rw [hnull]
    rfl
  · rw [hs]
    rfl

theorem IsWritable.isSearchable (h : r.IsWritable) : r.IsSearchable := by
  intro f hf
  refine h f ?_
  rintro rfl
  exact absurd hf (by decide)

theorem IsWritable.field (h : r.IsWritable) {f : Field} (hf : f ≠ .id) : r.field f = .ok (r.textOf f) :=
  field_of_isWritable (h f hf)

theorem searchText_of_isSearchable (h : r.IsSearchable) : r.searchText = .ok r.searched := by
  rw [searchText, mapM_eq_ok fun f hf => field_of_isWritable (h f hf), ok_bind, List.map_map]
  rfl

theorem isSearchable_of_searchText {text : List Char} (h : r.searchText = .ok text) : r.IsSearchable := by
  obtain ⟨fields, hfields, -⟩ := bind_eq_ok.1 h
  intro f hf
  obtain ⟨t, ht⟩ := exists_mapM_iff.1 ⟨fields, hfields⟩ f hf
  exact isWritable_of_field ht

theorem searchText_of_not_isSearchable (h : ¬ r.IsSearchable) : r.searchText = .error .tooManyDigits := by
  cases hr : r.searchText with
  | ok text => exact absurd (isSearchable_of_searchText hr) h
  | error e =>
    cases e
    rfl

theorem IsWritable.exists_isBare (h : r.IsWritable) (url : List Char) : ∃ bare, r.isBare url = .ok bare := by
  rw [isBare, hasText, h.field (f := .notes) nofun, h.field (f := .title) nofun, ok_bind, ok_bind]
  split
  · split <;> exact ⟨_, rfl⟩
  · exact ⟨false, rfl⟩

theorem IsWritable.exists_kind (h : r.IsWritable) : ∃ tag, r.kind = .ok tag := by
  rw [kind, h.field (f := .url) nofun, h.field (f := .type) nofun, h.field (f := .category) nofun]
  simp only [ok_bind]
  split
  · exact ⟨"note", rfl⟩
  · obtain ⟨bare, hbare⟩ := h.exists_isBare (strip (r.textOf .url).toList)
    exact ⟨_, by rw [hbare]; rfl⟩

end Fields

/-- A record whose title is the least number that is too long to be written. -/
def overlong : Record :=
  .mapping [(.text "title", .int (.ofNat (tenTo digitLimit)))]

theorem not_isSearchable_overlong : ¬ overlong.IsSearchable := by
  decide +kernel

end SearchBox.Record

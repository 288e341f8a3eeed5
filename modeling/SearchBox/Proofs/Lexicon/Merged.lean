import SearchBox.Proofs.Lexicon.Tables
import SearchBox.Proofs.Value

/-!
  SearchBox.Proofs.Lexicon.Merged — lexicons with further entries. Additions come one after another,
  each with entries for both tables, in any form and with keys in any case. If no addition has two
  keys for one word, the last one that defines a word decides what it means, and words that none
  defines mean what they meant (`last_definition_wins`). Keys and tags stay lower-cased, no word gets
  a second place, and an addition made twice is made once.

  All of it is in what one addition does to each table (`merge_iff`), so a run of additions is an
  induction over `IsKept.merge` and `isAnswer_of_merge`. Within one addition there is no such rule
  (the example at the end): of two keys for one word, the one that is spelled as in the table is
  written in its place, and so comes before the other one.
-/

namespace SearchBox.Lexicon

open SearchBox.Text

/-! ## Lexicons as they are kept -/

/-- Lower-casing leaves all keys and tags as they are, and no two keys of a table are equal after it. -/
structure IsKept (l : Lexicon) : Prop where
  presets : l.presets.IsKept
  kinds : l.kinds.IsKept
  tags : ∀ e ∈ l.kinds, ∀ tag ∈ e.2, lowerText tag = tag

/-- The tags in a sequence of any kind, lower-cased. -/
def readTags (v : Value) : Except ShapeError (List String) := do
  (← v.members).mapM fun member => lowerText <$> textOf member

def tagsValue (tags : List String) : Value :=
  .list (tags.map .text)

theorem textOf_text (tag : String) : textOf (.text tag) = .ok tag := by
  rw [textOf, Value.shownText_text]
  rfl

theorem readTags_tagsValue (tags : List String) : readTags (tagsValue tags) = .ok (tags.map lowerText) := by
  show (tags.map Value.text).mapM (fun member => lowerText <$> textOf member) = _
  rw [List.mapM_map]
  exact mapM_eq_ok fun tag _ => congrArg (lowerText <$> ·) (textOf_text tag)

theorem IsKept.readTags {l : Lexicon} (h : l.IsKept) : ∀ e ∈ l.kinds, readTags (tagsValue e.2) = .ok e.2 := by
  intro e he
  rw [readTags_tagsValue]
  exact congrArg Except.ok ((List.map_congr_left (h.tags e he)).trans e.2.map_id)

theorem lowered_of_readTags (v : Value) (tags : List String) (h : readTags v = .ok tags) :
    ∀ tag ∈ tags, lowerText tag = tag := by
  obtain ⟨members, -, h⟩ := bind_eq_ok.1 h
  intro tag htag
  obtain ⟨member, -, hmember⟩ := exists_of_mem_mapM h htag
  obtain ⟨written, -, rfl⟩ := exists_of_map_eq_ok hmember
  exact lowerText_of_isLowered (isLowered_lowerText written)

theorem ofEntries_toInteger (es : Entries) :
    Table.ofEntries Value.toInteger es = (presetWrites es).map Table.ofWrites := by
  have hread : Table.readWrites Value.toInteger es = (presetWrites es).map (List.map fun e => (lowerText e.1, e.2)) := by
    refine mapM_eq_map (fun e => ?_) es
    obtain ⟨k, v⟩ := e
    show (textOf (.scalar k) >>= _) = (textOf (.scalar k) >>= _).map _
    cases textOf (.scalar k) with
    | error e => rfl
    | ok word => cases v.toInteger <;> simp [bind, Except.bind, pure, Except.pure, Except.map]
  rw [Table.ofEntries, hread]
  cases presetWrites es <;> rfl

theorem ofEntries_readTags (es : Entries) :
    Table.ofEntries readTags es =
      (kindWrites es).map fun writes => Table.ofWrites (writes.map fun e => (e.1, e.2.map lowerText)) := by
  have hread : Table.readWrites readTags es =
      (kindWrites es).map (List.map fun e => (lowerText e.1, e.2.map lowerText)) := by
    refine mapM_eq_map (fun e => ?_) es
    obtain ⟨k, v⟩ := e
    show (textOf (.scalar k) >>= _) = (textOf (.scalar k) >>= _).map _
    cases textOf (.scalar k) with
    | error e => rfl
    | ok word =>
      cases hv : v.members with
      | error e => simp [readTags, hv, bind, Except.bind, Except.map]
      | ok members =>
        have hlower : members.mapM (fun member => lowerText <$> textOf member) =
            (members.mapM textOf).map (List.map lowerText) := mapM_eq_map (fun _ => rfl) members
        cases hall : members.mapM textOf <;>
          simp [readTags, hv, hlower, hall, bind, Except.bind, pure, Except.pure, Except.map]
  rw [Table.ofEntries, hread]
  cases kindWrites es with
  | error e => rfl
  | ok writes =>
    refine congrArg (fun lowered => Except.ok (Table.update [] lowered)) ?_
    rw [List.map_map]
    rfl

theorem ofWrites_eq_ok {ps ks : Entries} {l : Lexicon} :
    (do return ofWrites (← presetWrites ps) (← kindWrites ks) : Except ShapeError Lexicon) = .ok l ↔
      Table.ofEntries Value.toInteger ps = .ok l.presets ∧ Table.ofEntries readTags ks = .ok l.kinds := by
  rw [ofEntries_toInteger, ofEntries_readTags]
  cases presetWrites ps with
  | error e => exact ⟨nofun, nofun⟩
  | ok presets =>
    cases kindWrites ks with
    | error e => exact ⟨nofun, nofun⟩
    | ok kinds =>
      obtain ⟨p, k⟩ := l
      simp [ofWrites, Except.map, bind, Except.bind, pure, Except.pure]

theorem ofValues_eq_ok {presets kinds : Value} {l : Lexicon} :
    ofValues presets kinds = .ok l ↔
      (∃ es, presets.entries = .ok es ∧ Table.ofEntries Value.toInteger es = .ok l.presets) ∧
        ∃ es, kinds.entries = .ok es ∧ Table.ofEntries readTags es = .ok l.kinds := by
  cases hp : presets.entries with
  | error e => simp [ofValues, hp, bind, Except.bind]
  | ok ps =>
    cases hk : kinds.entries with
    | error e => cases hw : presetWrites ps <;> simp [ofValues, hp, hk, hw, bind, Except.bind]
    | ok ks =>
      simp only [ofValues, hp, hk, ok_bind, ofWrites_eq_ok]
      simp

theorem merge_eq_ok {l l' : Lexicon} {presets kinds : Value} :
    l.merge presets kinds = .ok l' ↔
      (∃ es, l.presetEntries.update presets = .ok es ∧ Table.ofEntries Value.toInteger es = .ok l'.presets) ∧
        ∃ es, l.kindEntries.update kinds = .ok es ∧ Table.ofEntries readTags es = .ok l'.kinds := by
  cases hp : l.presetEntries.update presets with
  | error e => simp [merge, hp, bind, Except.bind]
  | ok ps =>
    cases hk : l.kindEntries.update kinds with
    | error e => simp [merge, hp, hk, bind, Except.bind]
    | ok ks =>
      simp only [merge, hp, hk, ok_bind, ofWrites_eq_ok]
      simp

/-- The lexicons that are kept so are those made of values, for one: of the entries that they show. -/
theorem isKept_iff {l : Lexicon} : l.IsKept ↔ ∃ presets kinds, ofValues presets kinds = .ok l := by
  constructor
  · intro h
    refine ⟨.dict l.presetEntries, .dict l.kindEntries, ofValues_eq_ok.2 ⟨⟨_, rfl, ?_⟩, _, rfl, ?_⟩⟩
    · exact h.presets.ofEntries_entries fun e _ => rfl
    · exact h.kinds.ofEntries_entries h.readTags
  · rintro ⟨presets, kinds, h⟩
    obtain ⟨⟨ps, -, hps⟩, ks, -, hks⟩ := ofValues_eq_ok.1 h
    obtain ⟨presetWrites, hpresets, hpresetsEq⟩ := exists_of_map_eq_ok hps
    obtain ⟨kindWrites, hkinds, hkindsEq⟩ := exists_of_map_eq_ok hks
    refine ⟨hpresetsEq ▸ Table.isKept_nil.update hpresets, hkindsEq ▸ Table.isKept_nil.update hkinds, fun e he => ?_⟩
    rw [← hkindsEq] at he
    rcases Table.mem_update he with hnil | hnew
    · cases hnil
    · obtain ⟨-, v, hv⟩ := Table.of_mem_readWrites hkinds hnew
      exact lowered_of_readTags v e.2 hv

/-! ## One addition -/

structure Addition where
  presets : Value
  kinds : Value

/-- No table is given two keys for one word. -/
structure Addition.IsDistinct (a : Addition) : Prop where
  presets : Table.HasDistinctWords a.presets
  kinds : Table.HasDistinctWords a.kinds

section Merge

variable {l l' : Lexicon} (hl : l.IsKept) {a : Addition} (ha : a.IsDistinct)
include hl ha

theorem merge_iff :
    l.merge a.presets a.kinds = .ok l' ↔
      Table.Merges Value.toInteger a.presets l.presets l'.presets ∧ Table.Merges readTags a.kinds l.kinds l'.kinds := by
  have hread : ∀ e ∈ l.presets, Value.toInteger (.int e.2) = .ok e.2 := fun e _ => rfl
  rw [merge_eq_ok, ← Table.merges_iff hl.presets hread ha.presets, ← Table.merges_iff hl.kinds hl.readTags ha.kinds]
  rfl

variable (h : l.merge a.presets a.kinds = .ok l')
include h

theorem IsKept.merge : l'.IsKept := by
  obtain ⟨hpresets, hkinds⟩ := (merge_iff hl ha).1 h
  exact ⟨hpresets.isKept hl.presets, hkinds.isKept hl.kinds, hkinds.forall_mem hl.tags lowered_of_readTags⟩

theorem IsKept.merge_merge : l'.merge a.presets a.kinds = .ok l' := by
  obtain ⟨hpresets, hkinds⟩ := (merge_iff hl ha).1 h
  exact (merge_iff (hl.merge ha h) ha).2 ⟨hpresets.again ha.presets, hkinds.again ha.kinds⟩

theorem isAnswer_of_merge (word : String) :
    Table.IsAnswer (fun v => v.toInteger.map some) (l.dayOffset? word) (l'.dayOffset? word)
        (Table.given? word a.presets) ∧
      Table.IsAnswer readTags (l.tagsOf word) (l'.tagsOf word) (Table.given? word a.kinds) := by
  obtain ⟨hpresets, hkinds⟩ := (merge_iff hl ha).1 h
  refine ⟨hpresets.isAnswer ha.presets word, ?_⟩
  have hanswer := hkinds.isAnswer ha.kinds word
  unfold tagsOf
  cases hgiven : Table.given? word a.kinds with
  | none =>
    rw [hgiven] at hanswer
    exact congrArg (·.getD []) hanswer
  | some v =>
    rw [hgiven] at hanswer
    obtain ⟨tags, htags, hlookup⟩ := exists_of_map_eq_ok hanswer
    rw [← hlookup]
    exact htags

end Merge

/-- Words with their days and their tags, merged as values, are laid over the lexicon as they are. -/
theorem merge_entries (l : Lexicon) (presets : List (String × Int)) (kinds : List (String × List String)) :
    l.merge (.dict (Table.entries .int presets)) (.dict (Table.entries tagsValue kinds)) = .ok (l.overlay presets kinds) := by
  refine merge_eq_ok.2 ⟨⟨_, Entries.update_dict _ _, ?_⟩, _, Entries.update_dict _ _, ?_⟩
  · have hread : ∀ e ∈ l.presets.update presets, Value.toInteger (.int e.2) = .ok (id e.2) := fun e _ => rfl
    show Table.ofEntries Value.toInteger ((Table.entries .int l.presets).writeAll (Table.entries .int presets)) = _
    rw [← Table.entries_update, Table.ofEntries_entries hread]
    exact congrArg (fun writes => Except.ok (Table.ofWrites writes)) (List.map_id _)
  · show Table.ofEntries readTags ((Table.entries tagsValue l.kinds).writeAll (Table.entries tagsValue kinds)) = _
    rw [← Table.entries_update, Table.ofEntries_entries fun e _ => readTags_tagsValue e.2]
    rfl

/-! ## Additions one after another -/

def mergeAll (l : Lexicon) (additions : List Addition) : Except ShapeError Lexicon :=
  additions.foldlM (fun l a => l.merge a.presets a.kinds) l

/-- The value that a word is given by the last of several changes that give it one. -/
def lastGiven? (word : String) (changes : List Value) : Option Value :=
  changes.reverse.findSome? (Table.given? word)

theorem lastGiven?_cons (word : String) (first : Value) (later : List Value) :
    lastGiven? word (first :: later) = (lastGiven? word later).or (Table.given? word first) := by
  rw [lastGiven?, List.reverse_cons, List.findSome?_append]
  cases h : Table.given? word first <;> simp [lastGiven?, h]

theorem mergeAll_append (l : Lexicon) (front later : List Addition) :
    l.mergeAll (front ++ later) = l.mergeAll front >>= fun merged => merged.mergeAll later :=
  List.foldlM_append

theorem mergeAll_singleton (l : Lexicon) (a : Addition) : l.mergeAll [a] = l.merge a.presets a.kinds := by
  show (l.merge a.presets a.kinds >>= pure) = _
  cases l.merge a.presets a.kinds <;> rfl

theorem IsKept.mergeAll {l final : Lexicon} (hl : l.IsKept) {additions : List Addition}
    (hdistinct : ∀ a ∈ additions, a.IsDistinct) (h : l.mergeAll additions = .ok final) : final.IsKept := by
  induction additions generalizing l with
  | nil =>
    cases h
    exact hl
  | cons a later ih =>
    obtain ⟨ha, hlater⟩ := List.forall_mem_cons.1 hdistinct
    obtain ⟨merged, hmerged, h⟩ := bind_eq_ok.1 h
    exact ih (hl.merge ha hmerged) hlater h

theorem isAnswer_of_mergeAll {l final : Lexicon} (hl : l.IsKept) {additions : List Addition}
    (hdistinct : ∀ a ∈ additions, a.IsDistinct) (h : l.mergeAll additions = .ok final) (word : String) :
    Table.IsAnswer (fun v => v.toInteger.map some) (l.dayOffset? word) (final.dayOffset? word)
        (lastGiven? word (additions.map Addition.presets)) ∧
      Table.IsAnswer readTags (l.tagsOf word) (final.tagsOf word) (lastGiven? word (additions.map Addition.kinds)) := by
  induction additions generalizing l with
  | nil =>
    cases h
    exact ⟨rfl, rfl⟩
  | cons a later ih =>
    obtain ⟨ha, hlater⟩ := List.forall_mem_cons.1 hdistinct
    obtain ⟨merged, hmerged, h⟩ := bind_eq_ok.1 h
    obtain ⟨hpreset, hkind⟩ := isAnswer_of_merge hl ha hmerged word
    obtain ⟨hlaterPreset, hlaterKind⟩ := ih (hl.merge ha hmerged) hlater h
    rw [List.map_cons, List.map_cons, lastGiven?_cons, lastGiven?_cons]
    exact ⟨hpreset.trans hlaterPreset, hkind.trans hlaterKind⟩

/-- Any lexicon, with additions made one after another, each without two keys for one word. A word
    has the days and the tags that the last addition with a key for it gives it, lower-cased on both
    sides, and what it had at first if there is no such addition. The keys and tags that result are
    lower-cased, no two keys of a table are equal, and each addition made a second time changes
    nothing. -/
theorem last_definition_wins {presets kinds : Value} {base final : Lexicon} {additions : List Addition}
    (hbase : ofValues presets kinds = .ok base) (hdistinct : ∀ a ∈ additions, a.IsDistinct)
    (hfinal : base.mergeAll additions = .ok final) :
    (∀ word,
      Table.IsAnswer (fun v => v.toInteger.map some) (base.dayOffset? word) (final.dayOffset? word)
          (lastGiven? word (additions.map Addition.presets)) ∧
        Table.IsAnswer readTags (base.tagsOf word) (final.tagsOf word)
          (lastGiven? word (additions.map Addition.kinds))) ∧
      final.IsKept ∧
      ∀ front a later, additions = front ++ a :: later →
        ∃ merged, base.mergeAll (front ++ [a]) = .ok merged ∧ merged.merge a.presets a.kinds = .ok merged := by
  have hkept : base.IsKept := isKept_iff.2 ⟨presets, kinds, hbase⟩
  refine ⟨isAnswer_of_mergeAll hkept hdistinct hfinal, hkept.mergeAll hdistinct hfinal, ?_⟩
  rintro front a later rfl
  obtain ⟨hfront, ha, -⟩ : (∀ b ∈ front, b.IsDistinct) ∧ a.IsDistinct ∧ ∀ b ∈ later, b.IsDistinct := by
    simpa [or_imp, forall_and] using hdistinct
  rw [mergeAll_append] at hfinal
  obtain ⟨before, hbefore, hfinal⟩ := bind_eq_ok.1 hfinal
  obtain ⟨merged, hmerged, -⟩ := bind_eq_ok.1 hfinal
  refine ⟨merged, ?_, (hkept.mergeAll hfront hbefore).merge_merge ha hmerged⟩
  rw [mergeAll_append, hbefore, ok_bind, mergeAll_singleton]
  exact hmerged

/-- A word in three spellings, one of them as the table has it, a final sigma, a dotted capital I
    that becomes two characters, offsets of three kinds, tags given as a text, and no entries at all. -/
theorem last_definition_wins_heute :
    let first : Addition := ⟨.dict [(.text "HEUTE", .text " 3 "), (.text "İ", .bool true)], .null⟩
    let second : Addition := ⟨.dict [(.text "heute", .int 4)], .dict [(.text "CLIP", .text "Ab")]⟩
    ∃ base final : Lexicon,
      ofValues (.dict [(.text "Heute", .int 0), (.text "ΟΔΟΣ", .int 7)])
        (.dict [(.text "Clip", .list [.text "YouTube"]), (.text "Bild", .tuple [.text "IMAGE"])]) = .ok base ∧
      first.IsDistinct ∧ second.IsDistinct ∧ base.mergeAll [first, second] = .ok final ∧
      final.dayOffset? "HeuTe" = some 4 ∧ final.dayOffset? "ΟΔΟΣ" = some 7 ∧ final.dayOffset? "İ" = some 1 ∧
      final.tagsOf "clip" = ["a", "b"] ∧ final.tagsOf "BILD" = ["image"] ∧ final.IsKept ∧
      final.merge second.presets second.kinds = .ok final := by
  intro first second
  let base : Lexicon := ⟨[("heute", 0), ("οδος", 7)], [("clip", ["youtube"]), ("bild", ["image"])]⟩
  let final : Lexicon := ⟨[("heute", 4), ("οδος", 7), ("i\u0307", 1)], [("clip", ["a", "b"]), ("bild", ["image"])]⟩
  have hbase : ofValues (.dict [(.text "Heute", .int 0), (.text "ΟΔΟΣ", .int 7)])
      (.dict [(.text "Clip", .list [.text "YouTube"]), (.text "Bild", .tuple [.text "IMAGE"])]) = .ok base := by
    decide +kernel
  have hfirst : first.IsDistinct := by
    constructor <;> intro es hes <;> cases hes <;> exact ⟨by simp [Entries.AreApart], by decide +kernel⟩
  have hsecond : second.IsDistinct := by
    constructor <;> intro es hes <;> cases hes <;> exact ⟨by simp [Entries.AreApart], by decide +kernel⟩
  have hfinal : base.mergeAll [first, second] = .ok final := by
    decide +kernel
  obtain ⟨hanswers, hkept, hagain⟩ := last_definition_wins hbase (by simp [hfirst, hsecond]) hfinal
  refine ⟨base, final, hbase, hfirst, hsecond, hfinal, ?_, ?_, ?_, ?_, ?_, hkept, ?_⟩
  · have hgiven : Except.ok (some 4) = Except.ok (final.dayOffset? "HeuTe") := (hanswers "HeuTe").1
    exact (Except.ok.inj hgiven).symm
  · exact (hanswers "ΟΔΟΣ").1
  · have hgiven : Except.ok (some 1) = Except.ok (final.dayOffset? "İ") := (hanswers "İ").1
    exact (Except.ok.inj hgiven).symm
  · have hgiven : Except.ok ["a", "b"] = Except.ok (final.tagsOf "clip") := (hanswers "clip").2
    exact (Except.ok.inj hgiven).symm
  · exact (hanswers "BILD").2
  · obtain ⟨merged, hmerged, hsame⟩ := hagain [first] second [] rfl
    have heq : final = merged := Except.ok.inj (hfinal.symm.trans hmerged)
    exact heq ▸ hsame

/-- Two keys for one word in one addition: the last one counts, unless the table has the word. -/
example :
    let addition : Value := .dict [(.text "Heute", .int 1), (.text "heute", .int 2)]
    ((⟨[("heute", 0)], []⟩ : Lexicon).merge addition .null).map (·.dayOffset? "heute") = .ok (some 1) ∧
      ((⟨[], []⟩ : Lexicon).merge addition .null).map (·.dayOffset? "heute") = .ok (some 2) := by
  decide +kernel

end SearchBox.Lexicon

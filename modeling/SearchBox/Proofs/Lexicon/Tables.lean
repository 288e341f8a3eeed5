import SearchBox.Proofs.Entries
import SearchBox.Proofs.Fallible
import SearchBox.Proofs.Lexicon
import SearchBox.Proofs.Value

/-!
  SearchBox.Proofs.Lexicon.Tables — a table of words with changes written over it. The changes are
  entries of any kind with keys in any case; the table is taken apart into entries, these are
  overwritten, and what results is read as a table again. A key that differs from one of the table
  in its case alone gets a place of its own on the way, behind the other one, and both are one word
  at the end.

  - `merges_iff`: all this is writing the changes to the table under their lower-cased keys, if no
    two of them are for one word.
  - `Merges.isKept`: keys stay lower-cased, and each has one place.
  - `Merges.isAnswer`: a word has what the changes give it, or what it had.
  - `Merges.again`: the same changes once more change nothing.
-/

namespace SearchBox

open SearchBox.Text

/-! ## Changes -/

namespace Entries

/-- Entries with others written to them one after another. -/
def writeAll (es writes : Entries) : Entries :=
  writes.foldl (fun es e => es.put e.1 e.2) es

/-- The entries that changes write. Null, false, zero and empty changes write none. -/
def ofChanges (changes : Value) : Except ShapeError Entries :=
  if changes.isTruthy then ofValue changes else .ok []

theorem update_eq (es : Entries) (changes : Value) : es.update changes = (ofChanges changes).map (writeAll es) := by
  unfold update ofChanges
  split
  · cases ofValue changes <;> rfl
  · rfl

theorem update_dict (es writes : Entries) : es.update (.dict writes) = .ok (es.writeAll writes) := by
  cases writes <;> rfl

theorem find?_writeAll {writes : Entries} (h : writes.AreApart) (es : Entries) (key : Scalar) :
    find? key (writeAll es writes) = (find? key writes).or (find? key es) := by
  induction writes generalizing es with
  | nil => rfl
  | cons e later ih =>
    obtain ⟨k, v⟩ := e
    show find? key (writeAll (es.put k v) later) = _
    rw [ih (List.pairwise_cons.1 h).2, find?_put, find?]
    by_cases hkey : k.sameKey key = true
    · rw [h.find?_of_sameKey hkey, if_pos hkey, if_pos hkey]
      rfl
    · rw [if_neg hkey, if_neg hkey]

theorem mem_keys_writeAll {es writes : Entries} {k : Scalar} (h : k ∈ (es.writeAll writes).map Prod.fst) :
    k ∈ es.map Prod.fst ∨ k ∈ writes.map Prod.fst := by
  induction writes generalizing es with
  | nil => exact .inl h
  | cons e later ih =>
    rcases @ih (es.put e.1 e.2) h with hput | hlater
    · rw [keys_put] at hput
      split at hput
      · rcases List.mem_append.1 hput with hold | hnew
        · exact .inl hold
        · exact .inr (List.mem_cons.2 (.inl (List.mem_singleton.1 hnew)))
      · exact .inl hput
    · exact .inr (List.mem_cons_of_mem _ hlater)

end Entries

namespace Table

/-- The word that a key is for. -/
def wordOf (key : Scalar) : String :=
  lowerText (String.ofList key.shown)

def wordsOf (es : Entries) : List String :=
  (es.map Prod.fst).map wordOf

/-- No two entries that changes write have one key, or keys that are equal after lower-casing. -/
def HasDistinctWords (changes : Value) : Prop :=
  ∀ es, Entries.ofChanges changes = .ok es → es.AreApart ∧ (wordsOf es).Nodup

theorem wordOf_text (word : String) : wordOf (.text word) = lowerText word :=
  congrArg lowerText String.ofList_toList

theorem textOf_eq_ok {key : Scalar} {t : String} :
    Lexicon.textOf (.scalar key) = .ok t ↔ key.isWritable = true ∧ String.ofList key.shown = t :=
  mapError_eq_ok.trans Value.shownText_eq_ok

section Reading

variable {α : Type} {read : Value → Except ShapeError α}

def readWrites (read : Value → Except ShapeError α) (es : Entries) : Except ShapeError (Table α) :=
  es.mapM fun e => do return (lowerText (← Lexicon.textOf (.scalar e.1)), ← read e.2)

def ofEntries (read : Value → Except ShapeError α) (es : Entries) : Except ShapeError (Table α) :=
  (readWrites read es).map (update [])

theorem readWrite_eq_ok {e : Scalar × Value} {write : String × α} :
    (do return (lowerText (← Lexicon.textOf (.scalar e.1)), ← read e.2) : Except ShapeError (String × α)) = .ok write ↔
      e.1.isWritable = true ∧ ∃ a, read e.2 = .ok a ∧ write = (wordOf e.1, a) := by
  constructor
  · intro h
    obtain ⟨t, ht, h⟩ := bind_eq_ok.1 h
    obtain ⟨a, ha, h⟩ := bind_eq_ok.1 h
    cases h
    obtain ⟨hkey, rfl⟩ := textOf_eq_ok.1 ht
    exact ⟨hkey, a, ha, rfl⟩
  · rintro ⟨hkey, a, ha, rfl⟩
    exact bind_eq_ok.2 ⟨_, textOf_eq_ok.2 ⟨hkey, rfl⟩, bind_eq_ok.2 ⟨a, ha, rfl⟩⟩

theorem readWrites_cons {k : Scalar} {v : Value} {rest : Entries} {writes : Table α} :
    readWrites read ((k, v) :: rest) = .ok writes ↔
      k.isWritable = true ∧ ∃ a later, read v = .ok a ∧ readWrites read rest = .ok later ∧
        writes = (wordOf k, a) :: later := by
  rw [readWrites, List.mapM_cons]
  constructor
  · intro h
    obtain ⟨w, hw, h⟩ := bind_eq_ok.1 h
    obtain ⟨later, hlater, h⟩ := bind_eq_ok.1 h
    cases h
    obtain ⟨hkey, a, ha, rfl⟩ := readWrite_eq_ok.1 hw
    exact ⟨hkey, a, later, ha, hlater, rfl⟩
  · rintro ⟨hkey, a, later, ha, hlater, rfl⟩
    exact bind_eq_ok.2 ⟨_, readWrite_eq_ok.2 ⟨hkey, a, ha, rfl⟩, bind_eq_ok.2 ⟨later, hlater, rfl⟩⟩

theorem keys_readWrites {es : Entries} {writes : Table α} (h : readWrites read es = .ok writes) :
    writes.map Prod.fst = wordsOf es := by
  induction es generalizing writes with
  | nil =>
    cases h
    rfl
  | cons e rest ih =>
    obtain ⟨-, a, later, -, hlater, rfl⟩ := readWrites_cons.1 h
    exact congrArg (wordOf e.1 :: ·) (ih hlater)

theorem of_mem_readWrites {es : Entries} {writes : Table α} (h : readWrites read es = .ok writes) {e : String × α}
    (he : e ∈ writes) : lowerText e.1 = e.1 ∧ ∃ v, read v = .ok e.2 := by
  obtain ⟨entry, -, hentry⟩ := exists_of_mem_mapM h he
  obtain ⟨-, a, ha, rfl⟩ := readWrite_eq_ok.1 hentry
  exact ⟨lowerText_of_isLowered (isLowered_lowerText _), entry.2, ha⟩

/-! ## Entries overwritten -/

/-- Entries have at most one place for a key: no other key takes it, and no other is for its word. -/
structure HasOnePlace (es : Entries) (key : Scalar) : Prop where
  same : ∀ k ∈ es.map Prod.fst, k.sameKey key = true → k = key
  once : (wordsOf es).count (wordOf key) ≤ 1

theorem HasOnePlace.put {es : Entries} {key other : Scalar} (h : HasOnePlace es key) (hsame : other.sameKey key = false)
    (hword : wordOf other ≠ wordOf key) (v : Value) : HasOnePlace (Entries.put other v es) key := by
  have hkeys := Entries.keys_put other v es
  split at hkeys
  · refine ⟨?_, ?_⟩
    · rw [hkeys]
      refine List.forall_mem_append.2 ⟨h.same, List.forall_mem_singleton.2 fun hk => ?_⟩
      rw [hsame] at hk
      cases hk
    · have hnone : [wordOf other].count (wordOf key) = 0 := List.count_eq_zero.2 (by simpa using Ne.symm hword)
      rw [wordsOf, hkeys, List.map_append, List.count_append]
      exact hnone.symm ▸ h.once
  · exact ⟨hkeys ▸ h.same, by rw [wordsOf, hkeys]; exact h.once⟩

theorem readWrites_put {es : Entries} {key : Scalar} (hplace : HasOnePlace es key) (hkey : key.isWritable = true) {v : Value} {a : α}
    (hv : read v = .ok a) {writes : Table α} (h : readWrites read es = .ok writes) (t : Table α) :
    ∃ after, readWrites read (Entries.put key v es) = .ok after ∧ update t after = put (wordOf key) a (update t writes) := by
  -- Over the entries, for any table: those in front of the place have been written to it already.
  induction es generalizing writes t with
  | nil =>
    cases h
    exact ⟨[(wordOf key, a)], readWrites_cons.2 ⟨hkey, a, [], hv, rfl, rfl⟩, rfl⟩
  | cons e rest ih =>
    obtain ⟨k, old⟩ := e
    obtain ⟨hk, b, later, hb, hlater, rfl⟩ := readWrites_cons.1 h
    obtain ⟨hsame, hrest⟩ := List.forall_mem_cons.1 hplace.same
    have honce : (wordOf k :: wordsOf rest).count (wordOf key) ≤ 1 := hplace.once
    rw [List.count_cons] at honce
    rw [Entries.put]
    split
    · rename_i hsameKey
      cases hsame hsameKey
      have hnot : wordOf k ∉ later.map Prod.fst := by
        rw [keys_readWrites hlater, ← List.count_eq_zero]
        simpa using honce
      have hword : wordOf k ∈ (put (wordOf k) b t).map Prod.fst :=
        List.mem_map_of_mem (mem_of_lookup (lookup_put_self (wordOf k) b t))
      refine ⟨(wordOf k, a) :: later, readWrites_cons.2 ⟨hkey, a, later, hv, hlater, rfl⟩, ?_⟩
      show update (put (wordOf k) a t) later = put (wordOf k) a (update (put (wordOf k) b t) later)
      rw [← update_put hword hnot, put_put]
    · obtain ⟨after, hafter, heq⟩ := ih ⟨hrest, by omega⟩ hlater (put (wordOf k) b t)
      exact ⟨(wordOf k, b) :: after, readWrites_cons.2 ⟨hk, b, after, hb, hafter, rfl⟩, heq⟩

theorem ofEntries_put {es : Entries} {key : Scalar} (hplace : HasOnePlace es key) (hkey : key.isWritable = true) {v : Value} {a : α}
    (hv : read v = .ok a) {t : Table α} (h : ofEntries read es = .ok t) :
    ofEntries read (Entries.put key v es) = .ok (put (wordOf key) a t) := by
  obtain ⟨writes, hwrites, rfl⟩ := exists_of_map_eq_ok h
  obtain ⟨after, hafter, heq⟩ := readWrites_put hplace hkey hv hwrites []
  rw [ofEntries, hafter, ← heq]
  rfl

theorem ofEntries_writeAll {changed : Entries} (hapart : changed.AreApart) (hwords : (wordsOf changed).Nodup)
    {es : Entries} (hplace : ∀ e ∈ changed, HasOnePlace es e.1) {t writes : Table α} (h : ofEntries read es = .ok t)
    (hwrites : readWrites read changed = .ok writes) : ofEntries read (es.writeAll changed) = .ok (update t writes) := by
  -- Over the changes: each is for another word, so the later ones keep their one place.
  induction changed generalizing es t writes with
  | nil =>
    cases hwrites
    exact h
  | cons e later ih =>
    obtain ⟨hkey, a, rest, ha, hrest, rfl⟩ := readWrites_cons.1 hwrites
    obtain ⟨hsame, hapart⟩ := List.pairwise_cons.1 hapart
    obtain ⟨hnew, hwords⟩ := List.nodup_cons.1 hwords
    obtain ⟨hhere, hlater⟩ := List.forall_mem_cons.1 hplace
    have hstill : ∀ d ∈ later, HasOnePlace (Entries.put e.1 e.2 es) d.1 := by
      refine fun d hd => (hlater d hd).put (hsame d hd) (fun heq => hnew ?_) e.2
      rw [heq]
      exact List.mem_map_of_mem (List.mem_map_of_mem hd)
    show ofEntries read ((es.put e.1 e.2).writeAll later) = .ok (update (put (wordOf e.1) a t) rest)
    exact ih hapart hwords hstill (ofEntries_put hhere hkey ha h) hrest

theorem exists_readWrites {changed : Entries} (hapart : changed.AreApart) {es : Entries}
    (hplace : ∀ e ∈ changed, HasOnePlace es e.1) {t : Table α} (h : ofEntries read (es.writeAll changed) = .ok t) :
    ∃ writes, readWrites read changed = .ok writes := by
  obtain ⟨all, hall, -⟩ := exists_of_map_eq_ok h
  refine exists_mapM_iff.2 fun e he => ?_
  have hfind : Entries.find? e.1 (es.writeAll changed) = some e.2 := by
    rw [Entries.find?_writeAll hapart, hapart.find?_of_mem he]
    rfl
  obtain ⟨k, hk, hsame⟩ := Entries.mem_of_find? hfind
  obtain ⟨w, hw⟩ := exists_mapM_iff.1 ⟨all, hall⟩ _ hk
  obtain ⟨hkey, a, ha, -⟩ := readWrite_eq_ok.1 hw
  -- The key is that of the change: no other one has its place, before or among the changes.
  have heq : k = e.1 := by
    rcases Entries.mem_keys_writeAll (List.mem_map_of_mem hk) with hold | hnew
    · exact (hplace e he).same k hold hsame
    · exact hapart.eq_of_sameKey hnew (List.mem_map_of_mem he) hsame
  exact ⟨(wordOf e.1, a), readWrite_eq_ok.2 ⟨heq ▸ hkey, a, ha, rfl⟩⟩

end Reading

/-! ## Tables as they are kept -/

variable {α : Type}

/-- Lower-casing leaves all keys as they are, and no two are equal after it. -/
structure IsKept (t : Table α) : Prop where
  lowered : ∀ e ∈ t, lowerText e.1 = e.1
  apart : (t.map fun e => lowerText e.1).Nodup

theorem isKept_of_nodup {t : Table α} (hlowered : ∀ e ∈ t, lowerText e.1 = e.1) (h : (t.map Prod.fst).Nodup) : IsKept t :=
  ⟨hlowered, (List.map_congr_left hlowered).symm ▸ h⟩

theorem isKept_nil : IsKept ([] : Table α) :=
  ⟨nofun, List.nodup_nil⟩

def entries (shown : α → Value) (t : Table α) : Entries :=
  t.map fun e => (.text e.1, shown e.2)

theorem keys_entries (shown : α → Value) (t : Table α) : (t.entries shown).map Prod.fst = (t.map Prod.fst).map .text := by
  rw [entries, List.map_map, List.map_map]
  rfl

theorem entries_put (shown : α → Value) (key : String) (v : α) (t : Table α) :
    (put key v t).entries shown = (t.entries shown).put (.text key) (shown v) := by
  induction t with
  | nil => rfl
  | cons e rest ih =>
    obtain ⟨k, u⟩ := e
    show entries shown (put key v ((k, u) :: rest)) = Entries.put (.text key) (shown v) ((.text k, shown u) :: entries shown rest)
    rw [put, Entries.put, Scalar.sameKey_text, ← ih]
    by_cases hk : k = key <;> simp [hk, entries]

theorem entries_update (shown : α → Value) (t writes : Table α) :
    (t.update writes).entries shown = (t.entries shown).writeAll (writes.entries shown) := by
  induction writes generalizing t with
  | nil => rfl
  | cons w writes ih =>
    show ((put w.1 w.2 t).update writes).entries shown = _
    rw [ih, entries_put]
    rfl

section Merging

variable {read : Value → Except ShapeError α} {shown : α → Value} {t : Table α}

theorem ofEntries_entries {f : α → α} (hshown : ∀ e ∈ t, read (shown e.2) = .ok (f e.2)) :
    ofEntries read (t.entries shown) = .ok (ofWrites (t.map fun e => (e.1, f e.2))) := by
  have hread : readWrites read (t.entries shown) = .ok ((t.map fun e => (e.1, f e.2)).map fun e => (lowerText e.1, e.2)) := by
    induction t with
    | nil => rfl
    | cons e rest ih =>
      obtain ⟨he, hrest⟩ := List.forall_mem_cons.1 hshown
      exact readWrites_cons.2 ⟨rfl, f e.2, _, he, ih hrest, by rw [wordOf_text]; rfl⟩
  rw [ofEntries, hread]
  rfl

theorem IsKept.nodup (h : IsKept t) : (t.map Prod.fst).Nodup :=
  List.map_congr_left h.lowered ▸ h.apart

theorem IsKept.update (ht : IsKept t) {es : Entries} {writes : Table α} (h : readWrites read es = .ok writes) :
    IsKept (t.update writes) := by
  refine isKept_of_nodup (fun e he => ?_) (nodup_keys_update ht.nodup writes)
  rcases mem_update he with hold | hnew
  · exact ht.lowered e hold
  · exact (of_mem_readWrites h hnew).1

theorem IsKept.hasOnePlace (ht : IsKept t) (shown : α → Value) (key : Scalar) : HasOnePlace (t.entries shown) key := by
  constructor
  · intro k hk hsame
    rw [keys_entries] at hk
    obtain ⟨word, -, rfl⟩ := List.mem_map.1 hk
    exact (Scalar.eq_text_of_sameKey hsame).symm
  · have hwords : wordsOf (t.entries shown) = t.map Prod.fst := by
      rw [wordsOf, keys_entries, List.map_map, List.map_map]
      exact List.map_congr_left fun e he => (wordOf_text e.1).trans (ht.lowered e he)
    rw [hwords]
    exact List.nodup_iff_count.1 ht.nodup (wordOf key)

/-- A table is the table of the entries that it shows. -/
theorem IsKept.ofEntries_entries (ht : IsKept t) (hshown : ∀ e ∈ t, read (shown e.2) = .ok e.2) :
    ofEntries read (t.entries shown) = .ok t := by
  have hmap : (t.map fun e => (e.1, id e.2)) = t := t.map_id
  rw [Table.ofEntries_entries (f := id) hshown, hmap, ofWrites_eq_self (fun e he => ?_) ht.nodup]
  rw [← ht.lowered e he]
  exact isLowered_lowerText e.1

/-- A table with changes written over it, under their lower-cased keys. -/
def Merges (read : Value → Except ShapeError α) (changes : Value) (before after : Table α) : Prop :=
  ∃ es writes, Entries.ofChanges changes = .ok es ∧ readWrites read es = .ok writes ∧ after = update before writes

variable {changes : Value} {after : Table α}

theorem merges_iff (ht : IsKept t) (hshown : ∀ e ∈ t, read (shown e.2) = .ok e.2) (hchanges : HasDistinctWords changes) :
    (∃ es, (t.entries shown).update changes = .ok es ∧ ofEntries read es = .ok after) ↔ Merges read changes t after := by
  have hplace (es : Entries) : ∀ e ∈ es, HasOnePlace (t.entries shown) e.1 := fun e _ => ht.hasOnePlace shown e.1
  have htable := ht.ofEntries_entries hshown
  rw [Entries.update_eq]
  constructor
  · rintro ⟨es, hes, hafter⟩
    obtain ⟨changed, hchanged, rfl⟩ := exists_of_map_eq_ok hes
    obtain ⟨hapart, hwords⟩ := hchanges changed hchanged
    obtain ⟨writes, hwrites⟩ := exists_readWrites hapart (hplace changed) hafter
    rw [ofEntries_writeAll hapart hwords (hplace changed) htable hwrites] at hafter
    cases hafter
    exact ⟨changed, writes, hchanged, hwrites, rfl⟩
  · rintro ⟨changed, writes, hchanged, hwrites, rfl⟩
    obtain ⟨hapart, hwords⟩ := hchanges changed hchanged
    refine ⟨(t.entries shown).writeAll changed, by rw [hchanged]; rfl, ?_⟩
    exact ofEntries_writeAll hapart hwords (hplace changed) htable hwrites

theorem Merges.isKept (h : Merges read changes t after) (ht : IsKept t) : IsKept after := by
  obtain ⟨es, writes, -, hwrites, rfl⟩ := h
  exact ht.update hwrites

/-- What is true of the values that were there, and of all that can be read, is true of the values. -/
theorem Merges.forall_mem {P : α → Prop} (h : Merges read changes t after) (ht : ∀ e ∈ t, P e.2)
    (hread : ∀ v a, read v = .ok a → P a) : ∀ e ∈ after, P e.2 := by
  obtain ⟨es, writes, -, hwrites, rfl⟩ := h
  intro e he
  rcases mem_update he with hold | hnew
  · exact ht e hold
  · obtain ⟨-, v, hv⟩ := of_mem_readWrites hwrites hnew
    exact hread v e.2 hv

theorem Merges.again (hchanges : HasDistinctWords changes) (h : Merges read changes t after) :
    Merges read changes after after := by
  obtain ⟨es, writes, hes, hwrites, rfl⟩ := h
  have hnodup : (writes.map Prod.fst).Nodup := keys_readWrites hwrites ▸ (hchanges es hes).2
  exact ⟨es, writes, hes, hwrites, (update_update hnodup t).symm⟩

end Merging

/-! ## Answers -/

/-- The value that changes give a word, whatever the case of their keys. -/
def given? (word : String) (changes : Value) : Option Value :=
  match Entries.ofChanges changes with
  | .ok es => (es.map fun e => (wordOf e.1, e.2)).lookup (lowerText word)
  | .error _ => none

/-- The answer for a word: what is read from the value given to it, or the answer from before. -/
def IsAnswer {β : Type} (read : Value → Except ShapeError β) (before answer : β) : Option Value → Prop
  | some v => read v = .ok answer
  | none => answer = before

theorem IsAnswer.trans {β : Type} {read : Value → Except ShapeError β} {a b c : β} {first second : Option Value}
    (hfirst : IsAnswer read a b first) (hsecond : IsAnswer read b c second) : IsAnswer read a c (second.or first) := by
  cases second with
  | some v => exact hsecond
  | none =>
    cases hsecond
    exact hfirst

variable {read : Value → Except ShapeError α} {changes : Value} {t after : Table α}

theorem lookup_readWrites {es : Entries} {writes : Table α} (h : readWrites read es = .ok writes) (word : String) :
    IsAnswer (fun v => (read v).map some) none (writes.lookup word) ((es.map fun e => (wordOf e.1, e.2)).lookup word) := by
  induction es generalizing writes with
  | nil =>
    cases h
    rfl
  | cons e rest ih =>
    obtain ⟨-, a, later, ha, hlater, rfl⟩ := readWrites_cons.1 h
    rw [List.map_cons, List.lookup_cons, List.lookup_cons]
    split
    · exact congrArg (Except.map some) ha
    · exact ih hlater

theorem Merges.isAnswer (hchanges : HasDistinctWords changes) (h : Merges read changes t after) (word : String) :
    IsAnswer (fun v => (read v).map some) (t.lookup (lowerText word)) (after.lookup (lowerText word))
      (given? word changes) := by
  obtain ⟨es, writes, hes, hwrites, rfl⟩ := h
  have hnodup : (writes.map Prod.fst).Nodup := keys_readWrites hwrites ▸ (hchanges es hes).2
  have hanswer := lookup_readWrites hwrites (lowerText word)
  rw [lookup_update, lookup_reverse hnodup, given?, hes]
  dsimp only
  cases hgiven : (es.map fun e => (wordOf e.1, e.2)).lookup (lowerText word) with
  | none =>
    rw [hgiven] at hanswer
    have hnone : writes.lookup (lowerText word) = none := hanswer
    rw [hnone]
    rfl
  | some v =>
    rw [hgiven] at hanswer
    obtain ⟨a, ha, hsome⟩ := exists_of_map_eq_ok hanswer
    rw [← hsome]
    exact congrArg (Except.map some) ha

end Table
end SearchBox

import SearchBox.Lexicon
import SearchBox.Proofs.Text.LowerCase

/-!
  SearchBox.Proofs.Lexicon — what the tables of keywords hold. A table holds what has been
  written to it (`mem_ofWrites`), a word what was written to it last (`lookup_update`), and the same
  writes made again change nothing (`update_update`). So a word that a lexicon knows is one of the
  keys it was given, whatever the case (`exists_of_dayOffset?`), and the tags it stands for are
  lower-cased (`isLowered_of_mem_tagsOf`).
-/

namespace SearchBox

open SearchBox.Text

namespace Table

variable {α : Type}

theorem mem_put {key : String} {value : α} {e : String × α} {t : Table α} (h : e ∈ put key value t) :
    e = (key, value) ∨ e ∈ t := by
  induction t with
  | nil => exact .inl (List.mem_singleton.1 h)
  | cons d rest ih =>
    obtain ⟨k, v⟩ := d
    rw [put] at h
    split at h
    · rename_i hk
      rcases List.mem_cons.1 h with rfl | h
      · exact .inl (by rw [hk])
      · exact .inr (List.mem_cons_of_mem _ h)
    · rcases List.mem_cons.1 h with rfl | h
      · exact .inr List.mem_cons_self
      · exact (ih h).imp id (List.mem_cons_of_mem _)

theorem mem_update {e : String × α} {t : Table α} {writes : List (String × α)} (h : e ∈ update t writes) :
    e ∈ t ∨ e ∈ writes := by
  induction writes generalizing t with
  | nil => exact .inl h
  | cons w writes ih =>
    rcases ih h with h | h
    · rcases mem_put h with rfl | h
      · exact .inr List.mem_cons_self
      · exact .inl h
    · exact .inr (List.mem_cons_of_mem _ h)

theorem mem_ofWrites {k : String} {v : α} {writes : List (String × α)} (h : (k, v) ∈ ofWrites writes) :
    ∃ key, (key, v) ∈ writes ∧ k = lowerText key := by
  rcases mem_update h with h | h
  · cases h
  · obtain ⟨⟨key, value⟩, hw, he⟩ := List.mem_map.1 h
    cases he
    exact ⟨key, hw, rfl⟩

theorem keys_put (key : String) (value : α) (t : Table α) :
    (put key value t).map Prod.fst = if key ∈ t.map Prod.fst then t.map Prod.fst else t.map Prod.fst ++ [key] := by
  induction t with
  | nil => rfl
  | cons e rest ih =>
    obtain ⟨k, v⟩ := e
    rw [put]
    by_cases hk : k = key
    · subst hk
      simp
    · rw [if_neg hk, List.map_cons, ih]
      by_cases hrest : key ∈ rest.map Prod.fst
      · simp only [List.map_cons, List.mem_cons, hrest, or_true, if_true]
      · simp only [List.map_cons, List.mem_cons, hrest, Ne.symm hk, or_self, if_false, List.cons_append]

/-- Keys stand in a table once, however often they are written. -/
theorem nodup_keys_update {t : Table α} (h : (t.map Prod.fst).Nodup) (writes : List (String × α)) :
    ((update t writes).map Prod.fst).Nodup := by
  induction writes generalizing t with
  | nil => exact h
  | cons w writes ih =>
    refine ih ?_
    rw [keys_put]
    split
    · exact h
    · rename_i hnew
      exact List.nodup_append.2 ⟨h, by simp, fun a ha b hb hab => hnew (by simp_all)⟩

theorem lookup_of_mem {t : Table α} (h : (t.map Prod.fst).Nodup) {k : String} {v : α} (hmem : (k, v) ∈ t) :
    t.lookup k = some v := by
  induction t with
  | nil => cases hmem
  | cons e rest ih =>
    obtain ⟨key, value⟩ := e
    obtain ⟨hkey, hrest⟩ := List.nodup_cons.1 h
    rcases List.mem_cons.1 hmem with heq | hlater
    · cases heq
      simp
    · have hne : k ≠ key := by
        rintro rfl
        exact hkey (List.mem_map.2 ⟨(k, v), hlater, rfl⟩)
      rw [List.lookup_cons, beq_false_of_ne hne]
      exact ih hrest hlater

theorem mem_of_lookup {k : String} {v : α} {t : Table α} (h : t.lookup k = some v) : (k, v) ∈ t := by
  obtain ⟨l₁, l₂, rfl, -⟩ := List.lookup_eq_some_iff.1 h
  exact List.mem_append_right _ List.mem_cons_self

/-- A word has what was written to it last, or what it had. -/
theorem lookup_update (t : Table α) (writes : List (String × α)) (word : String) :
    (update t writes).lookup word = (writes.reverse.lookup word).or (t.lookup word) := by
  induction writes generalizing t with
  | nil => rfl
  | cons w writes ih =>
    obtain ⟨k, v⟩ := w
    have hput : (put k v t).lookup word = ([(k, v)].lookup word).or (t.lookup word) := by
      by_cases hk : word = k
      · subst hk
        simp
      · rw [lookup_put_of_ne hk, List.lookup_cons, beq_false_of_ne hk]
        rfl
    show (update (put k v t) writes).lookup word = _
    rw [ih, hput, List.reverse_cons, List.lookup_append, Option.or_assoc]

@[simp] theorem put_put (key : String) (v w : α) (t : Table α) : put key w (put key v t) = put key w t := by
  induction t with
  | nil => simp [put]
  | cons e rest ih =>
    obtain ⟨k, u⟩ := e
    by_cases hk : k = key <;> simp [put, hk, ih]

/-- A key that has its place can be written before or after another one. -/
theorem put_comm {key other : String} (h : key ≠ other) {t : Table α} (hkey : key ∈ t.map Prod.fst) (v w : α) :
    put key v (put other w t) = put other w (put key v t) := by
  induction t with
  | nil => cases hkey
  | cons e rest ih =>
    obtain ⟨k, u⟩ := e
    by_cases hk : k = key
    · subst hk
      simp [put, h]
    · have hrest : key ∈ rest.map Prod.fst := by simpa [Ne.symm hk] using hkey
      by_cases hother : k = other
      · simp [put, hother, Ne.symm h]
      · simp [put, hk, hother, ih hrest]

theorem update_put {key : String} {t writes : Table α} (hkey : key ∈ t.map Prod.fst) (h : key ∉ writes.map Prod.fst)
    (v : α) : update (put key v t) writes = put key v (update t writes) := by
  induction writes generalizing t with
  | nil => rfl
  | cons w writes ih =>
    obtain ⟨k, u⟩ := w
    obtain ⟨hk, hlater⟩ := not_or.1 (mt List.mem_cons.2 h)
    have hstill : key ∈ (put k u t).map Prod.fst := by
      rw [keys_put]
      split
      · exact hkey
      · exact List.mem_append_left _ hkey
    show update (put k u (put key v t)) writes = put key v (update (put k u t) writes)
    rw [← put_comm hk hkey, ih hstill hlater]

theorem lookup_reverse {t : Table α} (h : (t.map Prod.fst).Nodup) (word : String) :
    t.reverse.lookup word = t.lookup word := by
  have hreverse : (t.reverse.map Prod.fst).Nodup := by rwa [List.map_reverse, (List.reverse_perm _).nodup_iff]
  cases hword : t.lookup word with
  | none =>
    rw [List.lookup_eq_none_iff] at hword ⊢
    exact fun e he => hword e (List.mem_reverse.1 he)
  | some v => exact lookup_of_mem hreverse (List.mem_reverse.2 (mem_of_lookup hword))

theorem put_of_lookup {key : String} {v : α} {t : Table α} (h : t.lookup key = some v) : put key v t = t := by
  induction t with
  | nil => cases h
  | cons e rest ih =>
    obtain ⟨k, u⟩ := e
    by_cases hk : k = key
    · subst hk
      simp_all [put]
    · rw [List.lookup_cons, beq_false_of_ne (Ne.symm hk)] at h
      rw [put, if_neg hk, ih h]

/-- Writing what a table holds already changes nothing. -/
theorem update_of_lookup {t writes : Table α} (h : ∀ e ∈ writes, t.lookup e.1 = some e.2) : update t writes = t := by
  induction writes with
  | nil => rfl
  | cons w writes ih =>
    obtain ⟨hw, hlater⟩ := List.forall_mem_cons.1 h
    show update (put w.1 w.2 t) writes = t
    rw [put_of_lookup hw, ih hlater]

theorem update_update {writes : Table α} (h : (writes.map Prod.fst).Nodup) (t : Table α) :
    update (update t writes) writes = update t writes := by
  refine update_of_lookup fun e he => ?_
  rw [lookup_update, lookup_reverse h, lookup_of_mem h he, Option.some_or]

theorem put_of_not_mem {key : String} {t : Table α} (h : key ∉ t.map Prod.fst) (value : α) :
    put key value t = t ++ [(key, value)] := by
  induction t with
  | nil => rfl
  | cons e rest ih =>
    obtain ⟨k, v⟩ := e
    obtain ⟨hk, hrest⟩ := not_or.1 (mt List.mem_cons.2 h)
    rw [put, if_neg (Ne.symm hk), ih hrest, List.cons_append]

theorem update_append {front t : Table α} (h : ((front ++ t).map Prod.fst).Nodup) : update front t = front ++ t := by
  induction t generalizing front with
  | nil => exact (List.append_nil front).symm
  | cons e rest ih =>
    obtain ⟨k, v⟩ := e
    have happend : front ++ (k, v) :: rest = front ++ [(k, v)] ++ rest := by simp
    have hnew : k ∉ front.map Prod.fst := by
      rw [List.map_append, List.nodup_append] at h
      exact fun hk => h.2.2 k hk k (by simp) rfl
    show update (put k v front) rest = _
    rw [put_of_not_mem hnew, happend]
    rw [happend] at h
    exact ih h

theorem ofWrites_eq_self {t : Table α} (hlowered : ∀ e ∈ t, IsLowered e.1) (h : (t.map Prod.fst).Nodup) :
    ofWrites t = t := by
  have hmap : t.map (fun e => (lowerText e.1, e.2)) = t := by
    refine (List.map_congr_left fun e he => ?_).trans t.map_id
    exact Prod.ext (lowerText_of_isLowered (hlowered e he)) rfl
  show update [] (t.map fun e => (lowerText e.1, e.2)) = t
  rw [hmap]
  exact @update_append _ [] t h

end Table

namespace Lexicon

variable {presets : List (String × Int)} {kinds : List (String × List String)}

theorem exists_of_dayOffset? {word : String} (h : ((ofWrites presets kinds).dayOffset? word).isSome) :
    ∃ e ∈ presets, lowerText e.1 = lowerText word := by
  obtain ⟨n, hn⟩ := Option.isSome_iff_exists.1 h
  obtain ⟨key, hmem, hkey⟩ := Table.mem_ofWrites (Table.mem_of_lookup hn)
  exact ⟨(key, n), hmem, hkey.symm⟩

theorem dayOffset?_isSome {lexicon : Lexicon} {word : String} {days : Int} (h : (word, days) ∈ lexicon.presets)
    (hlowered : IsLowered word) : (lexicon.dayOffset? word).isSome := by
  rw [dayOffset?, lowerText_of_isLowered hlowered, Option.isSome_iff_ne_none]
  intro hnone
  exact absurd (List.lookup_eq_none_iff.1 hnone _ h) (by simp)

/-- The words that every lexicon starts with are entries like others. -/
theorem builtin_eq_ofWrites : builtin = ofWrites builtin.presets builtin.kinds := by
  decide

theorem isLowered_builtin_kinds : ∀ e ∈ builtin.kinds, IsLowered e.1 ∧ ∀ tag ∈ e.2, IsLowered tag := by
  unfold IsLowered
  decide

/-- With lower-cased entries, the tables are the built-in ones with the entries written to them. -/
theorem overlay_builtin (hpresets : ∀ e ∈ builtin.presets ++ presets, IsLowered e.1)
    (hkinds : ∀ e ∈ kinds, IsLowered e.1 ∧ ∀ tag ∈ e.2, IsLowered tag) :
    builtin.overlay presets kinds = ⟨Table.update builtin.presets presets, Table.update builtin.kinds kinds⟩ := by
  have hpreset : ∀ e ∈ Table.update builtin.presets presets, IsLowered e.1 :=
    fun e he => hpresets e (List.mem_append.2 (Table.mem_update he))
  have hkind : ∀ e ∈ Table.update builtin.kinds kinds, IsLowered e.1 ∧ ∀ tag ∈ e.2, IsLowered tag :=
    fun e he => (Table.mem_update he).elim (isLowered_builtin_kinds e) (hkinds e)
  have htags : (Table.update builtin.kinds kinds).map (fun e => (e.1, e.2.map lowerText)) =
      Table.update builtin.kinds kinds := by
    refine Eq.trans (List.map_congr_left fun e he => ?_) (List.map_id (Table.update builtin.kinds kinds))
    refine Prod.ext rfl (Eq.trans (List.map_congr_left fun tag htag => ?_) e.2.map_id)
    exact lowerText_of_isLowered ((hkind e he).2 tag htag)
  have hpresetKeys : (builtin.presets.map Prod.fst).Nodup := by decide
  have hkindKeys : (builtin.kinds.map Prod.fst).Nodup := by decide
  show Lexicon.mk (Table.ofWrites (Table.update builtin.presets presets))
    (Table.ofWrites ((Table.update builtin.kinds kinds).map fun e => (e.1, e.2.map lowerText))) = _
  rw [htags, Table.ofWrites_eq_self hpreset (Table.nodup_keys_update hpresetKeys _),
    Table.ofWrites_eq_self (fun e he => (hkind e he).1) (Table.nodup_keys_update hkindKeys _)]

/-- Without an empty key, the empty word is none for a date. -/
theorem ne_empty_of_dayOffset? (hpresets : ∀ e ∈ presets, e.1 ≠ "") {word : String}
    (h : ((ofWrites presets kinds).dayOffset? word).isSome) : word ≠ "" := by
  rintro rfl
  obtain ⟨e, he, hkey⟩ := exists_of_dayOffset? h
  exact hpresets e he (lowerText_eq_empty_iff.1 hkey)

theorem isLowered_of_mem_tagsOf {word tag : String} (h : tag ∈ (ofWrites presets kinds).tagsOf word) : IsLowered tag := by
  unfold tagsOf at h
  cases hlookup : (ofWrites presets kinds).kinds.lookup (lowerText word) with
  | none =>
    rw [hlookup] at h
    cases h
  | some tags =>
    rw [hlookup] at h
    obtain ⟨key, hmem, -⟩ := Table.mem_ofWrites (Table.mem_of_lookup hlookup)
    obtain ⟨e, -, he⟩ := List.mem_map.1 hmem
    cases he
    obtain ⟨written, -, rfl⟩ := List.mem_map.1 h
    exact isLowered_lowerText written

end Lexicon
end SearchBox

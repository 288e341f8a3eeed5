import SearchBox.Value

/-!
  SearchBox.Proofs.Entries — entries and their keys. Writing under a key keeps the order of the
  keys that are there and puts a new one last (`keys_put`), so the keys of entries stay apart,
  whatever is written (`ofWrites_areApart`), and a key finds the value that was written last
  (`find?_put`).
-/

namespace SearchBox

theorem Scalar.sameKey_iff {a b : Scalar} : a.sameKey b = true ↔ a.keyForm = b.keyForm :=
  decide_eq_true_iff

@[simp] theorem Scalar.sameKey_text (s t : String) : (text s).sameKey (text t) = decide (s = t) := by
  simp [sameKey, keyForm]

theorem Scalar.eq_text_of_sameKey {s : String} {k : Scalar} (h : (text s).sameKey k = true) : k = text s := by
  have hform : text s = k.keyForm := Scalar.sameKey_iff.1 h
  cases k with
  | text t => exact hform.symm
  | float x =>
    rw [Scalar.keyForm] at hform
    split at hform <;> cases hform
  | time t =>
    cases t with
    | floating wall => cases hform
    | fixed m =>
      rw [Scalar.keyForm] at hform
      split at hform <;> cases hform
  | _ => cases hform

theorem Scalar.sameKey_comm (a b : Scalar) : a.sameKey b = b.sameKey a := by
  rw [Bool.eq_iff_iff, sameKey_iff, sameKey_iff, eq_comm]

namespace Entries

def AreApart (es : Entries) : Prop :=
  es.Pairwise fun a b => a.1.sameKey b.1 = false

theorem find?_congr {a b : Scalar} (h : a.sameKey b = true) (es : Entries) : find? a es = find? b es := by
  rw [Scalar.sameKey_iff] at h
  induction es with
  | nil => rfl
  | cons e rest ih =>
    obtain ⟨k, v⟩ := e
    simp only [find?, Scalar.sameKey, h, ih, decide_eq_true_eq]

theorem mem_of_find? {key : Scalar} {es : Entries} {v : Value} (h : find? key es = some v) :
    ∃ k, (k, v) ∈ es ∧ k.sameKey key = true := by
  induction es with
  | nil => cases h
  | cons e rest ih =>
    obtain ⟨k, w⟩ := e
    rw [find?] at h
    split at h
    · cases h
      exact ⟨k, List.mem_cons_self, ‹_›⟩
    · obtain ⟨k', hk', hsame⟩ := ih h
      exact ⟨k', List.mem_cons_of_mem _ hk', hsame⟩

theorem find?_eq_none_iff {key : Scalar} {es : Entries} : find? key es = none ↔ ∀ e ∈ es, e.1.sameKey key = false := by
  induction es with
  | nil => simp [find?]
  | cons e rest ih =>
    obtain ⟨k, v⟩ := e
    cases hk : k.sameKey key <;> simp [find?, hk, ih]

theorem AreApart.find?_of_mem {es : Entries} (h : es.AreApart) {e : Scalar × Value} (he : e ∈ es) :
    find? e.1 es = some e.2 := by
  induction es with
  | nil => cases he
  | cons d rest ih =>
    obtain ⟨hd, hrest⟩ := List.pairwise_cons.1 h
    obtain ⟨k, v⟩ := d
    rcases List.mem_cons.1 he with rfl | he
    · simp [find?]
    · simp [find?, hd e he, ih hrest he]

theorem AreApart.eq_of_sameKey {es : Entries} (h : es.AreApart) {k k' : Scalar} (hk : k ∈ es.map Prod.fst)
    (hk' : k' ∈ es.map Prod.fst) (hsame : k.sameKey k' = true) : k = k' := by
  induction es with
  | nil => cases hk
  | cons d rest ih =>
    obtain ⟨hd, hrest⟩ := List.pairwise_cons.1 h
    have hnot : ∀ other ∈ rest.map Prod.fst, d.1.sameKey other = false := List.forall_mem_map.2 hd
    rcases List.mem_cons.1 hk with rfl | hk <;> rcases List.mem_cons.1 hk' with rfl | hk'
    · rfl
    · rw [hnot k' hk'] at hsame
      cases hsame
    · rw [Scalar.sameKey_comm, hnot k hk] at hsame
      cases hsame
    · exact ih hrest hk hk'

theorem AreApart.find?_of_sameKey {e : Scalar × Value} {later : Entries} (h : AreApart (e :: later)) {key : Scalar}
    (hkey : e.1.sameKey key = true) : find? key later = none := by
  obtain ⟨he, -⟩ := List.pairwise_cons.1 h
  rw [← find?_congr hkey, find?_eq_none_iff]
  exact fun d hd => by rw [Scalar.sameKey_comm]; exact he d hd

theorem find?_put (key other : Scalar) (value : Value) (es : Entries) :
    find? other (put key value es) = if key.sameKey other then some value else find? other es := by
  split
  · rename_i h
    rw [← find?_congr h, find?_put_self]
  · rename_i h
    exact find?_put_of_sameKey_eq_false (by simpa using h) value es

theorem keys_put (key : Scalar) (value : Value) (es : Entries) :
    (put key value es).map Prod.fst =
      if (find? key es).isNone then es.map Prod.fst ++ [key] else es.map Prod.fst := by
  induction es with
  | nil => rfl
  | cons e rest ih =>
    obtain ⟨k, v⟩ := e
    cases hk : k.sameKey key
    · simp only [put, find?, hk, Bool.false_eq_true, if_false, List.map_cons, ih]
      split <;> rfl
    · simp [put, find?, hk]

/-- Writing what is there already changes nothing. -/
theorem put_of_find? {key : Scalar} {value : Value} {es : Entries} (h : find? key es = some value) :
    put key value es = es := by
  induction es with
  | nil => cases h
  | cons e rest ih =>
    obtain ⟨k, v⟩ := e
    rw [find?] at h
    rw [put]
    split at h
    · rename_i hk
      cases h
      rw [if_pos hk]
    · rename_i hk
      rw [if_neg hk, ih h]

theorem put_of_find?_eq_none {key : Scalar} {es : Entries} (h : find? key es = none) (value : Value) :
    put key value es = es ++ [(key, value)] := by
  induction es with
  | nil => rfl
  | cons e rest ih =>
    obtain ⟨k, v⟩ := e
    rw [find?] at h
    split at h
    · cases h
    · rename_i hk
      rw [put, if_neg hk, ih h, List.cons_append]

theorem AreApart.put {es : Entries} (h : es.AreApart) (key : Scalar) (value : Value) : (put key value es).AreApart := by
  refine (List.pairwise_map (f := Prod.fst) (R := fun a b => Scalar.sameKey a b = false)).1 ?_
  rw [keys_put]
  have hkeys : (es.map Prod.fst).Pairwise fun a b => a.sameKey b = false := List.pairwise_map.2 h
  split
  · rename_i hnew
    refine List.pairwise_append.2 ⟨hkeys, List.pairwise_singleton _ _, fun k hk k' hk' => ?_⟩
    obtain ⟨e, he, rfl⟩ := List.mem_map.1 hk
    rw [List.mem_singleton.1 hk']
    exact find?_eq_none_iff.1 (Option.isNone_iff_eq_none.1 hnew) e he
  · exact hkeys

theorem mem_put {key : Scalar} {value : Value} {es : Entries} {e : Scalar × Value} (h : e ∈ put key value es) :
    e.2 = value ∨ e ∈ es := by
  induction es with
  | nil =>
    cases List.mem_singleton.1 h
    exact .inl rfl
  | cons d rest ih =>
    obtain ⟨k, v⟩ := d
    rw [put] at h
    split at h
    · rcases List.mem_cons.1 h with rfl | h
      · exact .inl rfl
      · exact .inr (List.mem_cons_of_mem _ h)
    · rcases List.mem_cons.1 h with rfl | h
      · exact .inr List.mem_cons_self
      · exact (ih h).imp id (List.mem_cons_of_mem _)

/-- Whatever is written, keys stay apart, and the values are those written. -/
theorem ofWrites_areApart (writes : List (Scalar × Value)) :
    (ofWrites writes).AreApart ∧ ∀ e ∈ ofWrites writes, ∃ w ∈ writes, e.2 = w.2 := by
  suffices h : ∀ (es : Entries), es.AreApart → (writes.foldl (fun entries e => put e.1 e.2 entries) es).AreApart ∧
      ∀ e ∈ writes.foldl (fun entries e => put e.1 e.2 entries) es, e ∈ es ∨ ∃ w ∈ writes, e.2 = w.2 by
    obtain ⟨hapart, hmem⟩ := h [] List.Pairwise.nil
    exact ⟨hapart, fun e he => (hmem e he).resolve_left List.not_mem_nil⟩
  induction writes with
  | nil => exact fun es hes => ⟨hes, fun e he => .inl he⟩
  | cons w writes ih =>
    intro es hes
    obtain ⟨hapart, hmem⟩ := ih (put w.1 w.2 es) (hes.put w.1 w.2)
    refine ⟨hapart, fun e he => ?_⟩
    rcases hmem e he with he | ⟨w', hw', heq⟩
    · rcases mem_put he with heq | he
      · exact .inr ⟨w, List.mem_cons_self, heq⟩
      · exact .inl he
    · exact .inr ⟨w', List.mem_cons_of_mem _ hw', heq⟩

end Entries

end SearchBox

import SearchBox.Proofs.Entries
import SearchBox.Proofs.Settings.Lexicon
import SearchBox.Settings.File

/-!
  SearchBox.Proofs.Settings.Layers — settings laid over others, path by path. A value of the
  changes that is no mapping stands at the end of its path, mappings of both are merged there, and
  what the changes do not reach stays as it was (`merge_by_path`). So laying the same changes
  over settings twice is laying them once (`merge_merge`), and a file laid over itself is that
  file (`merge_self`): the file with the defaults need not be read twice (`loadOver_self`).

  All of this needs that a mapping holds no key twice, which the reader of documents sees to
  (`keysApart_of_entriesOfText`).
-/

namespace SearchBox

/-! ## Trees of mappings -/

namespace Value

def isMapping : Value → Bool
  | dict _ => true
  | _ => false

/-- The entries of a mapping; other values have none. -/
def inside : Option Value → Entries
  | some (dict es) => es
  | _ => []

/-- The value at the end of a path of keys. -/
def at? : Value → List Scalar → Option Value
  | v, [] => some v
  | dict es, k :: path => (Entries.find? k es).bind fun v => at? v path
  | _, _ :: _ => none

/-- Keys are apart in a mapping and in those below it. -/
inductive KeysApart : Value → Prop
  | leaf {v : Value} : v.isMapping = false → KeysApart v
  | dict {es : Entries} : es.AreApart → (∀ e ∈ es, KeysApart e.2) → KeysApart (.dict es)

/-- A value that is no mapping stands above the end of a path. -/
def EndsAbove (v : Value) (path : List Scalar) : Prop :=
  ∃ front, front <+: path ∧ front ≠ path ∧ ∃ leaf, v.at? front = some leaf ∧ leaf.isMapping = false

theorem at?_cons_of_not_isMapping {v : Value} (h : v.isMapping = false) (key : Scalar) (path : List Scalar) :
    v.at? (key :: path) = none := by
  cases v with
  | dict es => cases h
  | _ => rfl

theorem KeysApart.at? {v w : Value} (h : v.KeysApart) {path : List Scalar} (hw : v.at? path = some w) : w.KeysApart := by
  induction path generalizing v with
  | nil =>
    cases hw
    exact h
  | cons key path ih =>
    cases h with
    | leaf hleaf =>
      rw [at?_cons_of_not_isMapping hleaf] at hw
      cases hw
    | dict hapart hvalues =>
      obtain ⟨inner, hinner, hw⟩ := Option.bind_eq_some_iff.1 hw
      obtain ⟨k, hk, -⟩ := Entries.mem_of_find? hinner
      exact ih (hvalues _ hk) hw

@[simp] theorem keysApart_scalar (s : Scalar) : (scalar s).KeysApart :=
  .leaf rfl

@[simp] theorem keysApart_list (items : List Value) : (list items).KeysApart :=
  .leaf rfl

@[simp] theorem keysApart_dict {es : Entries} : (dict es).KeysApart ↔ es.AreApart ∧ ∀ e ∈ es, e.2.KeysApart := by
  refine ⟨fun h => ?_, fun h => .dict h.1 h.2⟩
  cases h with
  | leaf hleaf => cases hleaf
  | dict hapart hvalues => exact ⟨hapart, hvalues⟩

theorem endsAbove_cons {es : Entries} {key : Scalar} {path : List Scalar} :
    (dict es).EndsAbove (key :: path) ↔ ∃ v, Entries.find? key es = some v ∧ v.EndsAbove path := by
  constructor
  · rintro ⟨front, hfront, hne, leaf, hleaf, habove⟩
    cases front with
    | nil =>
      cases hleaf
      cases habove
    | cons k front =>
      obtain ⟨rfl, hrest⟩ := List.cons_prefix_cons.1 hfront
      obtain ⟨v, hv, hleaf⟩ := Option.bind_eq_some_iff.1 hleaf
      exact ⟨v, hv, front, hrest, fun heq => hne (heq ▸ rfl), leaf, hleaf, habove⟩
  · rintro ⟨v, hv, front, hfront, hne, leaf, hleaf, habove⟩
    refine ⟨key :: front, List.cons_prefix_cons.2 ⟨rfl, hfront⟩, fun heq => hne (List.cons.inj heq).2, leaf, ?_, habove⟩
    rw [at?, hv]
    exact hleaf

theorem not_endsAbove_nil (v : Value) : ¬ v.EndsAbove [] := by
  rintro ⟨front, hfront, hne, -⟩
  exact hne (List.prefix_nil.1 hfront)

theorem endsAbove_of_not_isMapping {v : Value} (h : v.isMapping = false) (key : Scalar) (path : List Scalar) :
    v.EndsAbove (key :: path) :=
  ⟨[], List.nil_prefix, List.cons_ne_nil _ _ |>.symm, v, rfl, h⟩

end Value

namespace Settings

/-! ## One value laid over another -/

theorem overlayValue_of_not_isMapping (old : Option Value) {v : Value} (h : v.isMapping = false) :
    overlayValue old v = v := by
  cases v with
  | dict es => cases h
  | _ => rfl

theorem find?_merge {changes : Entries} (h : changes.AreApart) (base : Entries) (key : Scalar) :
    Entries.find? key (merge base changes) =
      match Entries.find? key changes with
      | some v => some (overlayValue (Entries.find? key base) v)
      | none => Entries.find? key base := by
  induction changes generalizing base with
  | nil => rfl
  | cons e later ih =>
    obtain ⟨k, v⟩ := e
    rw [merge, ih (List.pairwise_cons.1 h).2, Entries.find?_put, Entries.find?]
    by_cases hkey : k.sameKey key = true
    · rw [h.find?_of_sameKey hkey, if_pos hkey, if_pos hkey, Entries.find?_congr hkey]
    · rw [if_neg hkey, if_neg hkey]

/-- Keys stay where they are; new ones follow in the order of the changes. -/
theorem keys_merge {changes : Entries} (h : changes.AreApart) (base : Entries) :
    (merge base changes).map Prod.fst =
      base.map Prod.fst ++ (changes.map Prod.fst).filter fun k => (Entries.find? k base).isNone := by
  induction changes generalizing base with
  | nil => simp [merge]
  | cons e later ih =>
    obtain ⟨k, v⟩ := e
    obtain ⟨hk, hlater⟩ := List.pairwise_cons.1 h
    have hothers : (later.map Prod.fst).filter (fun k' => (Entries.find? k' (Entries.put k
        (overlayValue (Entries.find? k base) v) base)).isNone) =
        (later.map Prod.fst).filter fun k' => (Entries.find? k' base).isNone := by
      refine List.filter_congr fun k' hk' => ?_
      obtain ⟨e, he, rfl⟩ := List.mem_map.1 hk'
      rw [Entries.find?_put_of_sameKey_eq_false (hk e he)]
    rw [merge, ih hlater, hothers, Entries.keys_put, List.map_cons, List.filter_cons]
    split <;> simp

/-- Changes that are there already change nothing. -/
theorem merge_of_absorbed {base changes : Entries}
    (h : ∀ e ∈ changes, ∃ v, Entries.find? e.1 base = some v ∧ overlayValue (some v) e.2 = v) :
    merge base changes = base := by
  induction changes with
  | nil => rfl
  | cons e later ih =>
    obtain ⟨⟨v, hv, habsorbed⟩, hlater⟩ := List.forall_mem_cons.1 h
    rw [merge, hv, habsorbed, Entries.put_of_find? hv, ih hlater]

theorem merge_nil_left {changes : Entries} (h : changes.AreApart) : merge [] changes = changes := by
  suffices hfront : ∀ front : Entries, (front ++ changes).AreApart → merge front changes = front ++ changes from
    hfront [] h
  induction changes with
  | nil => exact fun front _ => (List.append_nil front).symm
  | cons e later ih =>
    intro front hfront
    obtain ⟨k, v⟩ := e
    have hnew : Entries.find? k front = none := by
      rw [Entries.find?_eq_none_iff]
      exact fun e he => (List.pairwise_append.1 hfront).2.2 e he _ List.mem_cons_self
    have hbare : overlayValue none v = v := by cases v <;> rfl
    rw [merge, hnew, hbare, Entries.put_of_find?_eq_none hnew]
    have happend : front ++ (k, v) :: later = front ++ [(k, v)] ++ later := by simp
    rw [happend] at hfront ⊢
    exact ih (List.pairwise_cons.1 h).2 _ hfront

theorem overlayValue_dict {changes : Entries} (h : changes.AreApart) (old : Option Value) :
    overlayValue old (.dict changes) = .dict (merge (Value.inside old) changes) := by
  cases old with
  | none => exact congrArg Value.dict (merge_nil_left h).symm
  | some v =>
    cases v with
    | dict base => rfl
    | _ => exact congrArg Value.dict (merge_nil_left h).symm

/-- Laying a value over what it has been laid over changes nothing. -/
theorem overlayValue_overlayValue {v : Value} (h : v.KeysApart) (old : Option Value) :
    overlayValue (some (overlayValue old v)) v = overlayValue old v := by
  -- Over the tree of the changes: by induction each key's value has absorbed its own part.
  induction h generalizing old with
  | leaf hv => rw [overlayValue_of_not_isMapping _ hv, overlayValue_of_not_isMapping _ hv]
  | @dict es hapart _ ih =>
    rw [overlayValue_dict hapart old, overlayValue_dict hapart]
    refine congrArg Value.dict (merge_of_absorbed fun e he => ?_)
    refine ⟨overlayValue (Entries.find? e.1 (Value.inside old)) e.2, ?_, ih e he _⟩
    rw [Value.inside, find?_merge hapart, hapart.find?_of_mem he]

theorem merge_merge {changes : Entries} (h : (Value.dict changes).KeysApart) (base : Entries) :
    merge (merge base changes) changes = merge base changes :=
  Value.dict.inj (overlayValue_overlayValue h (some (.dict base)))

theorem merge_self {entries : Entries} (h : (Value.dict entries).KeysApart) : merge entries entries = entries := by
  have habsorbed := merge_merge h []
  rwa [merge_nil_left (Value.keysApart_dict.1 h).1] at habsorbed

/-! ## Path by path -/

theorem at?_overlayValue_cons {changes : Entries} (h : changes.AreApart) (old : Option Value) (key : Scalar)
    (path : List Scalar) :
    (overlayValue old (.dict changes)).at? (key :: path) =
      match Entries.find? key changes with
      | some v => (overlayValue (Entries.find? key (Value.inside old)) v).at? path
      | none => (Entries.find? key (Value.inside old)).bind fun v => v.at? path := by
  rw [overlayValue_dict h, Value.at?, find?_merge h]
  cases Entries.find? key changes <;> rfl

theorem bind_at?_cons (old : Option Value) (key : Scalar) (path : List Scalar) :
    (old.bind fun v => v.at? (key :: path)) = (Entries.find? key (Value.inside old)).bind fun v => v.at? path := by
  cases old with
  | none => rfl
  | some v => cases v <;> rfl

variable {v : Value} (h : v.KeysApart)
include h

/-- What is laid over another value at the end of a path is what both have there. -/
theorem at?_overlayValue_of_some {path : List Scalar} {new : Value} (hv : v.at? path = some new) (old : Option Value) :
    (overlayValue old v).at? path = some (overlayValue (old.bind fun v => v.at? path) new) := by
  induction path generalizing v old with
  | nil =>
    cases hv
    cases old <;> rfl
  | cons key path ih =>
    cases h with
    | leaf hleaf =>
      rw [Value.at?_cons_of_not_isMapping hleaf] at hv
      cases hv
    | @dict changes hapart hvalues =>
      obtain ⟨w, hw, hnew⟩ := Option.bind_eq_some_iff.1 hv
      obtain ⟨k, hk, -⟩ := Entries.mem_of_find? hw
      rw [at?_overlayValue_cons hapart, bind_at?_cons, hw]
      exact ih (hvalues _ hk) hnew _

theorem at?_overlayValue_of_endsAbove {path : List Scalar} (hv : v.EndsAbove path) (old : Option Value) :
    (overlayValue old v).at? path = none := by
  induction path generalizing v old with
  | nil => exact absurd hv (Value.not_endsAbove_nil v)
  | cons key path ih =>
    cases h with
    | leaf hleaf => rw [overlayValue_of_not_isMapping old hleaf, Value.at?_cons_of_not_isMapping hleaf]
    | @dict changes hapart hvalues =>
      obtain ⟨w, hw, habove⟩ := Value.endsAbove_cons.1 hv
      obtain ⟨k, hk, -⟩ := Entries.mem_of_find? hw
      rw [at?_overlayValue_cons hapart, hw]
      exact ih (hvalues _ hk) habove _

theorem at?_overlayValue_of_none {path : List Scalar} (hnone : v.at? path = none) (hv : ¬ v.EndsAbove path)
    (old : Option Value) : (overlayValue old v).at? path = old.bind fun v => v.at? path := by
  induction path generalizing v old with
  | nil => cases hnone
  | cons key path ih =>
    cases h with
    | leaf hleaf => exact absurd (Value.endsAbove_of_not_isMapping hleaf key path) hv
    | @dict changes hapart hvalues =>
      rw [at?_overlayValue_cons hapart, bind_at?_cons]
      cases hw : Entries.find? key changes with
      | none => rfl
      | some w =>
        obtain ⟨k, hk, -⟩ := Entries.mem_of_find? hw
        rw [Value.at?, hw] at hnone
        exact ih (hvalues _ hk) hnone (fun habove => hv (Value.endsAbove_cons.2 ⟨w, hw, habove⟩)) _

end Settings

/-! ## Documents -/

theorem Yaml.keysApart_of_treeValue {fuel : Nat} {n : Yaml.Node} {v : Value} (h : Yaml.treeValue fuel n = .ok v) :
    v.KeysApart := by
  induction fuel generalizing n v with
  | zero => cases h
  | succ fuel ih =>
    unfold Yaml.treeValue at h
    dsimp only at h
    split at h
    · cases n with
      | scalar tag text => cases h
      | sequence tag items =>
        dsimp only at h
        split at h <;>
        · obtain ⟨values, -, h⟩ := bind_eq_ok.1 h
          cases h
          exact .leaf rfl
      | mapping tag entries =>
        obtain ⟨merged, -, h⟩ := bind_eq_ok.1 h
        obtain ⟨writes, hwrites, h⟩ := bind_eq_ok.1 h
        obtain ⟨hapart, hmem⟩ := Entries.ofWrites_areApart writes
        split at h
        · cases h
          exact .leaf rfl
        · cases h
          refine .dict hapart fun e he => ?_
          obtain ⟨w, hw, heq⟩ := hmem e he
          obtain ⟨⟨k, inner⟩, -, hread⟩ := exists_of_mem_mapM hwrites hw
          obtain ⟨key, -, hread⟩ := bind_eq_ok.1 hread
          obtain ⟨value, hvalue, hread⟩ := bind_eq_ok.1 hread
          cases hread
          rw [heq]
          exact ih hvalue
    · obtain ⟨scalar, -, h⟩ := bind_eq_ok.1 h
      cases h
      exact .leaf rfl

namespace Settings

/-- A document's keys are apart, however often they are written. -/
theorem keysApart_of_entriesOfText {text : List Char} {entries : Entries} (h : entriesOfText text = .ok entries) :
    (Value.dict entries).KeysApart := by
  obtain ⟨document, hdocument, h⟩ := bind_eq_ok.1 h
  rw [mapError_eq_ok] at h hdocument
  unfold Yaml.read at hdocument
  split at hdocument
  · cases hdocument
  obtain ⟨node, -, hvalue⟩ := bind_eq_ok.1 hdocument
  have hapart : document.KeysApart := by
    cases node with
    | none =>
      cases hvalue
      exact .leaf rfl
    | some n =>
      obtain ⟨u, -, hvalue⟩ := bind_eq_ok.1 hvalue
      exact Yaml.keysApart_of_treeValue hvalue
  unfold root at h
  split at h
  · split at h
    · cases h
      exact hapart
    · cases h
  · cases h
    exact .dict List.Pairwise.nil fun e he => by cases he

theorem loadOver_self {m : Type → Type} [Monad m] [LawfulMonad m] (disk : Disk m) {path defaultsPath : Disk.Path}
    (h : path.resolved = defaultsPath.resolved) :
    loadOver disk path defaultsPath =
      (readEntries disk defaultsPath >>= fun entries => ExceptT.mk (pure (layered entries entries))) := by
  rw [loadOver, if_pos h, load, readEntries]
  simp only [bind_assoc]
  refine bind_congr fun text => ExceptT.ext ?_
  cases text with
  | error e => simp only [ExceptT.run_bind, ExceptT.run_throw, pure_bind]
  | ok text =>
    simp only [ExceptT.run_bind, ExceptT.run_mk, pure_bind]
    cases hentries : entriesOfText text with
    | error e => rfl
    | ok entries =>
      show pure ((ofEntries entries).mapError _) = pure ((ofEntries (merge entries entries)).mapError _)
      rw [merge_self (keysApart_of_entriesOfText hentries)]

/-! ## The whole -/

/-- What stands where once `changes` are laid over `base`. -/
structure IsLaidOver (base changes merged : Value) : Prop where
  /-- The changes' leaves, and their mappings where the base has none. -/
  replaced : ∀ path v, changes.at? path = some v →
    (v.isMapping = false ∨ ∀ es, base.at? path ≠ some (.dict es)) → merged.at? path = some v
  /-- Where both have mappings, these laid over each other, the new keys last. -/
  joined : ∀ path es es', base.at? path = some (.dict es) → changes.at? path = some (.dict es') →
    merged.at? path = some (.dict (merge es es')) ∧
      (merge es es').map Prod.fst =
        es.map Prod.fst ++ (es'.map Prod.fst).filter fun k => (Entries.find? k es).isNone
  /-- The base where the changes say nothing, neither there nor by a leaf above. -/
  kept : ∀ path, changes.at? path = none → ¬ changes.EndsAbove path → merged.at? path = base.at? path
  /-- Nothing below a leaf of the changes. -/
  gone : ∀ path, changes.EndsAbove path → merged.at? path = none

theorem isLaidOver_merge (base : Entries) {changes : Entries} (h : (Value.dict changes).KeysApart) :
    IsLaidOver (.dict base) (.dict changes) (.dict (merge base changes)) where
  replaced path v hv hbase := by
    show (overlayValue (some (.dict base)) (.dict changes)).at? path = _
    rw [at?_overlayValue_of_some h hv, Option.bind_some, Option.some.injEq]
    cases v with
    | dict es =>
      have hnone : ∀ es, (Value.dict base).at? path ≠ some (.dict es) := hbase.resolve_left (by simp [Value.isMapping])
      cases hold : (Value.dict base).at? path with
      | none => rfl
      | some old =>
        cases old with
        | dict es' => exact absurd hold (hnone es')
        | _ => rfl
    | _ => rfl
  joined path es es' hes hes' := by
    refine ⟨?_, keys_merge (Value.keysApart_dict.1 (h.at? hes')).1 es⟩
    show (overlayValue (some (.dict base)) (.dict changes)).at? path = _
    rw [at?_overlayValue_of_some h hes', Option.bind_some, hes]
    rfl
  kept path hnone habove := at?_overlayValue_of_none h hnone habove (some (.dict base))
  gone path habove := at?_overlayValue_of_endsAbove h habove (some (.dict base))

/-- Changes laid over settings are found path by path, and laying them again, laying settings over
    themselves or laying nothing over them changes nothing. So the settings of a file laid over
    itself are those of the file laid over its entries. -/
theorem merge_by_path {base changes : Entries} (hbase : (Value.dict base).KeysApart)
    (hchanges : (Value.dict changes).KeysApart) :
    IsLaidOver (.dict base) (.dict changes) (.dict (merge base changes)) ∧
      merge base [] = base ∧
      merge base base = base ∧
      merge (merge base changes) changes = merge base changes ∧
      ∀ (m : Type → Type) [Monad m] [LawfulMonad m] (disk : Disk m) (path defaultsPath : Disk.Path),
        path.resolved = defaultsPath.resolved →
        loadOver disk path defaultsPath =
          (readEntries disk defaultsPath >>= fun entries => ExceptT.mk (pure (layered entries entries))) :=
  ⟨isLaidOver_merge base hchanges, rfl, merge_self hbase, merge_merge hchanges base,
    fun _ _ _ disk _ _ hpath => loadOver_self disk hpath⟩

/-- A level changed, a section made null, one that was null filled, a new one, and a list replaced. -/
theorem merge_by_path_sections :
    let base : Entries := [(.text "log", .dict [(.text "level", .text "INFO"), (.text "to_file", .bool false)]),
      (.text "search", .dict [(.text "limit", .int 5)]), (.text "store", .null),
      (.text "output", .dict [(.text "formats", .list [.text "console", .text "json"])])]
    let changes : Entries := [(.text "vocabulary", .dict []), (.text "search", .null),
      (.text "log", .dict [(.text "dir", .text "logs"), (.text "level", .text "DEBUG")]),
      (.text "store", .dict [(.text "path", .text "items.json")]),
      (.text "output", .dict [(.text "formats", .list [.text "json"])])]
    let merged : Entries := [(.text "log", .dict [(.text "level", .text "DEBUG"), (.text "to_file", .bool false),
        (.text "dir", .text "logs")]),
      (.text "search", .null), (.text "store", .dict [(.text "path", .text "items.json")]),
      (.text "output", .dict [(.text "formats", .list [.text "json"])]), (.text "vocabulary", .dict [])]
    merge base changes = merged ∧ merge merged changes = merged ∧
      (Value.dict merged).at? [.text "search", .text "limit"] = none := by
  intro base changes merged
  have hbase : (Value.dict base).KeysApart := by simp [base, Entries.AreApart]
  have hchanges : (Value.dict changes).KeysApart := by simp [changes, Entries.AreApart]
  obtain ⟨hlaid, -, -, hagain, -⟩ := merge_by_path hbase hchanges
  have hmerged : merge base changes = merged := rfl
  rw [hmerged] at hlaid hagain
  refine ⟨hmerged, hagain, hlaid.gone _ ⟨[.text "search"], ?_, ?_, .null, rfl, rfl⟩⟩
  · decide
  · decide

end Settings
end SearchBox

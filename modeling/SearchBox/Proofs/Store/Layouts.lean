import SearchBox.Proofs.Search.Beside
import SearchBox.Proofs.Store.Rows

/-!
  SearchBox.Proofs.Store.Layouts — the same objects in files of different layouts. A document is
  read from the same text alone, between the brackets of a list (`rowsOf_list`) and in a list
  under a name (`rowsOf_wrapped`), and two or more of them are read line by line. So every layout
  of the same texts has the same rows (`rowsOf_of_isLayout`), and a store has the same items or
  fails in the same way (`answerOf_itemsOf`).
-/

namespace SearchBox.Store

open SearchBox.Calendar SearchBox.Json SearchBox.Log SearchBox.Search SearchBox.Text

/-! ## Layouts -/

/-- An object with the list of the texts under a name. -/
def wrapped (name : String) (texts : List (List Char)) : List Char :=
  "\x7b\"".toList ++ name.toList ++ "\": [".toList ++ joinWith [','] texts ++ "]\x7d".toList

/-- The texts of files that hold some JSON texts: in a list, in a list under one of its names, or
    one a line with blank lines anywhere. -/
inductive IsLayout (texts : List (List Char)) : List Char → Prop
  | list : IsLayout texts ("[".toList ++ joinWith [','] texts ++ "]".toList)
  | wrapped {name : String} : name ∈ wrapperNames → IsLayout texts (wrapped name texts)
  | lines {file : List Char} : visibleLines file = texts → IsLayout texts file

section Documents

variable {texts : List (List Char)} {values : List Value} (h : List.Forall₂ (fun t v => Json.read t = .ok v) texts values)
include h

theorem rowsOf_list : rowsOf ("[".toList ++ joinWith [','] texts ++ "]".toList) = .ok values := by
  have hread := read_of_spells_alone (spells_list h)
  exact rowsOf_of_read hread

omit h in
theorem readText_of_mem_wrapperNames {name : String} (hname : name ∈ wrapperNames) :
    (∀ c ∈ name.toList, 32 ≤ c.toNat) ∧ ∀ u, readText (name.toList ++ '"' :: u) = .ok (name, u) := by
  have hwritten : (wrapperNames.all fun name => name.toList.all fun c => decide (32 ≤ c.toNat)) = true := by decide
  refine ⟨fun c hc => ?_, ?_⟩
  · exact of_decide_eq_true (List.all_eq_true.1 (List.all_eq_true.1 hwritten name hname) c hc)
  · unfold wrapperNames at hname
    rcases List.mem_pair.1 hname with rfl | rfl
    · exact fun u => rfl
    · exact fun u => rfl

theorem read_wrapped {name : String} (hname : name ∈ wrapperNames) :
    Json.read (wrapped name texts) = .ok (.dict (Entries.ofWrites [(.text name, .list values)])) := by
  obtain ⟨hbody, hread⟩ := readText_of_mem_wrapperNames hname
  have hgap : IsGapText [' '] := by simp [IsGapText, isGap]
  have hentry := ((spells_list h).entry hbody hread isGapText_nil hgap).spells_last (.inr rfl) isGapText_nil
  have hspells := read_of_spells_alone (isBracket_dict.spells isGapText_nil hentry)
  rw [← hspells]
  simp [wrapped]

theorem rowsOf_wrapped {name : String} (hname : name ∈ wrapperNames) : rowsOf (wrapped name texts) = .ok values := by
  rw [rowsOf_of_read (read_wrapped h hname), rowsOfDocument_dict]
  unfold wrapperNames at hname
  rcases List.mem_pair.1 hname with rfl | rfl <;> rfl

end Documents

section Objects

variable {texts : List (List Char)} {objects : List Entries} {file : List Char} (h : WriteObjects texts objects)
include h

theorem WriteObjects.reads : List.Forall₂ (fun t v => Json.read t = .ok v) texts (objects.map .dict) :=
  List.forall₂_map_right_iff.2 h

theorem rowsOf_of_isLayout (hfile : IsLayout texts file) (hmany : 2 ≤ texts.length) :
    rowsOf file = .ok (objects.map .dict) := by
  cases hfile with
  | list => exact rowsOf_list h.reads
  | wrapped hname => exact rowsOf_wrapped h.reads hname
  | lines hlines =>
    have hrows : HoldRows (lines file) (objects.map .dict) := by
      refine HoldRows.iff_filter.2 ?_
      rw [show (lines file).filter (fun l => !isBlankText l) = texts from hlines]
      exact h.reads
    refine rowsOf_of_lines hrows ?_
    rwa [List.length_map, ← List.Forall₂.length_eq h]

omit h in
/-- A layout is one of the same texts with all ends of line as line feeds. -/
theorem isLayout_withLineFeeds (hfile : IsLayout texts file) (hlines : ∀ t ∈ texts, ∀ c ∈ t, isLineEnd c = false) :
    IsLayout texts (withLineFeeds file) := by
  have hreturn : '\r' ∉ joinWith [','] texts := by
    intro hmem
    rcases mem_joinWith hmem with hcomma | ⟨t, ht, hc⟩
    · simp at hcomma
    · exact absurd (hlines t ht _ hc) (by decide)
  cases hfile with
  | list =>
    rw [withLineFeeds_of_not_mem (by simpa using hreturn)]
    exact .list
  | @wrapped name hname =>
    have hbody : '\r' ∉ name.toList :=
      fun hmem => absurd ((readText_of_mem_wrapperNames hname).1 _ hmem) (by decide)
    rw [withLineFeeds_of_not_mem (by simpa [wrapped] using ⟨hbody, hreturn⟩)]
    exact .wrapped hname
  | lines hlines =>
    refine .lines ?_
    rwa [visibleLines, lines_withLineFeeds]

end Objects

/-! ## Items -/

/-- The items of objects, or the failure of the first one that makes none. -/
theorem answerOf_itemsOf (clock : Clock) (source : String) (place : Nat) (objects : List Entries) (log : List Entry) :
    answerOf (itemsOf clock source place (objects.map .dict)) log =
      (objects.mapM (Item.ofEntries clock)).mapError .noItem := by
  induction objects generalizing place log with
  | nil => rfl
  | cons es objects ih =>
    rw [List.map_cons, itemsOf, List.mapM_cons]
    have hfirst : answerOf (Logged.ofExcept ((Item.ofEntries clock es).mapError StoreError.noItem)) log =
        (Item.ofEntries clock es).mapError .noItem := rfl
    cases hitem : Item.ofEntries clock es with
    | error e =>
      rw [hitem] at hfirst
      exact answerOf_bind_error hfirst _
    | ok item =>
      rw [hitem] at hfirst
      obtain ⟨log₁, h₁⟩ := answerOf_bind hfirst fun item => do
        return item :: (← itemsOf clock source (place + 1) (objects.map .dict))
      refine h₁.trans ?_
      have hlater := ih (place + 1) log₁
      cases hitems : objects.mapM (Item.ofEntries clock) with
      | error e =>
        rw [hitems] at hlater
        exact answerOf_bind_error hlater _
      | ok items =>
        rw [hitems] at hlater
        obtain ⟨log₂, h₂⟩ := answerOf_bind hlater fun items => return item :: items
        exact h₂

/-- The items of the objects in a text. -/
theorem answerOf_itemsOfText {text : List Char} {objects : List Entries} (h : rowsOf text = .ok (objects.map .dict))
    (clock : Clock) (source : String) (log : List Entry) :
    answerOf (itemsOfText clock source (.ok text)) log = (objects.mapM (Item.ofEntries clock)).mapError .noItem := by
  have htext : answerOf (Logged.ofExcept ((Except.ok text : Except TextFileError (List Char)).mapError StoreError.noText))
      log = .ok text := rfl
  have hrows : ∀ log, answerOf (Logged.ofExcept ((rowsOf text).mapError (StoreError.noRows source))) log =
      .ok (objects.map .dict) := by
    rw [h]
    exact fun log => rfl
  unfold itemsOfText
  obtain ⟨log₁, h₁⟩ := answerOf_bind htext _
  rw [h₁]
  obtain ⟨log₂, h₂⟩ := answerOf_bind (hrows log₁) _
  rw [h₂]
  have hitems := answerOf_itemsOf clock source 0 objects log₂
  cases hall : objects.mapM (Item.ofEntries clock) with
  | error e =>
    rw [hall] at hitems
    exact answerOf_bind_error hitems _
  | ok items =>
    rw [hall] at hitems
    obtain ⟨log₃, h₃⟩ := answerOf_bind hitems _
    rw [h₃]
    rfl

/-- Two or more JSON texts of objects, with no ends of line in them, have the same rows in every
    layout, and the store of a file with them, whatever ends its lines, has the same items or
    fails in the same way. Lines put one below the other are such a layout, whichever of them
    are blank. -/
theorem layouts_agree (clock : Clock) {texts : List (List Char)} {objects : List Entries} (h : WriteObjects texts objects)
    (hmany : 2 ≤ texts.length) (hlines : ∀ t ∈ texts, ∀ c ∈ t, isLineEnd c = false) :
    (∀ file, IsLayout texts file → rowsOf file = .ok (objects.map .dict) ∧
      ∀ source log, answerOf (itemsOfText clock source (.ok (withLineFeeds file))) log =
        (objects.mapM (Item.ofEntries clock)).mapError .noItem) ∧
    ∀ ls, (∀ l ∈ ls, ∀ c ∈ l, isLineEnd c = false) → ls.filter (fun l => !isBlankText l) = texts →
      IsLayout texts (joinWith ['\n'] ls) := by
  constructor
  · intro file hfile
    refine ⟨rowsOf_of_isLayout h hfile hmany, fun source log => ?_⟩
    exact answerOf_itemsOfText (rowsOf_of_isLayout h (isLayout_withLineFeeds hfile hlines) hmany) clock source log
  · intro ls hls hvisible
    exact .lines ((visibleLines_joinWith hls).trans hvisible)

/-- Two objects in a list, under both names and on lines with blank ones around them. -/
theorem layouts_agree_two :
    let texts := ["\x7b\"id\": \"a\", \"items\": []\x7d".toList, " \x7b\"id\": 2, \"tags\": [\"x\"]\x7d\t".toList]
    let objects := [[(.text "id", .text "a"), (.text "items", .list [])],
      [(.text "id", .int 2), (.text "tags", .list [.text "x"])]]
    let below := [[], "\t\u00a0".toList] ++ texts ++ [" ".toList, []]
    let files := ["[".toList ++ joinWith [','] texts ++ "]".toList, wrapped "items" texts, wrapped "bookmarks" texts,
      joinWith ['\n'] below]
    WriteObjects texts objects ∧ ∀ file ∈ files, rowsOf file = .ok (objects.map .dict) ∧
      answerOf (itemsOfText ⟨.universal 0, .utc⟩ "items.json" (.ok (withLineFeeds file))) [] =
        (objects.mapM (Item.ofEntries ⟨.universal 0, .utc⟩)).mapError .noItem := by
  intro texts objects below files
  have hwrite : WriteObjects texts objects := writeObjects_two
  have hall : (below.all fun l => l.all fun c => !isLineEnd c) = true := by decide +kernel
  have hopen : ∀ l ∈ below, ∀ c ∈ l, isLineEnd c = false := fun l hl c hc => by
    simpa using List.all_eq_true.1 (List.all_eq_true.1 hall l hl) c hc
  have hvisible : below.filter (fun l => !isBlankText l) = texts := by decide +kernel
  have hlines : ∀ t ∈ texts, ∀ c ∈ t, isLineEnd c = false :=
    fun t ht => hopen t (List.mem_append_left _ (List.mem_append_right _ ht))
  obtain ⟨hagree, hbelow⟩ := layouts_agree ⟨.universal 0, .utc⟩ hwrite (by decide) hlines
  have hfiles : ∀ file ∈ files, IsLayout texts file := by
    intro file hfile
    simp only [files, List.mem_cons, List.not_mem_nil, or_false] at hfile
    rcases hfile with rfl | rfl | rfl | rfl
    · exact .list
    · exact .wrapped (by decide)
    · exact .wrapped (by decide)
    · exact hbelow below hopen hvisible
  exact ⟨hwrite, fun file hfile => ⟨(hagree file (hfiles file hfile)).1, (hagree file (hfiles file hfile)).2 _ _⟩⟩

end SearchBox.Store
